import ApiAtlas.Fault

/-!
# Filter operators

The comparisons that a filter can make.  An operator is known by its name; the
names are fixed and pairwise different.
-/

namespace ApiAtlas.Filter

/-- A comparison of a field with a value. -/
inductive Operator where
  | equal
  | notEqual
  | less
  | atMost
  | greater
  | atLeast
  | oneOf
deriving DecidableEq, Repr

namespace Operator

/-- The name of an operator. -/
def name : Operator → String
  | .equal => "Eq"
  | .notEqual => "Ne"
  | .less => "Lt"
  | .atMost => "Le"
  | .greater => "Gt"
  | .atLeast => "Ge"
  | .oneOf => "In"

/-- All operators, in the order in which they are listed to a user. -/
def all : List Operator :=
  [.equal, .notEqual, .less, .atMost, .greater, .atLeast, .oneOf]

/-- The names of all operators. -/
def names : List String := all.map name

/-- The operator of a name. -/
def ofName? (text : String) : Option Operator :=
  all.find? fun operator => operator.name == text

/-- The operator that a value names. -/
def ofDatum (value : Datum) : Except Fault Operator :=
  match value.text?.bind ofName? with
  | some operator => .ok operator
  | none => .error (.notAmong value "FilterOperator")

/-- Every operator is found under its name. -/
theorem ofName?_name (operator : Operator) :
    ofName? operator.name = some operator := by
  cases operator <;> rfl

end Operator

end ApiAtlas.Filter
