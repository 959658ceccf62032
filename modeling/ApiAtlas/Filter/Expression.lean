import ApiAtlas.Filter.Field
import ApiAtlas.Text.LetterCase
import ApiAtlas.Text.Numeral

/-!
# Filter expressions

A selection of a field, an operator and a value, and the request body that
several selections make.  Values given as text are read by the type of their
field; a list operator takes the items between commas.

In a body the values stand under the names of the path and the name of the
operator.  Array markers are left out, and of two values at one place the last
one counts.
-/

namespace ApiAtlas.Filter

/-- A value selected for a field. -/
structure Expression where
  path : String
  operator : Operator
  value : Datum
deriving DecidableEq, Repr

/-! ## Reading values -/

/-- The texts that stand for the truth value true. -/
def trueTexts : List String := ["true", "1", "yes"]

/-- The value that a text stands for in a field of some type. -/
def readValue (type : Option String) (text : String) :
    Except Fault Datum :=
  match type with
  | some "integer" => ((Text.readWhole text).mapError Fault.numeral).map .int
  | some "number" => ((Text.readNumber text).mapError Fault.numeral).map .float
  | some "boolean" => .ok (.bool (decide (Text.toSmall text ∈ trueTexts)))
  | _ => .ok (.str text)

/-- The items of a text between commas, without blank ones. -/
def listItems (text : String) : List String :=
  ((Text.parts ',' text).map Text.trim).filter (· ≠ "")

/-- The expression that a user's selection stands for. -/
def select (field : Field) (operator raw : Datum) :
    Except Fault Expression := do
  let operator ← Operator.ofDatum operator
  match raw with
  | .str text =>
    if operator = .oneOf then
      let values ← (listItems text).mapM (readValue field.type)
      return ⟨field.path, operator, .list values⟩
    else
      let value ← readValue field.type (Text.trim text)
      return ⟨field.path, operator, value⟩
  | value => return ⟨field.path, operator, value⟩

/-! ## Request bodies -/

/-- A part of a path without the array marker at its end. -/
def unmarked (part : String) : String :=
  let marker := arrayMarker.toList
  let reversed := part.toList.reverse
  let bare :=
    match reversed with
    | '\n' :: rest =>
      if marker.reverse.isPrefixOf rest then
        '\n' :: rest.drop marker.length
      else reversed
    | _ =>
      if marker.reverse.isPrefixOf reversed then
        reversed.drop marker.length
      else reversed
  String.ofList bare.reverse

/-- The names of a path, without array markers. -/
def pathNames (path : String) : List String :=
  (Text.parts '.' path).map unmarked

/-- The members of an object under a name; anything else gives way to none. -/
def membersAt (name : String) (body : Entries) : Entries :=
  match Entries.get? (.str name) body with
  | some (.map members) => members
  | _ => []

/-- A body with a value put under a path of names and an operator. -/
def putAt (operator : Operator) (value : Datum) :
    List String → Entries → Entries
  | [], body => Entries.put (.str operator.name) value body
  | name :: rest, body =>
    Entries.put (.str name)
      (.map (putAt operator value rest (membersAt name body))) body

/-- A body with the value of an expression in its place. -/
def addExpression (body : Entries) (expression : Expression) : Entries :=
  putAt expression.operator expression.value (pathNames expression.path) body

/-- The request body that expressions make. -/
def bodyOf (expressions : List Expression) : Entries :=
  expressions.foldl addExpression []

end ApiAtlas.Filter
