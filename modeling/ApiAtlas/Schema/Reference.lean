import ApiAtlas.Data.Access

/-!
# References between schemas

A schema may stand in the description by reference: an object with the member
`$ref`, whose text leads to a named definition of the same description.
`referenceName` gives the name a reference leads to, and `resolve` the
definition under that name.
-/

namespace ApiAtlas.Schema

/-- The member that makes an object a reference. -/
def referenceMember : String := "$ref"

/-- The front of every reference to a definition. -/
def referenceFront : String := "#/components/schemas/"

/-- The reference to the definition of a name. -/
def referenceTo (name : String) : String := referenceFront ++ name

/-- The reference that a value is, if it is one. -/
def reference? (node : Datum) : Option Datum := node.field? referenceMember

/-- Whether a value is a reference. -/
def isReference (node : Datum) : Bool := (reference? node).isSome

/--
The name after the front of a reference: a non-empty line, without the line
end that may follow it.
-/
def nameAfterFront (characters : List Char) : Option (List Char) :=
  let line :=
    if characters.getLast? = some '\n' then characters.dropLast
    else characters
  if line.isEmpty || line.contains '\n' then none else some line

/-- The name that a reference leads to. -/
def referenceName (reference : String) : Except Fault String :=
  let front := referenceFront.toList
  let characters := reference.toList
  let name :=
    if front.isPrefixOf characters then
      nameAfterFront (characters.drop front.length)
    else none
  match name with
  | some name => .ok (String.ofList name)
  | none => .error (.unresolvedReference reference)

/-- The text of a reference, which has to be one. -/
def referenceText : Datum → Except Fault String
  | .str text => .ok text
  | _ => misused .unsupported

/--
The definition of a name.  Definitions are the members of a map; another value
in the place of the map has no definitions.
-/
def definition? (definitions : Datum) (name : String) :
    Except Fault (Option Datum) :=
  definitions.held? name

/-- The definition that a reference leads to. -/
def resolve (reference : String) (definitions : Datum) :
    Except Fault Datum := do
  let name ← referenceName reference
  match ← definition? definitions name with
  | some target => return target
  | none => throw (.unresolvedReference reference)

end ApiAtlas.Schema
