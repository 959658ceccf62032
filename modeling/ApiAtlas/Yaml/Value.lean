import ApiAtlas.Yaml.Composition
import ApiAtlas.Yaml.Form

/-!
# Values of YAML

`read` gives the value of a text.  The values of nodes follow from their forms
in the order of their numbers, for the parts of a node come first.  Where a
value holds itself, it is unrolled many times, and the innermost part is
endless.
-/

namespace ApiAtlas.Yaml

/--
How often a value that holds itself is unrolled.  It is deeper than any value
may be that is worked on part by part.
-/
def unrollings : Nat := 300

namespace Form

/-- The numbers of the parts of a form. -/
def parts : Form → List Nat
  | scalar _ => []
  | list items => items
  | pairs items => items.flatMap fun pair => [pair.1, pair.2]
  | set _ => []
  | map members => members.map (·.2)

/-- The value of a form, from the values of its parts. -/
def value (part : Nat → Datum) : Form → Datum
  | scalar key => .scalar key.value
  | list items => .list (items.map part)
  | pairs items =>
    .list (items.map fun pair => .list [part pair.1, part pair.2])
  | set keys => .set (keys.map Key.value)
  | map members =>
    .map (members.map fun member => (member.1.value, part member.2))

end Form

namespace Forms

/-- Whether the parts of all forms come before them. -/
def isOrdered (forms : Forms) : Bool :=
  forms.zipIdx.all fun (form, number) =>
    form.all fun form => form.parts.all (· < number)

/--
The values of forms: a part that comes first has its value already, any other
one has an earlier value.
-/
def valuesFrom (forms : Forms) (earlier : Array Datum) : Array Datum :=
  forms.foldl
    (fun values form =>
      let part (number : Nat) : Datum :=
        (values[number]?.or earlier[number]?).getD .endless
      values.push ((form.map (Form.value part)).getD .endless))
    #[]

/-- The values of forms after some rounds; at first all are endless. -/
def valuesAfter (forms : Forms) : Nat → Array Datum
  | 0 => #[]
  | rounds + 1 => forms.valuesFrom (forms.valuesAfter rounds)

/-- The values of forms. -/
def values (forms : Forms) : Array Datum :=
  forms.valuesAfter (if forms.isOrdered then 1 else unrollings)

end Forms

/-- The value of a tree. -/
def Node.value (node : Node) : Except Rejection Datum := do
  let rooted := node.toGraph
  let forms ← rooted.forms
  return forms.values[rooted.root]?.getD .endless

/-- The value of a text; a text without a document is null. -/
def read (text : String) : Except Rejection Datum := do
  if !text.toList.all isAllowed then throw .malformed
  match ← rootOf text.toList with
  | none => return .null
  | some root => root.value

end ApiAtlas.Yaml
