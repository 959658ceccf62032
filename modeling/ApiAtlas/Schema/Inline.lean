import ApiAtlas.Schema.Reference
import ApiAtlas.Settings

/-!
# Schemas without references

`inline` gives the schema in which every reference at a structural position is
replaced by what it leads to.  The structural positions of an object are the
branches under the composite members, the properties and, for an array, its
items; anything else is kept as it is.

The walk stops where a name comes up again on the way from the root, or where
schemas are nested more deeply than a limit.  A walk at depth `d` has a budget
of `limit + 1 - d`, so the budget decides the depth check and ends the
recursion.
-/

namespace ApiAtlas.Schema

/-- The members that hold alternative or combined branches, in walking order. -/
def compositeMembers : List String := ["oneOf", "anyOf", "allOf"]

/-- The depth to which schemas may be nested, by the standard settings. -/
def depthLimit : Int := Settings.standard.depthLimit

/-- The budget of a walk that starts at depth zero. -/
def walkBudget (limit : Int) : Nat := (limit + 1).toNat

/-- A value under every key replaced, in order. -/
def replaceValues (replace : Datum → Except Fault Datum) (entries : Entries) :
    Except Fault Entries :=
  entries.mapM fun entry => do
    let value ← replace entry.2
    return (entry.1, value)

/-- An object with the branches under one composite member replaced. -/
def replaceBranches (replace : Datum → Except Fault Datum)
    (entries : Entries) (member : String) : Except Fault Entries :=
  match Entries.get? (.str member) entries with
  | some (.list branches) => do
    let replaced ← branches.mapM replace
    return Entries.put (.str member) (.list replaced) entries
  | _ => .ok entries

/-- An object with its properties replaced. -/
def replaceProperties (replace : Datum → Except Fault Datum)
    (entries : Entries) : Except Fault Entries :=
  match Entries.get? (.str "properties") entries with
  | some (.map properties) => do
    let replaced ← replaceValues replace properties
    return Entries.put (.str "properties") (.map replaced) entries
  | _ => .ok entries

/-- Whether an object describes an array. -/
def describesArray (entries : Entries) : Bool :=
  match Entries.get? (.str "type") entries with
  | some kind => kind.isText "array"
  | none => false

/-- An array's object with its items replaced. -/
def replaceItems (replace : Datum → Except Fault Datum)
    (entries : Entries) : Except Fault Entries :=
  match describesArray entries, Entries.get? (.str "items") entries with
  | true, some (.map items) => do
    let replaced ← replace (.map items)
    return Entries.put (.str "items") replaced entries
  | _, _ => .ok entries

/-- An object with every structural position replaced. -/
def replaceParts (replace : Datum → Except Fault Datum)
    (entries : Entries) : Except Fault Datum := do
  let entries ← compositeMembers.foldlM (replaceBranches replace) entries
  let entries ← replaceProperties replace entries
  let entries ← replaceItems replace entries
  return .map entries

/--
The name of a reference and the definition it leads to, if the name is new on
the chain of names from the root.
-/
def followReference (definitions : Datum) (chain : List String)
    (reference : Datum) : Except Fault (String × Datum) := do
  let text ← referenceText reference
  let name ← referenceName text
  if name ∈ chain then
    throw (.cyclicReference (chain ++ [name]) .cycle)
  let target ← resolve text definitions
  return (name, target)

/--
A node with its references replaced, within a budget of nested schemas and
after a chain of names that have been followed.
-/
def inlineWithin (definitions : Datum) (limit : Int) :
    Nat → List String → Datum → Except Fault Datum
  | 0, chain, _ => .error (.cyclicReference chain (.depthAbove limit))
  | budget + 1, chain, node =>
    match reference? node with
    | some reference => do
      let (name, target) ← followReference definitions chain reference
      inlineWithin definitions limit budget (chain ++ [name]) target
    | none =>
      match node with
      | .map entries =>
        replaceParts (inlineWithin definitions limit budget chain) entries
      | other => .ok other

/-- A node with every reference replaced, nested no more deeply than a limit. -/
def inline (node definitions : Datum) (limit : Int) :
    Except Fault Datum :=
  inlineWithin definitions limit (walkBudget limit) [] node

/-- The definition of a name with every reference replaced. -/
def inlineNamed (name : String) (definitions : Datum) :
    Except Fault Datum := do
  match ← definition? definitions name with
  | some node => inline node definitions depthLimit
  | none => throw (.unresolvedReference (referenceTo name))

end ApiAtlas.Schema
