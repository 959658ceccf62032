import ApiAtlas.Endpoint.Model

/-!
# Display fields

What a schema says about the display of a value: a tree of fields, each of
which is primitive, an object or an array.  An array has the children of its
items, so that a nested table can be opened from it.  A field that identifies
its row is a key field.

`displayTree` reads the tree off a schema without references.
-/

namespace ApiAtlas.Table

/-- How the value of a field is displayed. -/
inductive FieldKind where
  | primitive
  | object
  | array
deriving DecidableEq, Repr

namespace FieldKind

/-- The name of a kind. -/
def name : FieldKind → String
  | .primitive => "primitive"
  | .object => "object"
  | .array => "array"

/-- The kind of a name. -/
def ofName? (text : String) : Option FieldKind :=
  [primitive, object, array].find? fun kind => kind.name == text

/-- Every kind is found under its name. -/
theorem ofName?_name (kind : FieldKind) : ofName? kind.name = some kind := by
  cases kind <;> rfl

end FieldKind

/-- A field of a displayed row. -/
inductive DisplayField where
  | make (name : String) (kind : FieldKind) (isKey : Bool)
      (children : Option (List (String × DisplayField)))
deriving Repr

/-- Fields under their keys, in order. -/
abbrev DisplayTree := List (String × DisplayField)

namespace DisplayField

/-- The name of a field. -/
def name : DisplayField → String
  | make name _ _ _ => name

/-- The kind of a field. -/
def kind : DisplayField → FieldKind
  | make _ kind _ _ => kind

/-- Whether a field identifies its row. -/
def isKey : DisplayField → Bool
  | make _ _ isKey _ => isKey

/-- The fields inside a field, where they are known. -/
def children : DisplayField → Option DisplayTree
  | make _ _ _ children => children

/-- The fields inside a field. -/
def inner (field : DisplayField) : DisplayTree := field.children.getD []

/-! ## Fields as data -/

mutual

/-- A field as data. -/
def toDatum : DisplayField → Datum
  | make name kind isKey children =>
    .object
      [("name", .str name),
        ("type", .str kind.name),
        ("is_key", .bool isKey),
        ("children", childrenToDatum children)]

/-- The fields inside a field as data, null where they are not known. -/
def childrenToDatum : Option (List (String × DisplayField)) → Datum
  | none => .null
  | some tree => .map (treeToEntries tree)

/-- Fields as the entries of a map. -/
def treeToEntries : List (String × DisplayField) → Entries
  | [] => []
  | (key, field) :: rest => (.str key, toDatum field) :: treeToEntries rest

end

/-- Reads the kind of a field. -/
def readKind (value : Datum) : Checked FieldKind :=
  match value.text?.bind FieldKind.ofName? with
  | some kind => .ok kind
  | none => Checked.issue .notLiteral

/-- Reads the members of a field other than the fields inside it. -/
def readOwnMembers (entries : Entries) :
    Checked (String × FieldKind × Bool) :=
  Checked.both (Checked.required "name" Checked.readText entries)
    (Checked.both (Checked.required "type" readKind entries)
      (Checked.optional "is_key" false Checked.readTruth entries))

mutual

/-- Reads a field. -/
def read : Datum → Checked DisplayField
  | .map entries =>
    (Checked.both (readOwnMembers entries) (readChildren entries)).map
      fun parts =>
        make parts.1.1 parts.1.2.1 parts.1.2.2 parts.2
  | _ => Checked.issue .notModel

/-- Reads the fields inside a field, which may be absent. -/
def readChildren : List (Scalar × Datum) →
    Checked (Option (List (String × DisplayField)))
  | [] => .ok none
  | (key, value) :: rest =>
    if key.same (.str "children") then
      (readOptionalTree value).inside (.name "children")
    else readChildren rest

/-- Reads fields under their keys, or null. -/
def readOptionalTree : Datum →
    Checked (Option (List (String × DisplayField)))
  | .map entries =>
    (readTreeEntries entries).map fun tree => some (Named.putAll [] tree)
  | .scalar .null => .ok none
  | _ => Checked.issue .notMapping

/-- Reads the entries of a tree. -/
def readTreeEntries : List (Scalar × Datum) →
    Checked (List (String × DisplayField))
  | [] => .ok []
  | (key, value) :: rest =>
    let entry :=
      Checked.both (Checked.readKey Scalar.shown key)
        ((read value).inside (Checked.keyStep Scalar.shown key))
    (Checked.both entry (readTreeEntries rest)).map fun pair =>
      pair.1 :: pair.2

end

/-- Reads fields under their keys; two keys may give the same text. -/
def readTree : Datum → Checked DisplayTree
  | .map entries => (readTreeEntries entries).map (Named.putAll [])
  | _ => Checked.issue .notMapping

end DisplayField

/-! ## The tree of a schema -/

/-- The types of values without parts. -/
def primitiveTypes : List String :=
  ["string", "number", "boolean", "integer"]

/-- The mark of a schema whose value identifies its row. -/
def keyMarker : String := "x-key"

/-- Whether a value is the name of the null type. -/
def isNullType (value : Datum) : Bool := value.isText "null"

/-- Whether a branch of a schema states a type other than null. -/
def hasType (branch : Datum) : Bool :=
  match branch.field? "type" with
  | some kind => kind.isTruthy && !isNullType kind
  | none => false

/-- The alternatives of a schema. -/
def alternatives (schema : Datum) : Except Fault (List Datum) :=
  match (schema.field? "oneOf").filter Datum.isTruthy with
  | some value => value.parts
  | none => .ok []

/-- The schema that decides the display: the first typed alternative, if any. -/
def effective (schema : Datum) : Except Fault Datum := do
  return ((← alternatives schema).find? hasType).getD schema

/-- The stated type; of several types the first one other than null. -/
def statedType (schema : Datum) : Datum :=
  match schema.field? "type" with
  | some (.list types) =>
    (types.find? fun kind => !isNullType kind).getD .null
  | some kind => kind
  | none => .null

/-- The kind of a field of a stated type, if it is displayed at all. -/
def kindOf? (type : Datum) : Option FieldKind :=
  if !type.isTruthy || isNullType type then none
  else
    match type with
    | .str name =>
      if name ∈ primitiveTypes then some .primitive
      else if name = "array" then some .array
      else some .object
    | _ => some .object

/-- A part of a value is no larger than the value. -/
theorem mem_parts_sizeOf
    {value part : Datum} {found : List Datum}
    (list : value.parts = .ok found) (member : part ∈ found)
    (branch : hasType part = true) :
    sizeOf part < sizeOf value := by
  have notScalar : ∀ scalar, part ≠ .scalar scalar := by
    rintro scalar rfl
    simp [hasType, Datum.field?] at branch
  cases value with
  | list items =>
    simp only [Datum.parts, Except.ok.injEq] at list
    subst list
    exact Datum.sizeOf_lt_of_mem_list member
  | set members =>
    simp only [Datum.parts, Except.ok.injEq] at list
    subst list
    obtain ⟨scalar, _, rfl⟩ := List.mem_map.1 member
    exact absurd rfl (notScalar scalar)
  | map entries =>
    simp only [Datum.parts, Except.ok.injEq] at list
    subst list
    obtain ⟨entry, _, rfl⟩ := List.mem_map.1 member
    exact absurd rfl (notScalar entry.1)
  | scalar scalar =>
    cases scalar with
    | str text =>
      simp only [Datum.parts, Except.ok.injEq] at list
      subst list
      obtain ⟨item, _, rfl⟩ := List.mem_map.1 member
      exact absurd rfl (notScalar _)
    | bytes content =>
      simp only [Datum.parts, Except.ok.injEq] at list
      subst list
      obtain ⟨item, _, rfl⟩ := List.mem_map.1 member
      exact absurd rfl (notScalar _)
    | _ => simp [Datum.parts, misused] at list
  | endless =>
    simp only [Datum.parts, Except.ok.injEq] at list
    subst list
    simp at member

/-- The deciding schema is no larger than the schema. -/
theorem sizeOf_effective_le
    {schema decided : Datum} (found : effective schema = .ok decided) :
    sizeOf decided ≤ sizeOf schema := by
  unfold effective alternatives at found
  split at found
  · next value present =>
    cases parts : value.parts with
    | error fault => simp [parts, bind, Except.bind] at found
    | ok items =>
      simp only [parts, bind, Except.bind, pure, Except.pure,
        Except.ok.injEq] at found
      subst found
      cases branch : items.find? hasType with
      | none => simp
      | some chosen =>
        have smaller :=
          mem_parts_sizeOf parts (List.mem_of_find?_eq_some branch)
            (List.find?_some branch)
        have outer :=
          Datum.sizeOf_lt_of_field? (Option.filter_eq_some_iff.1 present).1
        simp only [Option.getD_some]
        omega
  · simp only [bind, Except.bind, pure, Except.pure, Except.ok.injEq,
      List.find?_nil, Option.getD_none] at found
    subst found
    exact Nat.le_refl _

/-- The truthy member of a schema under a name. -/
def presentField? (name : String) (schema : Datum) : Option Datum :=
  (schema.field? name).filter Datum.isTruthy

theorem sizeOf_lt_of_presentField?
    {schema value : Datum} {name : String}
    (found : presentField? name schema = some value) :
    sizeOf value < sizeOf schema :=
  Datum.sizeOf_lt_of_field? (Option.filter_eq_some_iff.1 found).1

/-- The name of a field, which has to be a text. -/
def fieldName : Scalar → Except Fault String
  | .str name => .ok name
  | _ => .error (.invalid [⟨.notText, [.name "name"]⟩])

mutual

/-- The field of a schema under a key, if it is displayed at all. -/
def displayField? (key : Scalar) (schema : Datum) :
    Except Fault (Option DisplayField) :=
  match schema with
  | .map entries =>
    match _decided : effective (.map entries) with
    | .error fault => .error fault
    | .ok chosen =>
      match kindOf? (statedType chosen) with
      | none => .ok none
      | some kind => do
        let name ← fieldName key
        let isKey := (presentField? keyMarker chosen).isSome
        let children ←
          match kind with
          | .primitive => pure none
          | .array =>
            match _found : presentField? "items" chosen with
            | some items => do
              let item ← displayField? key items
              pure (item.bind DisplayField.children)
            | none => pure none
          | .object =>
            match _found : presentField? "properties" chosen with
            | some (.map properties) => do
              let tree ← displayFields properties
              pure (some tree)
            | some _ => misused .noMembers
            | none => pure none
        return some (.make name kind isKey children)
  | _ => .ok none
termination_by (sizeOf schema, 0)
decreasing_by
  · have := sizeOf_effective_le _decided
    have := sizeOf_lt_of_presentField? _found
    exact Prod.Lex.left _ _ (by omega)
  · have := sizeOf_effective_le _decided
    have := sizeOf_lt_of_presentField? _found
    simp only [Datum.map.sizeOf_spec] at this
    exact Prod.Lex.left _ _ (by omega)

/-- The displayed fields of properties, in order. -/
def displayFields (properties : List (Scalar × Datum)) :
    Except Fault (List (String × DisplayField)) :=
  match properties with
  | [] => .ok []
  | (key, property) :: rest => do
    let field ← displayField? key property
    let others ← displayFields rest
    match field with
    | some field => return (field.name, field) :: others
    | none => return others
termination_by (sizeOf properties, 0)
decreasing_by
  all_goals
    apply Prod.Lex.left
    simp only [List.cons.sizeOf_spec, Prod.mk.sizeOf_spec]
    omega

end

/-- The tree of the properties of a schema. -/
def displayTree (schema : Datum) : Except Fault DisplayTree := do
  let properties := ((← schema.member? "properties").filter
    Datum.isTruthy).getD (.map [])
  displayFields (← properties.entries)

end ApiAtlas.Table
