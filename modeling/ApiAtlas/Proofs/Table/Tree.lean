import ApiAtlas.Proofs.Schema.Exchange
import ApiAtlas.Table.DisplayField

/-!
# Display trees of schemas that are written differently

The display tree is read off a schema whose references have been replaced, so
it does not matter which parts of the schema are definitions of their own.

This is so as long as inlining enters the arrays that are displayed.  It enters
those whose type is the one text `array`.  An array that may be null as well is
displayed in the same way, but its items are not inlined.
-/

namespace ApiAtlas.Table

open Schema (Exchanged describesArray inline depthLimit referenceMember
  referenceName reference?)

/-! ## The field of one schema -/

section Fields

variable {entries : Entries} {chosen : Datum} {name : String}

theorem displayField?_of_hidden
    {key : Scalar} (decided : effective (.map entries) = .ok chosen)
    (hidden : kindOf? (statedType chosen) = none) :
    displayField? key (.map entries) = .ok none := by
  rw [displayField?]
  split
  · next failed => cases decided.symm.trans failed
  · next same =>
    cases decided.symm.trans same
    rw [hidden]

theorem displayField?_of_primitive
    (decided : effective (.map entries) = .ok chosen)
    (kind : kindOf? (statedType chosen) = some .primitive) :
    displayField? (.str name) (.map entries) =
      .ok
        (some
          (.make name .primitive (presentField? keyMarker chosen).isSome
            none)) := by
  rw [displayField?]
  split
  · next failed => cases decided.symm.trans failed
  · next same =>
    cases decided.symm.trans same
    rw [kind]
    rfl

/-- An array has the children of its items. -/
theorem displayField?_of_items
    {items : Datum} (decided : effective (.map entries) = .ok chosen)
    (kind : kindOf? (statedType chosen) = some .array)
    (found : presentField? "items" chosen = some items) :
    displayField? (.str name) (.map entries) =
      (displayField? (.str name) items).map fun item =>
        some
          (.make name .array (presentField? keyMarker chosen).isSome
            (item.bind DisplayField.children)) := by
  rw [displayField?]
  split
  · next failed => cases decided.symm.trans failed
  · next same =>
    cases decided.symm.trans same
    rw [kind]
    dsimp only
    split
    · next other =>
      cases found.symm.trans other
      cases displayField? (.str name) items <;> rfl
    · next absent => cases found.symm.trans absent

/-- An object has its properties as children. -/
theorem displayField?_of_properties
    {properties : Entries} (decided : effective (.map entries) = .ok chosen)
    (kind : kindOf? (statedType chosen) = some .object)
    (found : presentField? "properties" chosen = some (.map properties)) :
    displayField? (.str name) (.map entries) =
      (displayFields properties).map fun tree =>
        some
          (.make name .object (presentField? keyMarker chosen).isSome
            (some tree)) := by
  rw [displayField?]
  split
  · next failed => cases decided.symm.trans failed
  · next same =>
    cases decided.symm.trans same
    rw [kind]
    dsimp only
    split
    · next other =>
      cases found.symm.trans other
      cases displayFields properties <;> rfl
    · next others other =>
      cases found.symm.trans other
      exact (others properties rfl).elim
    · next absent => cases found.symm.trans absent

end Fields

/-! ## Parts that are definitions -/

/-- The object is displayed as an array. -/
def ShowsItems (entries : Entries) : Prop :=
  kindOf? (statedType (.map entries)) = some .array

theorem kindOf?_eq_array_iff {type : Datum} :
    kindOf? type = some .array ↔ type = .str "array" := by
  constructor
  · intro kind
    unfold kindOf? at kind
    split at kind
    · cases kind
    · split at kind
      · next text =>
        split at kind
        · cases kind
        · split at kind
          · next isArray => rw [isArray]
          · cases kind
      · cases kind
  · rintro rfl
    rfl

/--
What is displayed as an array is an array that inlining enters, or has several
types of which the first one other than null is the array.
-/
theorem showsItems_iff {entries : Entries} :
    ShowsItems entries ↔
      describesArray entries = true ∨
        ∃ types, Entries.get? (.str "type") entries = some (.list types) ∧
          types.find? (fun kind => !isNullType kind) = some (.str "array") := by
  rw [ShowsItems, kindOf?_eq_array_iff, describesArray, statedType,
    Datum.field?]
  cases Entries.get? (.str "type") entries with
  | none => simp
  | some kind =>
    cases kind with
    | scalar kind => cases kind <;> simp [Datum.isText]
    | list types =>
      cases found : types.find? fun kind => !isNullType kind <;>
        simp [Datum.isText, found]
    | _ => simp [Datum.isText]

/--
A part of a schema may be moved to a definition of a new name: if both schemas
are inlined, they have one display tree.  The schema that inlining gives has no
reference at any place of the tree.
-/
theorem displayTree_of_exchanged
    {node new part inlined otherInlined : Datum} {definitions : Entries}
    {text name : String} {limit otherLimit : Int}
    (named : referenceName text = .ok name)
    (isNew : Entries.get? (.str name) definitions = none)
    (exchanged :
      Exchanged (fun entries => describesArray entries = true) part
        (.object [(referenceMember, .str text)]) node new)
    (success : inline node (.map definitions) limit = .ok inlined)
    (otherSuccess :
      inline new (.map (Entries.put (.str name) part definitions)) otherLimit =
        .ok otherInlined) :
    displayTree otherInlined = displayTree inlined ∧
      ∀ met other changed,
        Exchanged (fun entries => describesArray entries = true) met other
            inlined changed →
          reference? met = none := by
  constructor
  · have same : otherInlined = inlined :=
      exchanged.eq_of_inlinesTo_reference named isNew ⟨_, _, _, success⟩
        ⟨_, _, _, otherSuccess⟩
    rw [same]
  · intro met other changed place
    exact
      (Schema.inlined_of_inlineWithin success).reference?_eq_none_of_exchanged
        place

/-! ## Rows of a table -/

/-- An object with rows, which are an array of a type. -/
def rowsOf (kind row : Datum) : Datum :=
  .object
    [("type", .str "object"),
      ("properties",
        .object [("rows", .object [("type", kind), ("items", row)])])]

/-- A row with one value. -/
def row : Datum :=
  .object
    [("type", .str "object"),
      ("properties", .object [("value", .object [("type", .str "string")])])]

/-- The items of the rows are exchanged. -/
theorem exchanged_rowsOf
    {enters : Entries → Prop} {kind part other : Datum}
    (entered : enters (Fields.toEntries [("type", kind), ("items", part)])) :
    Exchanged enters part other (rowsOf kind part) (rowsOf kind other) :=
  @Exchanged.property _ _ _ _ [] [] (.str "rows") _ _ rfl
    (.items entered rfl .here)

/-- Rows may be a definition. -/
theorem displayTree_of_exchanged_rows :
    ∃ inlined otherInlined,
      inline (rowsOf (.str "array") row) (.map []) depthLimit = .ok inlined ∧
        inline (rowsOf (.str "array") (Schema.referring "Row"))
            (.object [("Row", row)]) depthLimit =
          .ok otherInlined ∧
        displayTree otherInlined = displayTree inlined := by
  have success :
      inline (rowsOf (.str "array") row) (.map []) depthLimit =
        .ok (rowsOf (.str "array") row) := by
    decide +kernel
  have otherSuccess :
      inline (rowsOf (.str "array") (Schema.referring "Row"))
          (.object [("Row", row)]) depthLimit =
        .ok (rowsOf (.str "array") row) := by
    decide +kernel
  exact
    ⟨_, _, success, otherSuccess,
      (displayTree_of_exchanged (by decide +kernel) rfl (exchanged_rowsOf rfl)
        success otherSuccess).1⟩

/-- An array that may be null. -/
def arrayOrNull : Datum := .list [.str "array", .str "null"]

theorem displayFields_singleton
    {key : Scalar} {schema : Datum} :
    displayFields [(key, schema)] =
      (displayField? key schema).map fun field =>
        (field.map fun field => (field.name, field)).toList := by
  rw [displayFields, displayFields]
  cases displayField? key schema with
  | error fault => rfl
  | ok field => cases field <;> rfl

/-- The tree of the rows is that of one of them. -/
theorem displayTree_rowsOf
    {items : Datum} (present : items.isTruthy = true) :
    displayTree (rowsOf arrayOrNull items) =
      (displayField? (.str "rows") items).map fun item =>
        [("rows",
          .make "rows" .array false (item.bind DisplayField.children))] := by
  have decided :
      effective (.object [("type", arrayOrNull), ("items", items)]) =
        .ok (.object [("type", arrayOrNull), ("items", items)]) :=
    rfl
  have found :
      presentField? "items"
          (.object [("type", arrayOrNull), ("items", items)]) =
        some items := by
    change (some items).filter Datum.isTruthy = some items
    rw [Option.filter_some, if_pos present]
  change
    displayFields
        [(.str "rows", .object [("type", arrayOrNull), ("items", items)])] = _
  rw [displayFields_singleton]
  change
    (displayField? (.str "rows")
        (.map
          (Fields.toEntries [("type", arrayOrNull), ("items", items)]))).map
        _ = _
  rw [displayField?_of_items decided rfl found]
  cases displayField? (.str "rows") items <;> rfl

theorem displayField?_row :
    displayField? (.str "rows") row =
      .ok
        (some
          (.make "rows" .object false
            (some [("value", .make "value" .primitive false none)]))) := by
  have text :
      effective (.object [("type", .str "string")]) =
        .ok (.object [("type", .str "string")]) :=
    rfl
  have value :
      displayField? (.str "value") (.object [("type", .str "string")]) =
        .ok (some (.make "value" .primitive false none)) :=
    displayField?_of_primitive text rfl
  have fields :
      displayFields [(.str "value", .object [("type", .str "string")])] =
        .ok [("value", .make "value" .primitive false none)] := by
    rw [displayFields_singleton, value]
    rfl
  have decided : effective row = .ok row := rfl
  have found :
      presentField? "properties" row =
        some (.map [(.str "value", .object [("type", .str "string")])]) :=
    rfl
  refine (displayField?_of_properties decided rfl found).trans ?_
  rw [fields]
  rfl

/-- Rows that are a definition are lost if the array may be null. -/
theorem not_forall_displayTree_of_exchanged :
    ¬ ∀ (node new part inlined otherInlined : Datum) (definitions : Entries)
        (text name : String),
      referenceName text = .ok name →
        Entries.get? (.str name) definitions = none →
          Exchanged ShowsItems part (.object [(referenceMember, .str text)])
              node new →
            inline node (.map definitions) depthLimit = .ok inlined →
              inline new (.map (Entries.put (.str name) part definitions))
                  depthLimit =
                .ok otherInlined →
                displayTree otherInlined = displayTree inlined := by
  intro same
  have success :
      inline (rowsOf arrayOrNull row) (.map []) depthLimit =
        .ok (rowsOf arrayOrNull row) := by
    decide +kernel
  have otherSuccess :
      inline (rowsOf arrayOrNull (Schema.referring "Row"))
          (.object [("Row", row)]) depthLimit =
        .ok (rowsOf arrayOrNull (Schema.referring "Row")) := by
    decide +kernel
  have entered :
      ShowsItems (Fields.toEntries [("type", arrayOrNull), ("items", row)]) :=
    rfl
  have equal :=
    same _ _ row _ _ [] (Schema.referenceTo "Row") "Row" (by decide +kernel)
      rfl (exchanged_rowsOf entered) success otherSuccess
  have reference :
      displayField? (.str "rows") (Schema.referring "Row") = .ok none :=
    displayField?_of_hidden rfl rfl
  rw [displayTree_rowsOf rfl, displayTree_rowsOf rfl, displayField?_row,
    reference] at equal
  simp [Except.map, DisplayField.children] at equal

end ApiAtlas.Table
