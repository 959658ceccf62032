import ApiAtlas.Proofs.Related
import ApiAtlas.Proofs.Validation.Checked

/-!
# Models that are read back from what they are written as

A model that is written as data is read back as itself if each of its parts is.
Texts and truth values always are; a list is if its items are, and a map if its
values are and its keys are different, which they are in every map that a check
gives.
-/

namespace ApiAtlas

namespace Checked

variable {α : Type} {read : Datum → Checked α} {write : α → Datum}

/-- A model that is read back from the data that it is written as. -/
def Restores (read : Datum → Checked α) (write : α → Datum) (model : α) : Prop :=
  read (write model) = .ok model

/-- A check that reads back every model that it gives. -/
def ReadsBack (read : Datum → Checked α) (write : α → Datum) : Prop :=
  ∀ value model, read value = .ok model → Restores read write model

/-! ## Values without members -/

theorem restores_text (text : String) : Restores readText .str text := rfl

theorem restores_truth (value : Bool) : Restores readTruth .bool value := rfl

theorem restores_optionalText (text : Option String) :
    Restores readOptionalText (fun text => text.elim .null .str) text := by
  cases text <;> rfl

/-- Where nothing is allowed too, what is written as something is read back. -/
theorem restores_optional
    {model : Option α} (present : ∀ part, write part ≠ .null)
    (kept : ∀ part ∈ model, Restores read write part) :
    Restores (readOptional read) (fun model => model.elim .null write) model := by
  cases model with
  | none => rfl
  | some part =>
    have here : read (write part) = .ok part := kept part rfl
    rw [Restores, Option.elim_some, readOptional, here]
    · rfl
    · exact present part

/-- What is read where nothing is allowed too has been read. -/
theorem exists_of_readOptional
    {value : Datum} {model : Option α}
    (success : readOptional read value = .ok model) {part : α}
    (present : part ∈ model) :
    ∃ inner, read inner = .ok part := by
  rw [readOptional.eq_def] at success
  split at success
  · cases success
    cases present
  · rcases exists_of_map_eq_ok success with ⟨found, here, rfl⟩
    cases present
    exact ⟨value, here⟩

/-! ## Lists and maps -/

theorem readItemsFrom_map
    {items : List α} (kept : ∀ item ∈ items, Restores read write item)
    (position : Int) :
    readItemsFrom read position (items.map write) = .ok items := by
  induction items generalizing position with
  | nil => rfl
  | cons item rest ih =>
    rw [List.forall_mem_cons] at kept
    rw [List.map_cons, readItemsFrom, inside_eq_ok_iff.2 kept.1,
      ih kept.2 (position + 1)]
    rfl

theorem restores_list
    {items : List α} (kept : ∀ item ∈ items, Restores read write item) :
    Restores (readList read) (fun items => .list (items.map write)) items :=
  readItemsFrom_map kept 0

/-- A list of any values is read as itself. -/
theorem restores_values (values : List Datum) :
    Restores (readList readAny) .list values := by
  have kept :
      Restores (readList readAny) (fun items => .list (items.map id)) values :=
    restores_list fun _ _ => rfl
  rwa [Restores, List.map_id] at kept

theorem readEntries_toEntries
    {fields : Named α} (kept : ∀ field ∈ fields, Restores read write field.2)
    (shown : Scalar → String) :
    readEntries shown read
        (Fields.toEntries (fields.map fun field => (field.1, write field.2))) =
      .ok fields := by
  induction fields with
  | nil => rfl
  | cons field rest ih =>
    rw [List.forall_mem_cons] at kept
    rw [List.map_cons, Fields.toEntries, List.map_cons, ← Fields.toEntries,
      readEntries, inside_eq_ok_iff.2 kept.1, ih kept.2]
    rfl

theorem restores_mapping
    {fields : Named α} (different : (fields.map Prod.fst).Nodup)
    (kept : ∀ field ∈ fields, Restores read write field.2)
    (shown : Scalar → String) :
    Restores (readMapping shown read)
      (fun fields =>
        .object (fields.map fun field => (field.1, write field.2)))
      fields := by
  have put : Named.putAll [] fields = fields := Named.putAll_of_nodup different
  rw [Restores, Datum.object, readMapping, readEntries_toEntries kept shown,
    Except.map, put]

/-- The items of a list that is read have been read. -/
theorem exists_of_mem_readList
    {value : Datum} {items : List α} (success : readList read value = .ok items)
    {item : α} (member : item ∈ items) :
    ∃ part, read part = .ok item := by
  have each (position : Int) {parts : List Datum} {items : List α}
      (success : readItemsFrom read position parts = .ok items) :
      List.Forall₂ (fun part item => read part = .ok item) parts items := by
    induction parts generalizing items position with
    | nil =>
      cases success
      exact .nil
    | cons part rest ih =>
      rw [readItemsFrom] at success
      rcases exists_of_map_eq_ok success with ⟨pair, both, rfl⟩
      rw [both_eq_ok_iff, inside_eq_ok_iff] at both
      exact .cons both.1 (ih (position + 1) both.2)
  have found {parts : List Datum}
      (success : readItemsFrom read 0 parts = .ok items) :
      ∃ part, read part = .ok item := by
    rcases exists_mem_of_forall₂ (each 0 success) member with ⟨part, -, here⟩
    exact ⟨part, here⟩
  cases value with
  | list parts => exact found success
  | set members => exact found success
  | _ => cases success

/-- A map that is read has different keys, and its values have been read. -/
theorem exists_of_readMapping
    {shown : Scalar → String} {value : Datum} {fields : Named α}
    (success : readMapping shown read value = .ok fields) :
    (fields.map Prod.fst).Nodup ∧
      ∀ field ∈ fields, ∃ part, read part = .ok field.2 := by
  cases value with
  | map entries =>
    rcases exists_of_map_eq_ok success with ⟨listed, each, rfl⟩
    refine ⟨Named.nodup_keys_putAll List.nodup_nil, ?_⟩
    intro field member
    rcases Named.mem_or_mem_of_mem_putAll member with none | member
    · cases none
    · rcases exists_mem_of_forall₂ (forall₂_of_readEntries each) member with
        ⟨entry, -, -, here⟩
      exact ⟨entry.2, here⟩
  | _ => cases success

/-! ## Members of models -/

section Member

variable {name : String} {fields : Fields} {written : Datum} {value : α}

/-- A member is read from what is written under its name. -/
theorem required_toEntries
    (held : fields.get? name = some written) (kept : read written = .ok value) :
    required name read fields.toEntries = .ok value := by
  rw [required, Fields.get?_toEntries, held]
  exact inside_eq_ok_iff.2 kept

theorem optional_toEntries
    (held : fields.get? name = some written) (kept : read written = .ok value)
    (fallback : α) :
    optional name fallback read fields.toEntries = .ok value := by
  rw [optional, Fields.get?_toEntries, held]
  exact inside_eq_ok_iff.2 kept

/-- A member that has to be present has been read. -/
theorem exists_of_required
    {entries : Entries} (success : required name read entries = .ok value) :
    ∃ part, read part = .ok value := by
  rw [required] at success
  split at success
  · next part found => exact ⟨part, inside_eq_ok_iff.1 success⟩
  · cases success

/-- A check that reads back what it gives keeps the members that it has read. -/
theorem ReadsBack.required
    (readsBack : ReadsBack read write) {entries : Entries}
    (success : Checked.required name read entries = .ok value) :
    Restores read write value := by
  rcases exists_of_required success with ⟨part, here⟩
  exact readsBack part value here

end Member

end Checked

open Checked

/-- The keys of an object that is read are different, so it is read back. -/
theorem readsBack_readObject : ReadsBack readObject Datum.object := by
  intro value fields success
  have each : ∀ field ∈ fields, Restores readAny id field.2 := fun _ _ => rfl
  have kept :=
    restores_mapping (exists_of_readMapping success).1 each Scalar.shown
  have same : (fields.map fun field => (field.1, id field.2)) = fields :=
    List.map_id fields
  rwa [Restores, same] at kept

end ApiAtlas
