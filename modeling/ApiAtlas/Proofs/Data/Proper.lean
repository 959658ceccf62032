import ApiAtlas.Proofs.Data.Entries

/-!
# Values without repeated keys

A map of a document holds every key once.  Entries are a list, which may hold
more; the values of documents are those in which no map does.
-/

namespace ApiAtlas

/-- A value in which no map holds a key twice. -/
inductive Datum.IsProper : Datum → Prop where
  | scalar (value : Scalar) : IsProper (.scalar value)
  | list {items : List Datum} (each : ∀ item ∈ items, IsProper item) :
      IsProper (.list items)
  | set (members : List Scalar) : IsProper (.set members)
  | map {entries : Entries}
      (apart :
        List.Pairwise (fun one other => ¬ one.1.same other.1 = true) entries)
      (each : ∀ entry ∈ entries, IsProper entry.2) :
      IsProper (.map entries)
  | endless : IsProper .endless

/-- Different names make different keys. -/
theorem Fields.apart_toEntries
    {fields : Fields} (apart : (fields.map Prod.fst).Nodup) :
    List.Pairwise (fun one other => ¬ one.1.same other.1 = true)
      (toEntries fields) := by
  rw [toEntries, List.pairwise_map]
  refine (List.pairwise_map.1 apart).imp ?_
  intro one other different same
  exact different (Scalar.str.inj (Scalar.same_str_iff.1 same))

namespace Datum.IsProper

variable {entries : Entries} {key : Scalar} {value : Datum}

theorem empty : IsProper (.map []) :=
  .map List.Pairwise.nil (List.forall_mem_nil _)

theorem object
    {fields : Fields} (apart : (fields.map Prod.fst).Nodup)
    (each : ∀ field ∈ fields, field.2.IsProper) :
    IsProper (.object fields) := by
  refine .map (Fields.apart_toEntries apart) ?_
  rw [Fields.toEntries, List.forall_mem_map]
  exact each

theorem of_get?
    (proper : IsProper (.map entries))
    (found : Entries.get? key entries = some value) : value.IsProper := by
  cases proper with
  | map _ each =>
    rcases Entries.exists_mem_of_get? found with ⟨entry, present, rfl⟩
    exact each entry present

theorem of_mem_list
    {items : List Datum} (proper : IsProper (.list items)) {item : Datum}
    (member : item ∈ items) : item.IsProper := by
  cases proper with
  | list each => exact each item member

end Datum.IsProper

theorem Entries.mem_put
    {entry : Scalar × Datum} {key : Scalar} {value : Datum} {entries : Entries}
    (member : entry ∈ put key value entries) :
    entry ∈ entries ∨
      entry.2 = value ∧
        (entry.1 = key ∨ ∃ other ∈ entries, other.1 = entry.1) := by
  induction entries with
  | nil =>
    rw [put, List.mem_singleton] at member
    exact Or.inr ⟨congrArg Prod.snd member, Or.inl (congrArg Prod.fst member)⟩
  | cons first rest ih =>
    rw [put] at member
    split at member
    · rcases List.mem_cons.1 member with rfl | behind
      · exact Or.inr ⟨rfl, Or.inr ⟨first, List.mem_cons_self, rfl⟩⟩
      · exact Or.inl (List.mem_cons_of_mem _ behind)
    · rcases List.mem_cons.1 member with rfl | behind
      · exact Or.inl List.mem_cons_self
      · rcases ih behind with old | ⟨new, known | ⟨other, present, known⟩⟩
        · exact Or.inl (List.mem_cons_of_mem _ old)
        · exact Or.inr ⟨new, Or.inl known⟩
        · exact
            Or.inr ⟨new, Or.inr ⟨other, List.mem_cons_of_mem _ present, known⟩⟩

/-- Putting a value under a key keeps the keys apart. -/
theorem Entries.apart_put
    {entries : Entries}
    (apart :
      List.Pairwise (fun one other => ¬ one.1.same other.1 = true) entries)
    (key : Scalar) (value : Datum) :
    List.Pairwise (fun one other => ¬ one.1.same other.1 = true)
      (put key value entries) := by
  induction entries with
  | nil => exact List.pairwise_singleton _ _
  | cons first rest ih =>
    rw [List.pairwise_cons] at apart
    rw [put]
    split
    · exact List.pairwise_cons.2 ⟨apart.1, apart.2⟩
    · next other =>
      refine List.pairwise_cons.2 ⟨?_, ih apart.2⟩
      intro entry member
      rcases mem_put member with
        old | ⟨-, rfl | ⟨present, within, known⟩⟩
      · exact apart.1 entry old
      · exact other
      · rw [← known]
        exact apart.1 present within

/-- A map to which a proper value is put stays proper. -/
theorem Datum.IsProper.put
    {entries : Entries} {key : Scalar} {value : Datum}
    (proper : IsProper (.map entries)) (inner : value.IsProper) :
    IsProper (.map (Entries.put key value entries)) := by
  cases proper with
  | map apart each =>
    refine .map (Entries.apart_put apart key value) ?_
    intro entry member
    rcases Entries.mem_put member with old | ⟨same, -⟩
    · exact each entry old
    · rw [same]
      exact inner

end ApiAtlas
