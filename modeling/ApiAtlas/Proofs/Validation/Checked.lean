import ApiAtlas.Endpoint.Model
import ApiAtlas.Proofs.Data.Clear
import ApiAtlas.Proofs.Data.Named
import ApiAtlas.Proofs.Outcome

/-!
# Checks that find no issue

Joined checks pass if both of them do, and where a check stands makes no
difference to whether it passes.  An object whose keys are clear is read as
itself: every key is a text, and no two of them give the same one.
-/

namespace ApiAtlas

namespace Checked

variable {α β : Type}

theorem both_eq_ok_iff
    {one : Checked α} {other : Checked β} {pair : α × β} :
    both one other = .ok pair ↔ one = .ok pair.1 ∧ other = .ok pair.2 := by
  rcases pair with ⟨first, second⟩
  cases one <;> cases other <;> simp [both]

theorem inside_eq_ok_iff {step : PathStep} {check : Checked α} {value : α} :
    inside step check = .ok value ↔ check = .ok value := by
  cases check <;> simp [inside, Except.mapError]

theorem outcome_eq_ok_iff {check : Checked α} {value : α} :
    check.outcome = .ok value ↔ check = .ok value := by
  cases check <;> simp [outcome, Except.mapError]

/-- A text is read as itself, and so are the bytes of one. -/
theorem eq_str_of_readText
    {key : Scalar} {text : String} (noBytes : ∀ content, key ≠ .bytes content)
    (success : readText (.scalar key) = .ok text) : key = .str text := by
  cases key with
  | str other =>
    cases success
    rfl
  | bytes content => exact (noBytes content rfl).elim
  | _ => cases success

/-- The entries of a map are read one by one, in order. -/
theorem forall₂_of_readEntries
    {shown : Scalar → String} {read : Datum → Checked α} {entries : Entries}
    {fields : Named α} (success : readEntries shown read entries = .ok fields) :
    List.Forall₂
      (fun entry field =>
        readText (.scalar entry.1) = .ok field.1 ∧
          read entry.2 = .ok field.2)
      entries fields := by
  induction entries generalizing fields with
  | nil =>
    cases success
    exact .nil
  | cons entry rest ih =>
    rw [readEntries] at success
    rcases exists_of_map_eq_ok success with ⟨pair, both, rfl⟩
    rw [both_eq_ok_iff, both_eq_ok_iff] at both
    rcases both with ⟨⟨key, value⟩, behind⟩
    rw [readKey, inside_eq_ok_iff, inside_eq_ok_iff] at key
    rw [inside_eq_ok_iff] at value
    exact .cons ⟨key, value⟩ (ih behind)

end Checked

/-- Entries without keys given as bytes are read as themselves. -/
theorem toEntries_of_readEntries
    {shown : Scalar → String} {entries : Entries} {fields : Fields}
    (noBytes : ∀ entry ∈ entries, ∀ content, entry.1 ≠ .bytes content)
    (success :
      Checked.readEntries shown Checked.readAny entries = .ok fields) :
    Fields.toEntries fields = entries := by
  have each := Checked.forall₂_of_readEntries success
  clear success
  induction each with
  | nil => rfl
  | @cons entry field _ _ here _ ih =>
    rcases entry with ⟨key, value⟩
    rcases field with ⟨name, same⟩
    rw [List.forall_mem_cons] at noBytes
    rcases here with ⟨named, kept⟩
    cases Checked.eq_str_of_readText noBytes.1 named
    cases kept
    exact congrArg ((Scalar.str name, value) :: ·) (ih noBytes.2)

/-- An object whose keys are clear is read as itself. -/
theorem toEntries_of_readObject
    {entries : Entries} {fields : Fields} (clear : entries.HasClearKeys)
    (success : readObject (.map entries) = .ok fields) :
    Fields.toEntries fields = entries := by
  rw [readObject, Checked.readMapping] at success
  rcases exists_of_map_eq_ok success with ⟨listed, read, rfl⟩
  have same : Fields.toEntries listed = entries :=
    toEntries_of_readEntries clear.noBytes read
  have different : (listed.map Prod.fst).Nodup := by
    have apart := clear.apart
    rw [← same, Fields.toEntries, List.pairwise_map] at apart
    rw [List.Nodup, List.pairwise_map]
    refine apart.imp ?_
    intro one other apart equal
    exact apart (Scalar.same_str_iff.2 (congrArg Scalar.str equal))
  rw [Named.putAll_of_nodup different]
  exact same

end ApiAtlas
