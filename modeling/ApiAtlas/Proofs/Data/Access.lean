import ApiAtlas.Data.Access

/-!
# Access that succeeds

A value that is asked for a part answers only if it is of the right kind.  So
an answer says what the value is.
-/

namespace ApiAtlas.Datum

variable {value : Datum} {name : String}

/-- Only a map can be asked for a member. -/
theorem exists_of_member?
    {found : Option Datum} (success : value.member? name = .ok found) :
    ∃ entries : Entries,
      value = .map entries ∧ Entries.get? (.str name) entries = found := by
  cases value with
  | map entries => exact ⟨entries, rfl, Except.ok.inj success⟩
  | _ => cases success

theorem eq_map_of_entries
    {entries : Entries} (success : value.entries = .ok entries) :
    value = .map entries := by
  cases value with
  | map own => rw [Except.ok.inj success]
  | _ => cases success

/-- The entries of a map; other values have none. -/
def members : Datum → Entries
  | .map entries => entries
  | _ => []

/-- A value that is a map or counts as absent has the entries that it is asked for. -/
theorem members_of_orEmptyMap
    {entries : Entries} (found : value.orEmptyMap.entries = .ok entries) :
    value.members = entries := by
  rw [orEmptyMap] at found
  split at found
  · rw [eq_map_of_entries found, members]
  · next absent =>
    cases found
    cases value with
    | map entries =>
      cases entries with
      | nil => rfl
      | cons entry rest => exact (absent rfl).elim
    | _ => rfl

/-- A container that answers holds a value only if it is a map. -/
theorem field?_of_held?
    {found : Option Datum} (success : value.held? name = .ok found) :
    value.field? name = found := by
  have absent {misused : Bool}
      (success :
        (if misused then ApiAtlas.misused .unsupported else .ok none) =
          Except.ok found) :
      none = found := by
    split at success
    · cases success
    · exact Except.ok.inj success
  cases value with
  | map entries => exact Except.ok.inj success
  | list items => exact absent success
  | set members => exact absent success
  | endless => exact Except.ok.inj success
  | scalar value =>
    cases value with
    | str text => exact absent success
    | _ => cases success

theorem eq_scalar_of_key
    {key : Scalar} (found : value.key = .ok key) :
    value = .scalar key := by
  cases value with
  | scalar own => rw [Except.ok.inj found]
  | _ => cases found

theorem eq_str_of_text? (found : value.text? = some name) :
    value = .str name := by
  cases value with
  | scalar value =>
    cases value with
    | str text => rw [Option.some.inj found]
    | _ => cases found
  | _ => cases found

theorem eq_str_of_isText (isText : value.isText name = true) :
    value = .str name := by
  cases value with
  | scalar value =>
    cases value with
    | str text => rw [beq_iff_eq.1 isText]
    | _ => cases isText
  | _ => cases isText

end ApiAtlas.Datum
