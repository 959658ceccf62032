import ApiAtlas.Proofs.Data.Places
import ApiAtlas.Proofs.Text.Parts
import ApiAtlas.Table.Column

/-!
# Keys in the names of columns

A column has the keys on the way to its field as its name, with a point between
each two of them.  Where no key is empty or holds a point, the name gives the
keys back, and the cell of a row is what the row holds at the place of the keys.
-/

namespace ApiAtlas.Table

/-! ## Keys with points between them -/

/-- A key that is found again in the name of a column. -/
structure IsPlainKey (key : String) : Prop where
  nonempty : key ≠ ""
  undotted : '.' ∉ key.toList

instance (key : String) : Decidable (IsPlainKey key) :=
  decidable_of_iff (key ≠ "" ∧ '.' ∉ key.toList)
    ⟨fun plain => ⟨plain.1, plain.2⟩, fun plain => ⟨plain.1, plain.2⟩⟩

/-- Keys with a point between each two of them. -/
def dotted (keys : List String) : String := String.intercalate "." keys

section Dotted

variable {keys : List String}

theorem parts_dotted
    (nonempty : keys ≠ []) (plain : ∀ key ∈ keys, IsPlainKey key) :
    Text.parts '.' (dotted keys) = keys :=
  Text.parts_intercalate (by decide) nonempty fun key member =>
    (plain key member).undotted

/-- The name of a column gives back the keys. -/
theorem dotted_inj
    {others : List String} (nonempty : keys ≠ [])
    (plain : ∀ key ∈ keys, IsPlainKey key) (otherNonempty : others ≠ [])
    (otherPlain : ∀ key ∈ others, IsPlainKey key) :
    dotted keys = dotted others ↔ keys = others := by
  constructor
  · intro same
    rw [← parts_dotted nonempty plain, same,
      parts_dotted otherNonempty otherPlain]
  · exact congrArg dotted

theorem dotted_ne_empty
    (nonempty : keys ≠ []) (plain : ∀ key ∈ keys, IsPlainKey key) :
    dotted keys ≠ "" := by
  intro isEmpty
  have parts := parts_dotted nonempty plain
  rw [isEmpty] at parts
  have member : "" ∈ keys := parts ▸ List.mem_singleton_self ""
  exact (plain "" member).nonempty rfl

/-- The path of a key is that of the keys before it with the key at its end. -/
theorem joinKey_dotted
    (plain : ∀ key ∈ keys, IsPlainKey key) (key : String) :
    joinKey (dotted keys) key = dotted (keys ++ [key]) := by
  rw [joinKey]
  split
  · next isEmpty =>
    have none : keys = [] := by
      by_contra nonempty
      exact dotted_ne_empty nonempty plain isEmpty
    rw [none, List.nil_append, dotted, String.intercalate_singleton]
  · next nonempty =>
    have some : keys ≠ [] := by
      rintro rfl
      exact nonempty rfl
    rw [dotted, dotted,
      String.intercalate_append_of_ne_nil some (List.cons_ne_nil key []),
      String.intercalate_singleton]

end Dotted

/-! ## Cells -/

/-- The value at a key of what stands at a place. -/
theorem foldl_valueAt (keys : List String) (row : Datum) :
    keys.foldl (fun value key => valueAt key value) row =
      (Datum.valueAt (keys.map .str) row).getD .null := by
  induction keys generalizing row with
  | nil => rfl
  | cons key rest ih =>
    rw [List.foldl_cons, ih, List.map_cons]
    have missing : (Datum.valueAt (rest.map .str) .null).getD .null = .null := by
      cases rest <;> rfl
    cases row with
    | map entries =>
      rw [Datum.valueAt_cons, valueAt, Datum.field?]
      cases Entries.get? (.str key) entries with
      | none => exact missing
      | some value => rfl
    | _ => exact missing

/-- The cell of a column is what the row holds at the place of its keys. -/
theorem cell_dotted
    {keys : List String} (nonempty : keys ≠ [])
    (plain : ∀ key ∈ keys, IsPlainKey key) (row : Datum) :
    cell row (dotted keys) =
      (Datum.valueAt (keys.map .str) row).getD .null := by
  rw [cell, parts_dotted nonempty plain, foldl_valueAt]

end ApiAtlas.Table
