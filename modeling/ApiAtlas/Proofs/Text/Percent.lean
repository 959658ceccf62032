import ApiAtlas.Text.Percent

/-!
# Characters of percent-encoded texts

A percent-encoded text has percent signs and characters that stand for
themselves, and no others: none of those that have a meaning in an address.
-/

namespace ApiAtlas.Text

/-- A character that stands for itself in an address. -/
def IsUnreserved (c : Char) : Prop :=
  c.isAlphanum = true ∨ c = '_' ∨ c = '.' ∨ c = '-' ∨ c = '~'

instance (c : Char) : Decidable (IsUnreserved c) :=
  inferInstanceAs (Decidable (_ ∨ _))

theorem isUnreserved_capitalHexDigit :
    ∀ value < 16, IsUnreserved (capitalHexDigit value) := by
  decide

theorem isUnreserved_of_byte {byte : UInt8} (unreserved : isUnreserved byte = true) :
    IsUnreserved (Char.ofNat byte.toNat) := by
  simp only [isUnreserved, Bool.and_eq_true, Bool.or_eq_true, beq_iff_eq] at unreserved
  rcases unreserved.2 with (((isAlphanum | same) | same) | same) | same
  · exact Or.inl isAlphanum
  · exact Or.inr (Or.inl same)
  · exact Or.inr (Or.inr (Or.inl same))
  · exact Or.inr (Or.inr (Or.inr (Or.inl same)))
  · exact Or.inr (Or.inr (Or.inr (Or.inr same)))

theorem eq_or_isUnreserved_of_mem_percentByte
    {byte : UInt8} {c : Char} (member : c ∈ percentByte byte) :
    c = '%' ∨ IsUnreserved c := by
  have bound : byte.toNat < 256 := byte.toNat_lt_size
  rw [percentByte] at member
  split at member
  · next unreserved =>
    rw [List.mem_singleton.1 member]
    exact Or.inr (isUnreserved_of_byte unreserved)
  · rw [List.mem_cons, List.mem_cons, List.mem_singleton] at member
    rcases member with rfl | rfl | rfl
    · exact Or.inl rfl
    · exact Or.inr (isUnreserved_capitalHexDigit _ (by omega))
    · exact Or.inr (isUnreserved_capitalHexDigit _ (by omega))

/-- No other character stands in a percent-encoded text. -/
theorem eq_or_isUnreserved_of_mem_percentEncode
    {text : String} {c : Char} (member : c ∈ (percentEncode text).toList) :
    c = '%' ∨ IsUnreserved c := by
  rw [percentEncode, String.toList_ofList] at member
  rcases List.mem_flatMap.1 member with ⟨byte, -, within⟩
  exact eq_or_isUnreserved_of_mem_percentByte within

/-- A character that is reserved does not come into a text by encoding. -/
theorem notMem_percentEncode
    {c : Char} (notPercent : c ≠ '%') (reserved : ¬ IsUnreserved c)
    (text : String) :
    c ∉ (percentEncode text).toList := by
  intro member
  exact (eq_or_isUnreserved_of_mem_percentEncode member).elim notPercent reserved

end ApiAtlas.Text
