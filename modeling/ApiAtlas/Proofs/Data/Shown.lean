import ApiAtlas.Data.Shown

/-!
# Scalars that are written as a number

The bare form of a scalar is a run of decimal digits only for a whole number
that is not negative and for the text of such a number.  Every other kind is
written with a mark: a point or an exponent, a dash, a quote or a letter.
-/

namespace ApiAtlas

/-- A text with a character that is no decimal digit. -/
def Text.HasMark (text : String) : Prop :=
  ∃ c ∈ text.toList, c.isDigit = false

namespace Text.HasMark

variable {one : String}

theorem append_right (marked : HasMark one) (other : String) :
    HasMark (one ++ other) := by
  rcases marked with ⟨c, member, mark⟩
  refine ⟨c, ?_, mark⟩
  rw [String.toList_append]
  exact List.mem_append_left _ member

theorem append_left (marked : HasMark one) (other : String) :
    HasMark (other ++ one) := by
  rcases marked with ⟨c, member, mark⟩
  refine ⟨c, ?_, mark⟩
  rw [String.toList_append]
  exact List.mem_append_right _ member

/-- The digits of a number have no mark. -/
theorem ne_toString (marked : HasMark one) (number : Nat) :
    one ≠ toString number := by
  rintro rfl
  rcases marked with ⟨c, member, mark⟩
  rw [Nat.toString_eq_repr, Nat.toList_repr] at member
  rw [Nat.isDigit_of_mem_toDigits (by decide) (by decide) member] at mark
  cases mark

end Text.HasMark

open Text (HasMark)

/-! ## Numbers -/

/-- A number can be read off its digits. -/
theorem toDigits_inj {one other : Nat} :
    Nat.toDigits 10 one = Nat.toDigits 10 other ↔ one = other := by
  constructor
  · intro same
    have numbers := congrArg (fun written => Nat.ofDigitChars 10 written 0) same
    simpa only [Nat.ofDigitChars_ten_toDigits] using numbers
  · rintro rfl
    rfl

theorem toString_nat_inj {one other : Nat} :
    toString one = toString other ↔ one = other := by
  rw [← String.toList_inj, Nat.toString_eq_repr, Nat.toString_eq_repr,
    Nat.toList_repr, Nat.toList_repr, toDigits_inj]

theorem toString_int_eq_iff {value : Int} {number : Nat} :
    toString value = toString number ↔ value = number := by
  cases value with
  | ofNat own =>
    have same : toString (Int.ofNat own) = toString own := rfl
    rw [same, toString_nat_inj]
    exact Int.ofNat_inj.symm
  | negSucc own =>
    have dash : HasMark "-" := ⟨'-', by decide, by decide⟩
    constructor
    · intro same
      exact
        (Text.HasMark.ne_toString (dash.append_right (own + 1).repr) number
          same).elim
    · intro same
      cases same

/-- Digits with a decimal point or an exponent have a mark. -/
theorem Binary64.exists_mark_pointedDigits (digits : List Char) (point : Int) :
    ∃ c ∈ pointedDigits digits point, c.isDigit = false := by
  rw [pointedDigits]
  split
  · refine ⟨'e', ?_, rfl⟩
    exact List.mem_append_right _ List.mem_cons_self
  · refine ⟨'.', ?_, rfl⟩
    split
    · exact
        List.mem_append_left _
          (List.mem_append_left _ (List.mem_cons_of_mem _ List.mem_cons_self))
    · split
      · exact List.mem_append_right _ List.mem_cons_self
      · exact List.mem_append_right _ List.mem_cons_self

theorem Binary64.hasMark_text (number : Binary64) : HasMark number.text := by
  cases number with
  | notANumber => exact ⟨'n', by decide, rfl⟩
  | infinite negative => cases negative <;> exact ⟨'i', by decide, rfl⟩
  | finite negative significand exponent =>
    have body :
        ∃ c ∈
            (if significand = 0 then ['0', '.', '0']
            else
              let shortest := Shortest.decimal significand exponent
              let digits := Nat.toDigits 10 shortest.digits
              pointedDigits digits (digits.length + shortest.exponent)),
          c.isDigit = false := by
      split
      · exact ⟨'.', by decide, rfl⟩
      · exact exists_mark_pointedDigits _ _
    rcases body with ⟨c, member, mark⟩
    refine ⟨c, ?_, mark⟩
    rw [text, render, String.toList_ofList]
    cases negative with
    | false => exact member
    | true => exact List.mem_cons_of_mem _ member

/-! ## Days and moments -/

theorem CalendarDay.hasMark_text (day : CalendarDay) : HasMark day.text := by
  have dash : HasMark "-" := ⟨'-', by decide, rfl⟩
  exact (dash.append_left _).append_right _

theorem Moment.hasMark_text (moment : Moment) : HasMark (moment.text " ") := by
  rw [text]
  iterate 8 apply HasMark.append_right
  exact moment.date.hasMark_text

/-! ## Scalars -/

/-- The bare form of a scalar is a number only for the number and for its text. -/
theorem Scalar.plain_eq_toString_iff {value : Scalar} {number : Nat} :
    value.plain = toString number ↔
      value = .int number ∨ value = .str (toString number) := by
  have other
      (marked : HasMark value.plain)
      (noInt : ∀ own, value ≠ .int own) (noText : ∀ own, value ≠ .str own) :
      value.plain = toString number ↔
        value = .int number ∨ value = .str (toString number) := by
    constructor
    · intro same
      exact (marked.ne_toString number same).elim
    · rintro (isInt | isText)
      · exact (noInt _ isInt).elim
      · exact (noText _ isText).elim
  cases value with
  | null => exact other ⟨'N', by decide, rfl⟩ (by simp) (by simp)
  | bool own =>
    refine other ?_ (by simp) (by simp)
    cases own
    · exact ⟨'F', by decide, rfl⟩
    · exact ⟨'T', by decide, rfl⟩
  | int own =>
    change toString own = toString number ↔ _
    rw [toString_int_eq_iff]
    simp
  | float own => exact other own.hasMark_text (by simp) (by simp)
  | str own =>
    change own = toString number ↔ _
    simp
  | bytes content =>
    refine other ⟨'b', ?_, rfl⟩ (by simp) (by simp)
    change 'b' ∈ (Text.quotedBytes content).toList
    rw [Text.quotedBytes, String.toList_ofList]
    exact List.mem_cons_self
  | date day => exact other day.hasMark_text (by simp) (by simp)
  | moment instant => exact other instant.hasMark_text (by simp) (by simp)

end ApiAtlas
