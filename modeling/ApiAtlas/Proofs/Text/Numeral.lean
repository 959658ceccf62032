import ApiAtlas.Proofs.Outcome
import ApiAtlas.Proofs.Text.Blank
import ApiAtlas.Text.Numeral
import Mathlib.Data.Nat.Digits.Defs

/-!
# Texts that write a whole number

A whole number is written by digits of any script, of which two may have a
single underscore between them, with a sign in front or none and with blanks
around.  `readWhole` reads exactly these writings of at most `digitLimit`
digits, and the decimal form of a number is one of them.
-/

namespace ApiAtlas.Text

/--
Digits of any script in which a single underscore may stand between two digits,
with the values of the digits.
-/
inductive DigitRun : List Char → List Nat → Prop where
  | last {c : Char} {value : Nat} (digit : digitValue? c = some value) :
      DigitRun [c] [value]
  | next {c : Char} {value : Nat} {rest : List Char} {values : List Nat}
      (digit : digitValue? c = some value) (run : DigitRun rest values) :
      DigitRun (c :: rest) (value :: values)
  | joined {c : Char} {value : Nat} {rest : List Char} {values : List Nat}
      (digit : digitValue? c = some value) (run : DigitRun rest values) :
      DigitRun (c :: '_' :: rest) (value :: values)

/-- Digits of at most the number that is read, and the number they stand for. -/
inductive Magnitude (characters : List Char) : Nat → Prop where
  | of {digits : List Nat} (run : DigitRun characters digits)
      (short : digits.length ≤ digitLimit) :
      Magnitude characters (Nat.ofDigits 10 digits.reverse)

/-- Characters that write a whole number, with a sign in front or none. -/
inductive WholeNumeral : List Char → Int → Prop where
  | unsigned {body : List Char} {number : Nat}
      (digits : Magnitude body number) : WholeNumeral body number
  | plus {body : List Char} {number : Nat}
      (digits : Magnitude body number) : WholeNumeral ('+' :: body) number
  | minus {body : List Char} {number : Nat}
      (digits : Magnitude body number) : WholeNumeral ('-' :: body) (-number)

/-- A text that writes a whole number, with blanks around it or none. -/
def WritesWhole (text : String) (number : Int) : Prop :=
  ∃ bare, Pads isNumeralBlank text.toList bare ∧ WholeNumeral bare number

/-! ## Digits of all scripts -/

section Digit

variable {c : Char} {value : Nat}

/-- A digit is a basic one, or it follows the zero of its script. -/
theorem digitValue?_cases (digit : digitValue? c = some value) :
    value < 10 ∧ ∃ start ∈ scriptZeros, c.toNat = start + value := by
  rw [digitValue?] at digit
  split at digit
  · next basic =>
    have same : c.toNat - 48 = value := Option.some.inj digit
    have range : 48 ≤ c.toNat ∧ c.toNat ≤ 57 := by
      simpa [Char.isDigit, UInt32.le_iff_toNat_le] using basic
    exact ⟨by omega, 48, by decide, by omega⟩
  · split at digit
    · cases digit
    · rcases Option.map_eq_some_iff.1 digit with ⟨start, found, same⟩
      have range := List.find?_some found
      rw [decide_eq_true_eq] at range
      exact ⟨by omega, start, List.mem_of_find?_eq_some found, by omega⟩

theorem plainDigit_of_digit (digit : digitValue? c = some value) :
    (plainDigit c).isDigit = true ∧ (plainDigit c).toNat - 48 = value := by
  have each :
      ∀ value < 10, (Char.ofNat (48 + value)).isDigit = true ∧
        (Char.ofNat (48 + value)).toNat - 48 = value := by
    decide
  rw [plainDigit, digit]
  exact each value (digitValue?_cases digit).1

theorem plainDigit_of_no_digit (none : digitValue? c = none) :
    plainDigit c = c := by
  rw [plainDigit, none]

theorem digitValue?_of_isDigit (basic : c.isDigit = true) :
    digitValue? c = some (c.toNat - 48) := by
  rw [digitValue?, if_pos basic]

/-- The basic form of a character is a digit if and only if it is one. -/
theorem isDigit_plainDigit (c : Char) :
    (plainDigit c).isDigit = (digitValue? c).isSome := by
  cases digit : digitValue? c with
  | none =>
    rw [plainDigit_of_no_digit digit, Option.isSome_none,
      Bool.eq_false_iff]
    intro basic
    cases digit.symm.trans (digitValue?_of_isDigit basic)
  | some value => exact (plainDigit_of_digit digit).1

/-- No other character has the basic form of a mark. -/
theorem plainDigit_eq_iff
    {mark : Char} (noDigit : mark.isDigit = false)
    (same : plainDigit mark = mark) :
    plainDigit c = mark ↔ c = mark := by
  constructor
  · intro plain
    cases digit : digitValue? c with
    | none => rwa [plainDigit_of_no_digit digit] at plain
    | some value =>
      rw [← plain, (plainDigit_of_digit digit).1] at noDigit
      cases noDigit
  · rintro rfl
    exact same

theorem plainDigit_eq_underscore_iff : plainDigit c = '_' ↔ c = '_' :=
  plainDigit_eq_iff rfl rfl

/-- No digit of a script is white space. -/
theorem isBlank_of_digit (digit : digitValue? c = some value) :
    isBlank c = false := by
  have each :
      ∀ start ∈ scriptZeros, ∀ value < 10,
        isBlank (Char.ofNat (start + value)) = false := by
    decide +kernel
  rcases digitValue?_cases digit with ⟨below, start, member, same⟩
  rw [← Char.ofNat_toNat c, same]
  exact each start member value below

theorem isNumeralBlank_plainDigit (c : Char) :
    isNumeralBlank (plainDigit c) = isNumeralBlank c := by
  cases digit : digitValue? c with
  | none => rw [plainDigit_of_no_digit digit]
  | some value =>
    have plain := digitValue?_of_isDigit (plainDigit_of_digit digit).1
    rw [isNumeralBlank, isNumeralBlank, isBlank_of_digit plain,
      isBlank_of_digit digit, Bool.false_and, Bool.false_and]

end Digit

/-! ## Runs of digits -/

section Run

variable {characters : List Char} {digits : List Nat}

/-- A run begins with a digit. -/
theorem DigitRun.head (run : DigitRun characters digits) :
    digits ≠ [] ∧
      ∃ c rest value, characters = c :: rest ∧ digitValue? c = some value := by
  cases run with
  | last digit => exact ⟨List.cons_ne_nil _ _, _, _, _, rfl, digit⟩
  | next digit run => exact ⟨List.cons_ne_nil _ _, _, _, _, rfl, digit⟩
  | joined digit run => exact ⟨List.cons_ne_nil _ _, _, _, _, rfl, digit⟩

theorem splitDigits_of_digit
    {c : Char} {value : Nat} (digit : digitValue? c = some value)
    (rest : List Char) :
    splitDigits (plainDigit c :: rest) =
      (splitDigits rest).map fun found => (value :: found.1, found.2) := by
  rcases plainDigit_of_digit digit with ⟨isDigit, same⟩
  have noUnderscore : plainDigit c ≠ '_' := by
    intro underscore
    rw [underscore] at isDigit
    cases isDigit
  rw [splitDigits, if_pos isDigit, same]
  exact noUnderscore

/-- An underscore in front of a run is passed over. -/
theorem splitDigits_underscore (run : DigitRun characters digits) :
    splitDigits ('_' :: characters.map plainDigit) =
      splitDigits (characters.map plainDigit) := by
  rcases run.head with ⟨-, c, rest, value, rfl, digit⟩
  rw [List.map_cons, splitDigits, if_pos (plainDigit_of_digit digit).1]

theorem splitDigits_of_run (run : DigitRun characters digits) :
    splitDigits (characters.map plainDigit) = some (digits, []) := by
  induction run with
  | last digit =>
    rw [List.map_singleton, splitDigits_of_digit digit]
    rfl
  | next digit run ih =>
    rw [List.map_cons, splitDigits_of_digit digit, ih]
    rfl
  | joined digit run ih =>
    have plain : plainDigit '_' = '_' := rfl
    rw [List.map_cons, List.map_cons, splitDigits_of_digit digit, plain,
      splitDigits_underscore run, ih]
    rfl

/-- What is split completely is a run, one behind an underscore, or nothing. -/
theorem run_of_splitDigits
    (split : splitDigits (characters.map plainDigit) = some (digits, [])) :
    characters = [] ∧ digits = [] ∨ DigitRun characters digits ∨
      ∃ rest, characters = '_' :: rest ∧ DigitRun rest digits := by
  induction characters generalizing digits with
  | nil =>
    have same : [] = digits := congrArg Prod.fst (Option.some.inj split)
    exact Or.inl ⟨rfl, same.symm⟩
  | cons c rest ih =>
    rw [List.map_cons] at split
    by_cases underscore : c = '_'
    · subst underscore
      cases rest with
      | nil => cases split
      | cons d others =>
        have plain : plainDigit '_' = '_' := rfl
        rw [plain, List.map_cons, splitDigits] at split
        split at split
        · next isDigit =>
          rw [← List.map_cons] at split
          rcases ih split with ⟨nothing, -⟩ | run | ⟨below, same, -⟩
          · cases nothing
          · exact Or.inr (Or.inr ⟨_, rfl, run⟩)
          · rw [(List.cons.inj same).1] at isDigit
            cases isDigit
        · cases split
    · cases digit : digitValue? c with
      | none =>
        have noDigit : ¬ (plainDigit c).isDigit = true := by
          rw [isDigit_plainDigit, digit]
          decide
        rw [splitDigits, if_neg noDigit] at split
        · cases split
        · exact fun plain => underscore (plainDigit_eq_underscore_iff.1 plain)
      | some value =>
        rw [splitDigits_of_digit digit] at split
        rcases Option.map_eq_some_iff.1 split with
          ⟨⟨values, behind⟩, below, same⟩
        cases same
        rcases ih below with ⟨rfl, rfl⟩ | run | ⟨others, rfl, run⟩
        · exact Or.inr (Or.inl (.last digit))
        · exact Or.inr (Or.inl (.next digit run))
        · exact Or.inr (Or.inl (.joined digit run))

end Run

theorem numberOfDigits_eq_ofDigits (digits : List Nat) :
    numberOfDigits digits = Nat.ofDigits 10 digits.reverse := by
  rw [Nat.ofDigits_eq_foldr, List.foldr_reverse, numberOfDigits]
  congr 1
  funext number digit
  rw [Nat.cast_id]
  omega

/-! ## Reading -/

theorem readMagnitude_eq_ok_iff
    {text : String} {body : List Char} {number : Nat} :
    readMagnitude text (body.map plainDigit) = .ok number ↔
      Magnitude body number := by
  constructor
  · intro success
    rw [readMagnitude] at success
    split at success
    · cases success
    · next noUnderscore =>
      split at success
      · cases success
      · next digits rest split =>
        split at success
        · cases success
        · next short =>
          split at success
          · cases success
          · next complete =>
            rw [Bool.or_eq_true, not_or, List.isEmpty_iff, Bool.not_eq_true',
              Bool.not_eq_false, List.isEmpty_iff] at complete
            rcases complete with ⟨someDigit, rfl⟩
            rcases run_of_splitDigits split with
              ⟨-, none⟩ | run | ⟨behind, rfl, -⟩
            · exact (someDigit none).elim
            · rw [← Except.ok.inj success, numberOfDigits_eq_ofDigits]
              exact .of run (Nat.not_lt.1 short)
            · exact (noUnderscore rfl).elim
  · rintro @⟨digits, run, short⟩
    rcases run.head with ⟨someDigit, c, rest, value, rfl, digit⟩
    have noUnderscore :
        ¬ ((c :: rest).map plainDigit).head? = some '_' := by
      intro first
      have plain : plainDigit c = '_' := Option.some.inj first
      rw [plainDigit_eq_underscore_iff.1 plain] at digit
      cases digit
    have complete : ¬ (digits.isEmpty || !([] : List Char).isEmpty) = true := by
      simpa using someDigit
    rw [readMagnitude, if_neg noUnderscore, splitDigits_of_run run]
    simp only [if_neg (Nat.not_lt.2 short), if_neg complete,
      numberOfDigits_eq_ofDigits]

/-- What is read of a number is its text without blanks, in basic form. -/
theorem numeralCharacters_eq (text : String) :
    numeralCharacters text =
      (trimBy isNumeralBlank text.toList).map plainDigit :=
  trimBy_map isNumeralBlank_plainDigit text.toList

theorem splitSign_map (characters : List Char) :
    splitSign (characters.map plainDigit) =
      ((splitSign characters).1, (splitSign characters).2.map plainDigit) := by
  cases characters with
  | nil => rfl
  | cons c rest =>
    by_cases minus : c = '-'
    · subst minus
      rfl
    · by_cases plus : c = '+'
      · subst plus
        rfl
      · have plainMinus : plainDigit c ≠ '-' :=
          fun same => minus ((plainDigit_eq_iff rfl rfl).1 same)
        have plainPlus : plainDigit c ≠ '+' :=
          fun same => plus ((plainDigit_eq_iff rfl rfl).1 same)
        simp [splitSign, minus, plus, plainMinus, plainPlus]

/-- The digits of a number are what stands behind its sign. -/
theorem wholeNumeral_iff {characters : List Char} {number : Int} :
    WholeNumeral characters number ↔
      ∃ magnitude : Nat, Magnitude (splitSign characters).2 magnitude ∧
        (if (splitSign characters).1 then -(magnitude : Int) else magnitude) =
          number := by
  constructor
  · intro numeral
    cases numeral with
    | unsigned digits =>
      have noSign : splitSign characters = (false, characters) := by
        rcases digits with @⟨values, run, -⟩
        rcases run.head with ⟨-, c, rest, value, rfl, digit⟩
        rw [splitSign]
        · rintro others ⟨⟩
          cases digit
        · rintro others ⟨⟩
          cases digit
      rw [noSign]
      exact ⟨_, digits, rfl⟩
    | plus digits => exact ⟨_, digits, rfl⟩
    | minus digits => exact ⟨_, digits, rfl⟩
  · rintro ⟨magnitude, digits, rfl⟩
    unfold splitSign at digits ⊢
    split at digits
    · exact .minus digits
    · exact .plus digits
    · exact .unsigned digits

/-- A text is read as a whole number if and only if it writes the number. -/
theorem readWhole_eq_ok_iff {text : String} {number : Int} :
    readWhole text = .ok number ↔ WritesWhole text number := by
  have writes :
      WritesWhole text number ↔
        WholeNumeral (trimBy isNumeralBlank text.toList) number := by
    constructor
    · rintro ⟨bare, pads, numeral⟩
      rwa [trimBy_eq_iff.2 pads]
    · intro numeral
      exact ⟨_, pads_trimBy _ _, numeral⟩
  rw [writes, wholeNumeral_iff, readWhole, numeralCharacters_eq, splitSign_map]
  constructor
  · intro success
    rcases exists_of_map_eq_ok success with ⟨magnitude, read, same⟩
    exact ⟨magnitude, readMagnitude_eq_ok_iff.1 read, same⟩
  · rintro ⟨magnitude, digits, rfl⟩
    simp only [readMagnitude_eq_ok_iff.2 digits]
    rfl

/-! ## Decimal forms -/

theorem DigitRun.of_isDigit
    {characters : List Char} (nonempty : characters ≠ [])
    (each : ∀ c ∈ characters, c.isDigit = true) :
    DigitRun characters (characters.map fun c => c.toNat - 48) := by
  induction characters with
  | nil => exact (nonempty rfl).elim
  | cons c rest ih =>
    rw [List.forall_mem_cons] at each
    have digit := digitValue?_of_isDigit each.1
    cases rest with
    | nil => exact .last digit
    | cons d others => exact .next digit (ih (List.cons_ne_nil d others) each.2)

/-- The decimal digits of a number write it. -/
theorem magnitude_toDigits
    {number : Nat} (short : (Nat.toDigits 10 number).length ≤ digitLimit) :
    Magnitude (Nat.toDigits 10 number) number := by
  have run :=
    DigitRun.of_isDigit (Nat.toDigits_ne_nil (n := number) (b := 10))
      fun c member => Nat.isDigit_of_mem_toDigits (by decide) (by decide) member
  have value :
      Nat.ofDigits 10
          ((Nat.toDigits 10 number).map fun c => c.toNat - 48).reverse =
        number := by
    rw [← numberOfDigits_eq_ofDigits, numberOfDigits, List.foldl_map]
    have read := Nat.ofDigitChars_ten_toDigits (n := number)
    rw [Nat.ofDigitChars] at read
    simpa [Nat.mul_comm] using read
  have digits := Magnitude.of run (by rwa [List.length_map])
  rwa [value] at digits

theorem DigitRun.not_blank
    {characters : List Char} {digits : List Nat}
    (run : DigitRun characters digits) :
    ∀ c ∈ characters, isBlank c = false := by
  induction run with
  | last digit => exact List.forall_mem_singleton.2 (isBlank_of_digit digit)
  | next digit run ih =>
    exact List.forall_mem_cons.2 ⟨isBlank_of_digit digit, ih⟩
  | joined digit run ih =>
    exact
      List.forall_mem_cons.2
        ⟨isBlank_of_digit digit, List.forall_mem_cons.2 ⟨by decide, ih⟩⟩

theorem WholeNumeral.not_blank
    {characters : List Char} {number : Int}
    (numeral : WholeNumeral characters number) :
    ∀ c ∈ characters, isBlank c = false := by
  have digits {body : List Char} {magnitude : Nat}
      (of : Magnitude body magnitude) : ∀ c ∈ body, isBlank c = false := by
    rcases of with @⟨values, run, -⟩
    exact run.not_blank
  cases numeral with
  | unsigned of => exact digits of
  | plus of => exact List.forall_mem_cons.2 ⟨by decide, digits of⟩
  | minus of => exact List.forall_mem_cons.2 ⟨by decide, digits of⟩

/-- The decimal form of a number writes it. -/
theorem writesWhole_toString
    {number : Int}
    (short : (Nat.toDigits 10 number.natAbs).length ≤ digitLimit) :
    WritesWhole (toString number) number := by
  have numeral : WholeNumeral (toString number).toList number := by
    cases number with
    | ofNat magnitude =>
      have form :
          (toString (Int.ofNat magnitude)).toList =
            Nat.toDigits 10 magnitude :=
        Nat.toList_repr
      rw [form]
      exact .unsigned (magnitude_toDigits short)
    | negSucc magnitude =>
      have form :
          (toString (Int.negSucc magnitude)).toList =
            '-' :: Nat.toDigits 10 (magnitude + 1) := by
        have form :
            toString (Int.negSucc magnitude) = "-" ++ (magnitude + 1).repr :=
          rfl
        rw [form, String.toList_append, Nat.toList_repr]
        rfl
      rw [form]
      exact .minus (magnitude_toDigits short)
  refine ⟨_, pads_self ?_, numeral⟩
  intro c member
  rw [isNumeralBlank, numeral.not_blank c member, Bool.false_and]

end ApiAtlas.Text
