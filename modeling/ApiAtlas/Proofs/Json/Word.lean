import ApiAtlas.Json.Reader
import Mathlib.Data.Bool.AllAny
import Mathlib.Data.List.Basic

/-!
# Words and numbers as they are written

What stands at the front of a text and is neither a text in quotes nor in
brackets is a word or a number.  The reader takes as much of a number as there
is: so a number is read back if and only if nothing behind it continues it,
and all that the reader takes is a word or a number.
-/

namespace ApiAtlas.Json

/-- Basic digits, one or more. -/
structure Digits where
  characters : List Char
  nonempty : characters ≠ []
  each : ∀ c ∈ characters, c.isDigit = true

/-- The exponent of a number. -/
structure Exponent where
  /-- Whether its letter is a capital one. -/
  isCapital : Bool
  /-- Its sign, if it has one; true for the minus sign. -/
  sign : Option Bool
  digits : Digits

/-- A number, whose whole part has no leading zero. -/
structure Numeral where
  isNegative : Bool
  whole : Digits
  fraction : Option Digits
  exponent : Option Exponent
  leading : whole.characters.head? = some '0' → whole.characters = ['0']
  /-- A whole number is not longer than those that are read. -/
  short :
    fraction = none → exponent = none →
      whole.characters.length ≤ Text.digitLimit

/-- A word or a number. -/
inductive Word where
  | null
  | bool (value : Bool)
  | notANumber
  | infinity (isNegative : Bool)
  | number (numeral : Numeral)

/-- What stands for the sign of a number. -/
def minus (isNegative : Bool) : List Char := if isNegative then ['-'] else []

namespace Exponent

/-- The sign of an exponent as it is written. -/
def signCharacters (exponent : Exponent) : List Char :=
  match exponent.sign with
  | none => []
  | some isNegative => if isNegative then ['-'] else ['+']

/-- The letter of an exponent. -/
def mark (exponent : Exponent) : Char :=
  if exponent.isCapital then 'E' else 'e'

theorem mark_eq (exponent : Exponent) :
    exponent.mark = 'e' ∨ exponent.mark = 'E' := by
  rw [mark]
  cases exponent.isCapital
  · exact Or.inl rfl
  · exact Or.inr rfl

/-- An exponent as it is written. -/
def characters (exponent : Exponent) : List Char :=
  exponent.mark :: (exponent.signCharacters ++ exponent.digits.characters)

end Exponent

/-- The values of digits. -/
def digitValues (digits : List Char) : List Nat :=
  digits.map fun c => c.toNat - 48

/-- The number that an exponent stands for. -/
def Exponent.value (exponent : Exponent) : Int :=
  let magnitude : Int :=
    Text.numberOfDigits (digitValues exponent.digits.characters)
  if exponent.sign = some true then -magnitude else magnitude

namespace Numeral

variable (numeral : Numeral)

/-- The digits behind the point. -/
def fractionDigits : List Char :=
  (numeral.fraction.map Digits.characters).getD []

/-- The point and the digits behind it. -/
def fractionCharacters : List Char :=
  (numeral.fraction.map fun digits => '.' :: digits.characters).getD []

/-- The exponent as it is written, if there is one. -/
def exponentCharacters : List Char :=
  (numeral.exponent.map Exponent.characters).getD []

/-- A number as it is written, without its sign. -/
def unsignedCharacters : List Char :=
  numeral.whole.characters ++
    (numeral.fractionCharacters ++ numeral.exponentCharacters)

/-- A number as it is written. -/
def characters : List Char :=
  minus numeral.isNegative ++ numeral.unsignedCharacters

/-- Whether a number has neither a fraction nor an exponent. -/
def isWhole : Bool := numeral.fraction.isNone && numeral.exponent.isNone

/-- The number that all the digits stand for. -/
def magnitude : Nat :=
  Text.numberOfDigits
    (digitValues (numeral.whole.characters ++ numeral.fractionDigits))

/-- The power of ten that the last digit counts. -/
def scale : Int :=
  ((numeral.exponent.map Exponent.value).getD 0 : Int) -
    numeral.fractionDigits.length

/-- The number that is written. -/
def scalar : Scalar :=
  if numeral.isWhole then
    .int (if numeral.isNegative then -numeral.magnitude else numeral.magnitude)
  else
    .float
      (Binary64.ofDecimal numeral.isNegative numeral.magnitude numeral.scale)

end Numeral

namespace Word

/-- A word or a number as it is written. -/
def characters : Word → List Char
  | null => "null".toList
  | bool true => "true".toList
  | bool false => "false".toList
  | notANumber => "NaN".toList
  | infinity isNegative => minus isNegative ++ "Infinity".toList
  | number numeral => numeral.characters

/-- What a word or a number stands for. -/
def scalar : Word → Scalar
  | null => .null
  | bool value => .bool value
  | notANumber => .float .notANumber
  | infinity isNegative => .float (.infinite isNegative)
  | number numeral => numeral.scalar

end Word

/-- Whether a character behind a number would belong to it. -/
def continuesNumber (c : Char) : Bool :=
  c.isDigit || c == '.' || c == 'e' || c == 'E'

/-- Whether nothing at the front of a text continues a number before it. -/
def EndsNumber (rest : List Char) : Prop :=
  ∀ c, rest.head? = some c → continuesNumber c = false

variable {rest : List Char}

/-! ## Parts of numbers -/

theorem EndsNumber.not_isDigit
    (ends : EndsNumber rest) (c : Char) (first : rest.head? = some c) :
    c.isDigit = false := by
  have stops := ends c first
  simp only [continuesNumber, Bool.or_eq_false_iff] at stops
  exact stops.1.1.1

theorem splitDigits_append
    {digits : List Char} (each : ∀ c ∈ digits, c.isDigit = true)
    (stops : ∀ c, rest.head? = some c → c.isDigit = false) :
    splitDigits (digits ++ rest) = (digits, rest) := by
  have none : rest.takeWhile Char.isDigit = [] ∧
      rest.dropWhile Char.isDigit = rest := by
    cases rest with
    | nil => exact ⟨rfl, rfl⟩
    | cons c behind =>
      have stop := stops c rfl
      simp [stop]
  rw [splitDigits, List.takeWhile_append_of_pos each,
    List.dropWhile_append_of_pos each, none.1, none.2, List.append_nil]

/-- Digits are split off in front of what is no digit. -/
theorem splitDigits_spec (characters : List Char) :
    characters =
        (splitDigits characters).1 ++ (splitDigits characters).2 ∧
      ∀ c ∈ (splitDigits characters).1, c.isDigit = true :=
  ⟨List.takeWhile_append_dropWhile.symm,
    List.all_eq_true.1 (List.all_takeWhile (p := Char.isDigit))⟩

/-- The digits at the front of a text that begins with one. -/
theorem exists_digits_of_splitDigits
    {c : Char} (digit : c.isDigit = true) (behind : List Char) :
    ∃ digits : Digits,
      splitDigits (c :: behind) =
          (digits.characters, (splitDigits (c :: behind)).2) ∧
        c :: behind =
          digits.characters ++ (splitDigits (c :: behind)).2 ∧
        digits.characters.head? = some c := by
  rcases splitDigits_spec (c :: behind) with ⟨parts, each⟩
  have first : (splitDigits (c :: behind)).1 ≠ [] := by
    simp [splitDigits, digit]
  refine ⟨⟨_, first, each⟩, rfl, parts, ?_⟩
  simp [splitDigits, digit]

/-- What is read as the whole part of a number has no leading zero. -/
theorem exists_digits_of_wholePart?
    {characters : List Char} {found : List Char × List Char}
    (success : wholePart? characters = some found) :
    ∃ digits : Digits,
      digits.characters = found.1 ∧
        (digits.characters.head? = some '0' → digits.characters = ['0']) ∧
        characters = found.1 ++ found.2 := by
  rw [wholePart?.eq_def] at success
  split at success
  · cases success
    exact
      ⟨⟨['0'], List.cons_ne_nil _ _, List.all_eq_true.1 (by decide)⟩, rfl,
        fun _ => rfl, rfl⟩
  · next c behind noZero =>
    split at success
    · next digit =>
      cases success
      rcases exists_digits_of_splitDigits digit behind with
        ⟨digits, split, parts, first⟩
      refine ⟨digits, (congrArg Prod.fst split).symm, ?_, ?_⟩
      · intro zero
        cases first.symm.trans zero
        exact (noZero rfl).elim
      · rw [split]
        exact parts
    · cases success
  · cases success

theorem wholePart?_append
    {digits : Digits}
    (leading :
      digits.characters.head? = some '0' → digits.characters = ['0'])
    (stops : ∀ c, rest.head? = some c → c.isDigit = false) :
    wholePart? (digits.characters ++ rest) =
      some (digits.characters, rest) := by
  rcases digits with ⟨characters, nonempty, each⟩
  dsimp only at leading ⊢
  cases characters with
  | nil => exact (nonempty rfl).elim
  | cons c others =>
    by_cases zero : c = '0'
    · subst zero
      cases leading rfl
      rfl
    · rw [List.cons_append, wholePart?, if_pos (each c List.mem_cons_self),
        ← List.cons_append, splitDigits_append each stops]
      rintro rfl
      exact zero rfl

/-- A fraction is read as the digits behind a point. -/
theorem exists_digits_of_fractionPart (characters : List Char) :
    ∃ fraction : Option Digits,
      (fractionPart characters).1 =
          (fraction.map Digits.characters).getD [] ∧
        characters =
          (fraction.map fun digits => '.' :: digits.characters).getD [] ++
            (fractionPart characters).2 := by
  rw [fractionPart.eq_def]
  split
  · next c behind =>
    split
    · next digit =>
      rcases exists_digits_of_splitDigits digit behind with
        ⟨digits, split, parts, -⟩
      refine ⟨some digits, congrArg Prod.fst split, ?_⟩
      rw [Option.map_some, Option.getD_some, List.cons_append, ← parts]
    · exact ⟨none, rfl, rfl⟩
  · exact ⟨none, rfl, rfl⟩

theorem fractionPart_append
    (fraction : Option Digits)
    (stops : ∀ c, rest.head? = some c → c.isDigit = false ∧ c ≠ '.') :
    fractionPart
        ((fraction.map fun digits => '.' :: digits.characters).getD [] ++
          rest) =
      ((fraction.map Digits.characters).getD [], rest) := by
  cases fraction with
  | none =>
    rw [fractionPart.eq_def]
    split
    · next same => exact ((stops '.' (congrArg List.head? same)).2 rfl).elim
    · rfl
  | some digits =>
    rcases digits with ⟨characters, nonempty, each⟩
    have split :=
      splitDigits_append each fun c first => (stops c first).1
    cases characters with
    | nil => exact (nonempty rfl).elim
    | cons c others =>
      rw [Option.map_some, Option.getD_some, List.cons_append,
        List.cons_append, fractionPart, if_pos (each c List.mem_cons_self)]
      exact split

/-- What stands in front of the digits of an exponent is its sign. -/
theorem exists_sign_of_splitSign (characters : List Char) :
    ∃ sign : Option Bool,
      (Text.splitSign characters).1 = (sign == some true) ∧
        characters =
          (match sign with
            | none => []
            | some isNegative => if isNegative then ['-'] else ['+']) ++
            (Text.splitSign characters).2 := by
  unfold Text.splitSign
  split
  · exact ⟨some true, rfl, rfl⟩
  · exact ⟨some false, rfl, rfl⟩
  · exact ⟨none, rfl, rfl⟩

/-- An exponent is read as a letter, a sign if there is one, and digits. -/
theorem exists_exponent_of_exponentPart (characters : List Char) :
    ∃ exponent : Option Exponent,
      (exponentPart characters).1 = exponent.map Exponent.value ∧
        characters =
          (exponent.map Exponent.characters).getD [] ++
            (exponentPart characters).2 := by
  rw [exponentPart.eq_def]
  split
  · next mark behind =>
    split
    · next isMark =>
      dsimp only
      split
      · exact ⟨none, rfl, rfl⟩
      · next someDigit =>
        rcases exists_sign_of_splitSign behind with ⟨sign, isNegative, parts⟩
        rcases splitDigits_spec (Text.splitSign behind).2 with ⟨digits, each⟩
        let exponent : Exponent :=
          ⟨mark == 'E', sign,
            ⟨_, fun none => someDigit (List.isEmpty_iff.2 none), each⟩⟩
        refine ⟨some exponent, ?_, ?_⟩
        · rw [isNegative]
          simp [exponent, Exponent.value, digitValues]
        · have letter : exponent.mark = mark := by
            rcases isMark with rfl | rfl <;> rfl
          rw [Option.map_some, Option.getD_some, Exponent.characters, letter,
            List.cons_append, List.append_assoc, ← digits]
          exact congrArg _ parts
    · exact ⟨none, rfl, rfl⟩
  · exact ⟨none, rfl, rfl⟩

/-- The sign of an exponent is split off its digits. -/
theorem splitSign_exponent (exponent : Exponent) (rest : List Char) :
    Text.splitSign
        (exponent.signCharacters ++ (exponent.digits.characters ++ rest)) =
      (exponent.sign == some true, exponent.digits.characters ++ rest) := by
  rcases exponent with ⟨isCapital, sign, characters, nonempty, each⟩
  rcases sign with - | - | -
  · cases characters with
    | nil => exact (nonempty rfl).elim
    | cons c others =>
      have digit := each c List.mem_cons_self
      rw [Exponent.signCharacters, Text.splitSign.eq_def]
      split
      · next same =>
        cases same
        cases digit
      · next same =>
        cases same
        cases digit
      · rfl
  · rfl
  · rfl

theorem exponentPart_append
    (exponent : Option Exponent) (ends : EndsNumber rest) :
    exponentPart ((exponent.map Exponent.characters).getD [] ++ rest) =
      (exponent.map Exponent.value, rest) := by
  cases exponent with
  | none =>
    rw [exponentPart.eq_def]
    split
    · next mark behind same =>
      have stops := ends mark (congrArg List.head? same)
      simp only [continuesNumber, Bool.or_eq_false_iff, beq_eq_false_iff_ne]
        at stops
      rw [if_neg (not_or.2 ⟨stops.1.2, stops.2⟩)]
      rfl
    · next same =>
      have nothing : rest = [] := same
      rw [nothing]
      rfl
  | some exponent =>
    have split := splitDigits_append exponent.digits.each ends.not_isDigit
    have sign := splitSign_exponent exponent rest
    have someDigit : exponent.digits.characters.isEmpty = false := by
      simpa using exponent.digits.nonempty
    rw [Option.map_some, Option.getD_some, Exponent.characters,
      List.cons_append, List.append_assoc, exponentPart,
      if_pos exponent.mark_eq, sign]
    simp [split, someDigit, Exponent.value, digitValues]

/-! ## Numbers -/

/-- Digits behind a point are there if the point is. -/
theorem isEmpty_fraction (fraction : Option Digits) :
    ((fraction.map Digits.characters).getD []).isEmpty = fraction.isNone := by
  rcases fraction with - | ⟨digits, nonempty, each⟩
  · rfl
  · exact List.isEmpty_eq_false_iff.2 nonempty

/-- The number that is read from its parts. -/
theorem unsignedNumber_of_parts
    {isNegative : Bool} {characters behindWhole behindFraction : List Char}
    {whole : Digits} {fraction : Option Digits} {exponent : Option Exponent}
    (wholeRead : wholePart? characters = some (whole.characters, behindWhole))
    (fractionRead :
      fractionPart behindWhole =
        ((fraction.map Digits.characters).getD [], behindFraction))
    (exponentRead :
      exponentPart behindFraction = (exponent.map Exponent.value, rest)) :
    unsignedNumber isNegative characters =
      let behindPoint := (fraction.map Digits.characters).getD []
      let digits := digitValues (whole.characters ++ behindPoint)
      let magnitude := Text.numberOfDigits digits
      if fraction.isNone && exponent.isNone then
        if Text.digitLimit < digits.length then
          some (.error (.tooManyDigits digits.length), rest)
        else
          some (.ok (.int (if isNegative then -magnitude else magnitude)), rest)
      else
        some
          (.ok (.float
              (Binary64.ofDecimal isNegative magnitude
                ((exponent.map Exponent.value).getD 0 - behindPoint.length))),
            rest) := by
  rw [unsignedNumber, wholeRead]
  simp only [Option.bind_eq_bind, Option.bind_some, fractionRead, exponentRead,
    isEmpty_fraction, Option.isNone_map, digitValues]
  rfl

/-- What is read as a number is the number that is written. -/
theorem exists_numeral_of_unsignedNumber
    {isNegative : Bool} {characters : List Char} {value : Datum}
    (success :
      unsignedNumber isNegative characters = some (.ok value, rest)) :
    ∃ numeral : Numeral,
      numeral.isNegative = isNegative ∧
        characters = numeral.unsignedCharacters ++ rest ∧
        value = .scalar numeral.scalar := by
  cases found : wholePart? characters with
  | none =>
    rw [unsignedNumber, found] at success
    cases success
  | some part =>
    rcases exists_digits_of_wholePart? found with
      ⟨whole, wholeEq, leading, parts⟩
    rcases exists_digits_of_fractionPart part.2 with
      ⟨fraction, fractionEq, fractionParts⟩
    rcases exists_exponent_of_exponentPart (fractionPart part.2).2 with
      ⟨exponent, exponentEq, exponentParts⟩
    rw [fractionParts, exponentParts, ← wholeEq] at parts
    rw [unsignedNumber_of_parts
        (found.trans (congrArg some (Prod.ext wholeEq.symm rfl)))
        (Prod.ext fractionEq rfl) (Prod.ext exponentEq rfl)] at success
    dsimp only at success
    split at success
    · next none =>
      rw [Bool.and_eq_true, Option.isNone_iff_eq_none,
        Option.isNone_iff_eq_none] at none
      rcases none with ⟨rfl, rfl⟩
      split at success
      · cases success
      · next short =>
        cases success
        rw [digitValues, List.length_map, Nat.not_lt] at short
        rw [Option.map_none, Option.getD_none, List.append_nil] at short
        exact
          ⟨⟨isNegative, whole, none, none, leading, fun _ _ => short⟩, rfl,
            parts.trans (List.append_assoc _ _ _).symm, rfl⟩
    · next some =>
      cases success
      have short :
          fraction = none → exponent = none →
            whole.characters.length ≤ Text.digitLimit := by
        rintro rfl rfl
        exact (some rfl).elim
      refine
        ⟨⟨isNegative, whole, fraction, exponent, leading, short⟩, rfl, ?_, ?_⟩
      · rw [parts, Numeral.unsignedCharacters, List.append_assoc,
          List.append_assoc]
        rfl
      · rw [Numeral.scalar, Numeral.isWhole, if_neg some]
        rfl

/-- No digit and no point is behind the digits of a fraction. -/
theorem Numeral.head?_behind_fraction
    (numeral : Numeral) (ends : EndsNumber rest) :
    ∀ c, (numeral.exponentCharacters ++ rest).head? = some c →
      c.isDigit = false ∧ c ≠ '.' := by
  rw [Numeral.exponentCharacters]
  cases numeral.exponent with
  | none =>
    intro c first
    refine ⟨ends.not_isDigit c first, ?_⟩
    rintro rfl
    cases ends _ first
  | some exponent =>
    rintro c ⟨⟩
    rcases exponent.mark_eq with mark | mark <;> rw [mark] <;> decide

/-- No digit is behind the whole part of a number. -/
theorem Numeral.head?_behind_whole
    (numeral : Numeral) (ends : EndsNumber rest) :
    ∀ c,
      (numeral.fractionCharacters ++
          (numeral.exponentCharacters ++ rest)).head? = some c →
        c.isDigit = false := by
  rw [Numeral.fractionCharacters]
  cases numeral.fraction with
  | none => exact fun c first => (numeral.head?_behind_fraction ends c first).1
  | some digits =>
    rintro c ⟨⟩
    decide

/-- A number that ends is read as it is written. -/
theorem unsignedNumber_append (numeral : Numeral) (ends : EndsNumber rest) :
    unsignedNumber numeral.isNegative (numeral.unsignedCharacters ++ rest) =
      some (.ok (.scalar numeral.scalar), rest) := by
  rw [Numeral.unsignedCharacters, List.append_assoc, List.append_assoc,
    unsignedNumber_of_parts
      (wholePart?_append numeral.leading (numeral.head?_behind_whole ends))
      (fractionPart_append numeral.fraction
        (numeral.head?_behind_fraction ends))
      (exponentPart_append numeral.exponent ends),
    Numeral.scalar]
  cases whole : numeral.isWhole with
  | true =>
    have noParts := whole
    rw [Numeral.isWhole, Bool.and_eq_true, Option.isNone_iff_eq_none,
      Option.isNone_iff_eq_none] at noParts
    have short :
        ¬ Text.digitLimit <
          (digitValues (numeral.whole.characters ++ [])).length := by
      rw [digitValues, List.length_map, List.append_nil]
      exact Nat.not_lt.2 (numeral.short noParts.1 noParts.2)
    rw [Numeral.magnitude, Numeral.fractionDigits, noParts.1, noParts.2]
    exact if_neg short
  | false =>
    rw [Numeral.isWhole] at whole
    simp only [whole, Bool.false_eq_true, if_false]
    rfl

/-! ## Words -/

/-- A number begins with a digit. -/
theorem Numeral.exists_digit (numeral : Numeral) (rest : List Char) :
    ∃ c behind,
      numeral.unsignedCharacters ++ rest = c :: behind ∧
        c.isDigit = true := by
  rcases numeral with ⟨_, ⟨characters, nonempty, each⟩, _, _, _, _⟩
  cases characters with
  | nil => exact (nonempty rfl).elim
  | cons c others => exact ⟨c, _, rfl, each c List.mem_cons_self⟩

/-- No word is at the front of a text that begins with a number. -/
theorem find?_wordValues_number (numeral : Numeral) (rest : List Char) :
    wordValues.find?
        (fun word => word.1.isPrefixOf (numeral.characters ++ rest)) =
      none := by
  rcases numeral.exists_digit rest with ⟨c, behind, form, digit⟩
  rw [Numeral.characters, List.append_assoc, form]
  have other (letter : Char) (noDigit : letter.isDigit = false) :
      (letter == c) = false := by
    rw [beq_eq_false_iff_ne]
    rintro rfl
    cases digit.symm.trans noDigit
  cases numeral.isNegative <;>
    simp [minus, wordValues, List.find?, List.isPrefixOf, other]

theorem plainValue_number (numeral : Numeral) (ends : EndsNumber rest) :
    plainValue (numeral.characters ++ rest) =
      some (.ok (.scalar numeral.scalar), rest) := by
  have read := unsignedNumber_append numeral ends
  rw [plainValue.eq_def, find?_wordValues_number]
  dsimp only
  rw [Numeral.characters]
  cases sign : numeral.isNegative with
  | true =>
    rw [sign] at read
    exact read
  | false =>
    rw [sign] at read
    rcases numeral.exists_digit rest with ⟨c, behind, form, digit⟩
    rw [minus, List.append_assoc, if_neg Bool.false_ne_true, List.nil_append]
    split
    · next same =>
      rw [form] at same
      cases same
      cases digit
    · exact read

/-- A word or a number that ends is read as what it stands for. -/
theorem plainValue_append (word : Word) (ends : EndsNumber rest) :
    plainValue (word.characters ++ rest) =
      some (.ok (.scalar word.scalar), rest) := by
  cases word with
  | null => rfl
  | bool value => cases value <;> rfl
  | notANumber => rfl
  | infinity isNegative => cases isNegative <;> rfl
  | number numeral => exact plainValue_number numeral ends

/-- What is read at the front of a text is a word or a number. -/
theorem exists_word_of_plainValue
    {characters : List Char} {value : Datum}
    (success : plainValue characters = some (.ok value, rest)) :
    ∃ word : Word,
      characters = word.characters ++ rest ∧ value = .scalar word.scalar := by
  rw [plainValue.eq_def] at success
  split at success
  · next entry found =>
    have listed := List.mem_of_find?_eq_some found
    have isWord := List.find?_some found
    have isFront := List.isPrefixOf_iff_prefix.1 isWord
    rcases isFront with ⟨behind, rfl⟩
    rw [List.drop_left, Option.some.injEq, Prod.mk.injEq, Except.ok.injEq]
      at success
    rcases success with ⟨rfl, rfl⟩
    simp only [wordValues, List.mem_cons, List.not_mem_nil, or_false]
      at listed
    rcases listed with rfl | rfl | rfl | rfl | rfl | rfl
    · exact ⟨.null, rfl, rfl⟩
    · exact ⟨.bool true, rfl, rfl⟩
    · exact ⟨.bool false, rfl, rfl⟩
    · exact ⟨.notANumber, rfl, rfl⟩
    · exact ⟨.infinity false, rfl, rfl⟩
    · exact ⟨.infinity true, rfl, rfl⟩
  · split at success
    · rcases exists_numeral_of_unsignedNumber success with
        ⟨numeral, negative, written, same⟩
      refine ⟨.number numeral, ?_, same⟩
      rw [Word.characters, Numeral.characters, negative, written]
      rfl
    · rcases exists_numeral_of_unsignedNumber success with
        ⟨numeral, positive, written, same⟩
      refine ⟨.number numeral, ?_, same⟩
      rw [Word.characters, Numeral.characters, positive, written]
      rfl

end ApiAtlas.Json
