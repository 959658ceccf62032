import ApiAtlas.Proofs.Json.Word
import ApiAtlas.Proofs.Text.Numeral
import ApiAtlas.Proofs.Yaml.Scalar
import ApiAtlas.Yaml.ScalarValue

/-!
# Words and numbers in both notations

Of the words and numbers that the other notation has, some are plain scalars
of the same value: the words for truth values and null, whole numbers, and
numbers with a point whose exponent, if there is one, has a sign.  All others
are plain scalars too, but texts.
-/

namespace ApiAtlas

namespace Json

/--
Whether a number is one in both notations: only a number with a point has an
exponent, and the exponent has a sign.
-/
def Numeral.isShared (numeral : Numeral) : Bool :=
  numeral.exponent.all fun exponent =>
    numeral.fraction.isSome && exponent.sign.isSome

/-- Whether a word or a number is one in both notations. -/
def Word.isShared : Word → Bool
  | null | bool _ => true
  | notANumber | infinity _ => false
  | number numeral => numeral.isShared

end Json

namespace Yaml

open Json (Digits Exponent Numeral Word digitValues minus)

/-! ## Characters of numbers -/

theorem mem_wordCharacters_of_isDigit
    {c : Char} (digit : c.isDigit = true) : c ∈ wordCharacters := by
  have each :
      ∀ n < 58, (Char.ofNat n).isDigit = true →
        Char.ofNat n ∈ wordCharacters := by
    decide
  have bound : c.toNat < 58 := by
    rw [Char.isDigit, Bool.and_eq_true, decide_eq_true_eq, decide_eq_true_eq]
      at digit
    exact Nat.lt_succ_of_le digit.2
  have found := each c.toNat bound
  rw [Char.ofNat_toNat] at found
  exact found digit

theorem mem_wordCharacters_of_exponent
    (exponent : Exponent) : ∀ c ∈ exponent.characters, c ∈ wordCharacters := by
  have sign : ∀ c ∈ exponent.signCharacters, c ∈ wordCharacters := by
    rw [Exponent.signCharacters]
    rcases exponent.sign with - | - | - <;>
      exact List.all_iff_forall_prop.1 (by decide)
  rw [Exponent.characters, List.forall_mem_cons, List.forall_mem_append]
  refine ⟨?_, sign, fun c inside => ?_⟩
  · rcases exponent.mark_eq with mark | mark <;> rw [mark] <;> decide
  · exact mem_wordCharacters_of_isDigit (exponent.digits.each c inside)

theorem mem_wordCharacters_of_numeral
    (numeral : Numeral) :
    ∀ c ∈ numeral.unsignedCharacters, c ∈ wordCharacters := by
  rw [Numeral.unsignedCharacters, List.forall_mem_append,
    List.forall_mem_append, Numeral.fractionCharacters,
    Numeral.exponentCharacters]
  have digits (run : Digits) : ∀ c ∈ run.characters, c ∈ wordCharacters :=
    fun c inside => mem_wordCharacters_of_isDigit (run.each c inside)
  refine ⟨digits numeral.whole, ?_, ?_⟩
  · cases numeral.fraction with
    | none => exact List.forall_mem_nil _
    | some run =>
      exact List.forall_mem_cons.2 ⟨by decide, digits run⟩
  · cases numeral.exponent with
    | none => exact List.forall_mem_nil _
    | some exponent => exact mem_wordCharacters_of_exponent exponent

theorem mem_wordCharacters_of_characters
    (numeral : Numeral) : ∀ c ∈ numeral.characters, c ∈ wordCharacters := by
  rw [Numeral.characters, List.forall_mem_append]
  refine ⟨?_, mem_wordCharacters_of_numeral numeral⟩
  cases numeral.isNegative <;> exact List.all_iff_forall_prop.1 (by decide)

/-- All characters of a word that is shared are of those of such words. -/
theorem mem_wordCharacters_of_word
    {word : Word} (isShared : word.isShared = true) :
    ∀ c ∈ word.characters, c ∈ wordCharacters := by
  cases word with
  | null => exact List.all_iff_forall_prop.1 (by decide)
  | bool value => cases value <;> exact List.all_iff_forall_prop.1 (by decide)
  | notANumber => cases isShared
  | infinity isNegative => cases isShared
  | number numeral => exact mem_wordCharacters_of_characters numeral

/-! ## Tags of numbers -/

section Tag

variable (numeral : Numeral)

/-- Digits are a whole number, with underscores or without. -/
theorem areSpacedDigits_digits (digits : Digits) :
    areSpacedDigits digits.characters = true := by
  rcases digits with ⟨- | ⟨c, others⟩, nonempty, each⟩
  · exact (nonempty rfl).elim
  · rw [List.forall_mem_cons] at each
    rw [areSpacedDigits, each.1, Bool.true_and, List.all_eq_true]
    intro d inside
    rw [isSpacedDigit, each.2 d inside, Bool.true_or]

/-- A number in base sixty has a colon. -/
theorem areSixtieths_of_not_mem
    {text : List Char} (noColon : ':' ∉ text) : areSixtieths text = false := by
  have single : ∃ part, Text.splitAt ':' text = [part] := by
    induction text with
    | nil => exact ⟨[], rfl⟩
    | cons c others ih =>
      rw [List.mem_cons, not_or] at noColon
      rcases ih noColon.2 with ⟨part, same⟩
      refine ⟨c :: part, ?_⟩
      rw [Text.splitAt, if_neg (Ne.symm noColon.1), same]
  rcases single with ⟨part, same⟩
  rw [areSixtieths, same]

/-- No number of the other notation holds these characters. -/
theorem not_mem_unsignedCharacters
    {c : Char} (other : c ∉ wordCharacters) :
    c ∉ numeral.unsignedCharacters :=
  fun inside => other (mem_wordCharacters_of_numeral numeral c inside)

/-- A number without its sign begins with a digit. -/
theorem unsigned_characters :
    unsigned numeral.characters = numeral.unsignedCharacters := by
  rw [Numeral.characters]
  cases numeral.isNegative with
  | true => rfl
  | false =>
    rcases numeral.exists_digit [] with ⟨c, behind, form, digit⟩
    rw [List.append_nil] at form
    rw [minus, if_neg Bool.false_ne_true, List.nil_append, form]
    unfold unsigned
    split
    · next same =>
      cases same
      cases digit
    · next same =>
      cases same
      cases digit
    · rfl

theorem not_mem_of_digits
    {digits : List Char} (each : ∀ c ∈ digits, c.isDigit = true) {c : Char}
    (noDigit : c.isDigit = false) : c ∉ digits :=
  fun inside => by cases noDigit.symm.trans (each c inside)

/-- The part of a number in front of a point, if it has one, is its whole part. -/
theorem takeWhile_unsignedCharacters {digits : Digits}
    (some : numeral.fraction = some digits) :
    numeral.unsignedCharacters.takeWhile (· != '.') =
        numeral.whole.characters ∧
      numeral.unsignedCharacters.dropWhile (· != '.') =
        '.' :: (digits.characters ++ numeral.exponentCharacters) := by
  have each : ∀ c ∈ numeral.whole.characters, (c != '.') = true := by
    intro c inside
    rw [bne_iff_ne]
    rintro rfl
    cases numeral.whole.each _ inside
  rw [Numeral.unsignedCharacters, Numeral.fractionCharacters, some,
    List.takeWhile_append_of_pos each, List.dropWhile_append_of_pos each]
  exact ⟨List.append_nil _, rfl⟩

theorem point_not_mem_exponentCharacters :
    '.' ∉ numeral.exponentCharacters := by
  rw [Numeral.exponentCharacters]
  cases numeral.exponent with
  | none => exact List.not_mem_nil
  | some exponent =>
    have noMark : '.' ≠ exponent.mark := by
      rcases exponent.mark_eq with mark | mark <;> rw [mark] <;> decide
    have noSign : '.' ∉ exponent.signCharacters := by
      rw [Exponent.signCharacters]
      rcases exponent.sign with - | - | - <;> decide
    rw [Option.map_some, Option.getD_some, Exponent.characters, List.mem_cons,
      List.mem_append, not_or, not_or]
    exact ⟨noMark, noSign, not_mem_of_digits exponent.digits.each rfl⟩

/-- What is passed over is in front of the letter of an exponent. -/
theorem dropWhile_exponentCharacters
    {test : Char → Bool} (small : test 'e' = false)
    (capital : test 'E' = false) :
    numeral.exponentCharacters.dropWhile test =
      numeral.exponentCharacters := by
  rw [Numeral.exponentCharacters]
  cases numeral.exponent with
  | none => rfl
  | some exponent =>
    have noMark : ¬ test exponent.mark = true := by
      rcases exponent.mark_eq with mark | mark <;> rw [mark]
      · simp [small]
      · simp [capital]
    exact List.dropWhile_cons_of_neg noMark

/-- An exponent that ends a number is one only if it has a sign. -/
theorem isExponent_exponentCharacters :
    isExponent numeral.exponentCharacters =
      numeral.exponent.all fun exponent => exponent.sign.isSome := by
  rw [Numeral.exponentCharacters]
  cases numeral.exponent with
  | none => rfl
  | some exponent =>
    rcases exponent with ⟨isCapital, sign, ⟨digits, nonempty, each⟩⟩
    have digitsOnly : areSome Char.isDigit digits = true := by
      rw [areSome, Bool.and_eq_true, List.all_eq_true]
      exact ⟨by simpa using nonempty, each⟩
    cases sign with
    | none =>
      cases digits with
      | nil => exact (nonempty rfl).elim
      | cons c others =>
        have digit := each c List.mem_cons_self
        have noMinus : (c == '-') = false := by
          rw [beq_eq_false_iff_ne]
          rintro rfl
          cases digit
        have noPlus : (c == '+') = false := by
          rw [beq_eq_false_iff_ne]
          rintro rfl
          cases digit
        simp [Exponent.characters, Exponent.signCharacters, isExponent,
          noMinus, noPlus]
    | some isNegative =>
      cases isCapital <;> cases isNegative <;> exact digitsOnly

/-- A number is one with a point if it has a point, and no exponent or sign. -/
theorem isFloat_characters :
    isFloat numeral.characters =
      (numeral.fraction.isSome &&
        numeral.exponent.all fun exponent => exponent.sign.isSome) := by
  rw [isFloat, unsigned_characters]
  cases some : numeral.fraction with
  | none =>
    have noPoint : ∀ c ∈ numeral.unsignedCharacters, (c != '.') = true := by
      intro c inside
      rw [bne_iff_ne]
      rintro rfl
      rw [Numeral.unsignedCharacters, Numeral.fractionCharacters, some,
        List.mem_append] at inside
      rcases inside with inside | inside
      · cases numeral.whole.each _ inside
      · exact point_not_mem_exponentCharacters numeral inside
    rw [List.dropWhile_eq_nil_iff.2 noPoint]
    rfl
  | some digits =>
    rcases takeWhile_unsignedCharacters numeral some with ⟨whole, behind⟩
    have noWhole : numeral.whole.characters.isEmpty = false := by
      simpa using numeral.whole.nonempty
    have noColon : ':' ∉ numeral.whole.characters :=
      not_mem_of_digits numeral.whole.each rfl
    have fraction :
        isFraction (digits.characters ++ numeral.exponentCharacters) =
          isExponent numeral.exponentCharacters := by
      have spaced : ∀ c ∈ digits.characters, isSpacedDigit c = true := by
        intro c inside
        rw [isSpacedDigit, digits.each c inside, Bool.true_or]
      rw [isFraction, List.dropWhile_append_of_pos spaced,
        dropWhile_exponentCharacters numeral rfl rfl]
    simp only [whole, behind, noWhole, areSpacedDigits_digits,
      areSixtieths_of_not_mem noColon, fraction,
      isExponent_exponentCharacters]
    simp

theorem unsignedCharacters_of_isWhole (isWhole : numeral.isWhole = true) :
    numeral.unsignedCharacters = numeral.whole.characters := by
  rw [Numeral.isWhole, Bool.and_eq_true, Option.isNone_iff_eq_none,
    Option.isNone_iff_eq_none] at isWhole
  rw [Numeral.unsignedCharacters, Numeral.fractionCharacters,
    Numeral.exponentCharacters, isWhole.1, isWhole.2]
  exact List.append_nil _

/-- A number without a point and an exponent is a whole number. -/
theorem isInt_characters (isWhole : numeral.isWhole = true) :
    isInt numeral.characters = true := by
  have spaced := areSpacedDigits_digits numeral.whole
  have leading := numeral.leading
  rw [isInt, unsigned_characters, unsignedCharacters_of_isWhole numeral isWhole]
  split
  · next same => cases (leading (congrArg List.head? same)).symm.trans same
  · next same => cases (leading (congrArg List.head? same)).symm.trans same
  · next same =>
    cases (leading (congrArg List.head? same)).symm.trans same
    rfl
  · rw [spaced, Bool.true_or]

/-- A number begins with a digit or with the sign in front of one. -/
theorem exists_head_characters :
    ∃ c behind,
      numeral.characters = c :: behind ∧ (c.isDigit = true ∨ c = '-') := by
  rcases numeral.exists_digit [] with ⟨c, behind, form, digit⟩
  rw [List.append_nil] at form
  rw [Numeral.characters, form]
  cases numeral.isNegative
  · exact ⟨c, behind, rfl, Or.inl digit⟩
  · exact ⟨'-', _, rfl, Or.inr rfl⟩

/-- A number is none of the words. -/
theorem lineTag_characters :
    lineTag numeral.characters =
      if isFloat numeral.characters then .float
      else if isInt numeral.characters then .int
      else if isTimestamp numeral.characters then .timestamp
      else .text := by
  have noWord :
      String.ofList numeral.characters ∉
        truthWords ++ nullWords ++ ["<<", "="] := by
    have each :
        ∀ word ∈ truthWords ++ nullWords ++ ["<<", "="],
          (word.toList.head?.any fun c => c.isDigit || c == '-') = false :=
      List.all_iff_forall_prop.1 (by decide)
    rcases exists_head_characters numeral with ⟨c, behind, form, starts⟩
    intro inside
    have other := each _ inside
    rw [String.toList_ofList, form, List.head?_cons, Option.any_some,
      Bool.or_eq_false_iff, beq_eq_false_iff_ne] at other
    rcases starts with digit | same
    · rw [other.1] at digit
      cases digit
    · exact other.2 same
  simp only [List.mem_append, List.mem_cons, List.not_mem_nil, or_false,
    not_or] at noWord
  rcases noWord with ⟨⟨noTruth, noNull⟩, noMerge, noValue⟩
  rw [lineTag, if_neg (by simpa using noTruth), if_neg (by simpa using noNull),
    if_neg noMerge, if_neg noValue]

theorem dropFinalBreak_of_not_mem
    {text : List Char} (noLineFeed : '\n' ∉ text) :
    dropFinalBreak text = text := by
  refine if_neg fun ends => ?_
  rw [Bool.and_eq_true, decide_eq_true_eq] at ends
  exact noLineFeed (List.mem_of_getLast? ends.1)

end Tag

/-! ## Values of whole numbers -/

section Whole

/-- Basic digits are read as the number that they stand for. -/
theorem readWhole_digits
    {digits : Digits} (short : digits.characters.length ≤ Text.digitLimit) :
    Text.readWhole (String.ofList digits.characters) =
      .ok (Text.numberOfDigits (digitValues digits.characters) : Int) := by
  have run := Text.DigitRun.of_isDigit digits.nonempty digits.each
  have magnitude := Text.Magnitude.of run (by rwa [List.length_map])
  rw [← Text.numberOfDigits_eq_ofDigits] at magnitude
  refine
    Text.readWhole_eq_ok_iff.2
      ⟨digits.characters, ?_, .unsigned magnitude⟩
  rw [String.toList_ofList]
  refine Text.pads_self fun c inside => ?_
  rw [Text.isNumeralBlank, run.not_blank c inside, Bool.false_and]

/-- Digits without a leading zero stand for a number in base ten. -/
theorem readMagnitude_digits
    {digits : Digits}
    (leading :
      digits.characters.head? = some '0' → digits.characters = ['0'])
    (short : digits.characters.length ≤ Text.digitLimit) :
    readMagnitude digits.characters =
      .ok (Text.numberOfDigits (digitValues digits.characters) : Int) := by
  have noColon : ¬ digits.characters.contains ':' = true := by
    rw [List.contains_iff_mem]
    exact not_mem_of_digits digits.each rfl
  rw [readMagnitude.eq_def]
  split
  · next none => exact (digits.nonempty none).elim
  · next same =>
    rw [same]
    rfl
  · next same => cases (leading (congrArg List.head? same)).symm.trans same
  · next same => cases (leading (congrArg List.head? same)).symm.trans same
  · next tail noEnd noBinary noHex same =>
    cases (leading (congrArg List.head? same)).symm.trans same
    exact (noEnd rfl).elim
  · rw [if_neg noColon, readWhole_digits short]
    rfl

theorem dropUnderscores_characters (numeral : Numeral) :
    dropUnderscores (String.ofList numeral.characters) =
      numeral.characters := by
  have each : ∀ c ∈ wordCharacters, decide (c ≠ '_') = true :=
    List.all_eq_true.1 (by decide)
  rw [dropUnderscores, String.toList_ofList, List.filter_eq_self]
  exact fun c inside =>
    each c (mem_wordCharacters_of_characters numeral c inside)

/-- A whole number has the value that it has in the other notation. -/
theorem readInt_characters
    {numeral : Numeral} (isWhole : numeral.isWhole = true) :
    readInt (String.ofList numeral.characters) =
      .ok
        (if numeral.isNegative then -(numeral.magnitude : Int)
          else numeral.magnitude) := by
  have read : readMagnitude numeral.unsignedCharacters =
      .ok (numeral.magnitude : Int) := by
    rw [Numeral.isWhole, Bool.and_eq_true, Option.isNone_iff_eq_none,
      Option.isNone_iff_eq_none] at isWhole
    rw [unsignedCharacters_of_isWhole numeral (by simp [Numeral.isWhole, isWhole]),
      readMagnitude_digits numeral.leading (numeral.short isWhole.1 isWhole.2),
      Numeral.magnitude, Numeral.fractionDigits, isWhole.1]
    simp
  rw [readInt, dropUnderscores_characters, Numeral.characters]
  cases numeral.isNegative with
  | true =>
    simp only [minus, if_true, List.singleton_append, read]
    rfl
  | false =>
    rcases numeral.exists_digit [] with ⟨c, behind, form, digit⟩
    rw [List.append_nil] at form
    rw [minus, if_neg Bool.false_ne_true, List.nil_append]
    split
    · next none => cases form.symm.trans none
    · next same =>
      cases form.symm.trans same
      cases digit
    · next same =>
      cases form.symm.trans same
      cases digit
    · exact read

end Whole

/-! ## Values of numbers with a point -/

section Pointed

/-- Basic characters have the small letters of their own. -/
theorem smallFormsAfter_basic
    {text : List Char} (basic : ∀ c ∈ text, c.toNat < 128)
    (passed : List Char) :
    Text.smallFormsAfter passed text = text.map Char.toLower := by
  induction text generalizing passed with
  | nil => rfl
  | cons c others ih =>
    rw [List.forall_mem_cons] at basic
    have noSigma : c ≠ Text.capitalSigma := by
      rintro rfl
      exact absurd basic.1 (by decide)
    rw [Text.smallFormsAfter]
    simp only [if_neg noSigma, Text.smallForm, if_pos basic.1, ih basic.2]
    rfl

/-- The number with a small letter in front of its exponent. -/
def lowered (numeral : Numeral) : Numeral where
  isNegative := numeral.isNegative
  whole := numeral.whole
  fraction := numeral.fraction
  exponent :=
    numeral.exponent.map fun exponent => { exponent with isCapital := false }
  leading := numeral.leading
  short noFraction noExponent :=
    numeral.short noFraction (Option.map_eq_none_iff.1 noExponent)

variable (numeral : Numeral)

theorem magnitude_lowered : (lowered numeral).magnitude = numeral.magnitude :=
  rfl

theorem scale_lowered : (lowered numeral).scale = numeral.scale := by
  rcases numeral with ⟨_, _, _, - | exponent, _, _⟩ <;> rfl

theorem map_toLower_digits (digits : Digits) :
    digits.characters.map Char.toLower = digits.characters := by
  have each : ∀ c ∈ wordCharacters, c ≠ 'E' → c.toLower = c :=
    List.all_iff_forall_prop.1 (by decide)
  refine (List.map_congr_left fun c inside => ?_).trans (List.map_id _)
  have digit := digits.each c inside
  refine each c (mem_wordCharacters_of_isDigit digit) ?_
  rintro rfl
  cases digit

theorem map_toLower_exponent (exponent : Exponent) :
    exponent.characters.map Char.toLower =
      { exponent with isCapital := false }.characters := by
  have sign :
      exponent.signCharacters.map Char.toLower = exponent.signCharacters := by
    rw [Exponent.signCharacters]
    rcases exponent.sign with - | - | - <;> rfl
  have mark : exponent.mark.toLower = 'e' := by
    rcases exponent.mark_eq with mark | mark <;> rw [mark] <;> rfl
  rw [Exponent.characters, List.map_cons, List.map_append, sign, mark,
    map_toLower_digits]
  rfl

theorem map_toLower_characters :
    numeral.characters.map Char.toLower = (lowered numeral).characters := by
  have sign :
      (minus numeral.isNegative).map Char.toLower =
        minus numeral.isNegative := by
    cases numeral.isNegative <;> rfl
  have fraction :
      numeral.fractionCharacters.map Char.toLower =
        numeral.fractionCharacters := by
    rw [Numeral.fractionCharacters]
    cases numeral.fraction with
    | none => rfl
    | some digits =>
      exact congrArg ('.' :: ·) (map_toLower_digits digits)
  have exponent :
      numeral.exponentCharacters.map Char.toLower =
        (lowered numeral).exponentCharacters := by
    have form :
        (lowered numeral).exponentCharacters =
          ((numeral.exponent.map fun exponent =>
            { exponent with isCapital := false }).map
              Exponent.characters).getD [] :=
      rfl
    rw [form, Numeral.exponentCharacters]
    cases numeral.exponent with
    | none => rfl
    | some exponent => exact map_toLower_exponent exponent
  rw [Numeral.characters, Numeral.unsignedCharacters, List.map_append,
    List.map_append, List.map_append, sign, map_toLower_digits, fraction,
    exponent]
  rfl

/-- Only the letter in front of the exponent is changed. -/
theorem floatCharacters_characters :
    floatCharacters (String.ofList numeral.characters) =
      (lowered numeral).characters := by
  have basic : ∀ c ∈ wordCharacters, c.toNat < 128 :=
    List.all_iff_forall_prop.1 (by decide)
  rw [floatCharacters, dropUnderscores_characters, Text.toSmall,
    String.toList_ofList, String.toList_ofList, smallFormsAfter_basic,
    map_toLower_characters]
  exact fun c inside =>
    basic c (mem_wordCharacters_of_characters numeral c inside)

theorem joinDigits_of_not_mem
    {text : List Char} (noUnderscore : '_' ∉ text) (afterDigit : Bool) :
    Text.joinDigits afterDigit text = some text := by
  induction text generalizing afterDigit with
  | nil => rfl
  | cons c others ih =>
    rw [List.mem_cons, not_or] at noUnderscore
    rw [Text.joinDigits, ih noUnderscore.2]
    · rfl
    · exact Ne.symm noUnderscore.1

/-- Basic characters of a number are read as they stand. -/
theorem numeralCharacters_unsigned :
    Text.numeralCharacters (String.ofList numeral.unsignedCharacters) =
      numeral.unsignedCharacters := by
  have each :
      ∀ c ∈ wordCharacters,
        Text.isNumeralBlank c = false ∧ Text.plainDigit c = c :=
    List.all_iff_forall_prop.1 (by decide +kernel)
  have found := fun c inside =>
    each c (mem_wordCharacters_of_numeral numeral c inside)
  rw [Text.numeralCharacters_eq, String.toList_ofList,
    Text.trimBy_eq_iff.2 (Text.pads_self fun c inside => (found c inside).1)]
  exact
    (List.map_congr_left fun c inside => (found c inside).2).trans
      (List.map_id _)

/-- Digits are read up to what is no digit. -/
theorem leadingDigits_append
    (digits : Digits) {rest : List Char}
    (stops : ∀ c, rest.head? = some c → c.isDigit = false) :
    Text.leadingDigits (digits.characters ++ rest) =
      (digitValues digits.characters, rest) := by
  have split := Json.splitDigits_append digits.each stops
  rw [Json.splitDigits, Prod.mk.injEq] at split
  rw [Text.leadingDigits, split.1, split.2, digitValues]

theorem readExponent_characters :
    Text.readExponent numeral.exponentCharacters =
      some ((numeral.exponent.map Exponent.value).getD 0) := by
  rw [Numeral.exponentCharacters]
  cases numeral.exponent with
  | none => rfl
  | some exponent =>
    have sign := Json.splitSign_exponent exponent []
    have noMore : ∀ c, ([] : List Char).head? = some c → c.isDigit = false :=
      fun c none => by cases none
    have digits := leadingDigits_append exponent.digits noMore
    have someDigit :
        (digitValues exponent.digits.characters).isEmpty = false := by
      simpa [digitValues] using exponent.digits.nonempty
    rw [List.append_nil] at sign digits
    rw [Option.map_some, Option.getD_some, Exponent.characters,
      Text.readExponent, if_pos exponent.mark_eq, sign]
    simp [digits, someDigit, Exponent.value]

/-- The number behind the sign is read as its digits and its scale say. -/
theorem readPointed_unsigned (isNegative : Bool) :
    Text.readPointed isNegative numeral.unsignedCharacters =
      some
        (Binary64.ofDecimal isNegative numeral.magnitude numeral.scale) := by
  have noDigit :
      ∀ c, numeral.exponentCharacters.head? = some c →
        c.isDigit = false ∧ c ≠ '.' := by
    have ends : Json.EndsNumber [] := fun c first => by cases first
    have parts := numeral.head?_behind_fraction ends
    rwa [List.append_nil] at parts
  have exponent := readExponent_characters numeral
  have someDigit : (digitValues numeral.whole.characters).isEmpty = false := by
    simpa [digitValues] using numeral.whole.nonempty
  rw [Text.readPointed, Numeral.unsignedCharacters, Numeral.magnitude,
    Numeral.scale, Numeral.fractionCharacters, Numeral.fractionDigits]
  cases numeral.fraction with
  | none =>
    have whole :=
      leadingDigits_append numeral.whole fun c first => (noDigit c first).1
    simp only [Option.map_none, Option.getD_none, List.nil_append, whole,
      List.append_nil]
    split
    · next same => exact ((noDigit _ (congrArg List.head? same)).2 rfl).elim
    · simp [someDigit, exponent]
  | some digits =>
    have point :
        ∀ c,
          ('.' :: (digits.characters ++ numeral.exponentCharacters)).head? =
              some c →
            c.isDigit = false := by
      rintro c ⟨⟩
      rfl
    have whole := leadingDigits_append numeral.whole point
    have fraction :=
      leadingDigits_append digits fun c first => (noDigit c first).1
    simp only [Option.map_some, Option.getD_some, List.cons_append, whole,
      fraction]
    rw [someDigit]
    simp [exponent, digitValues]

/-- Digits are no word for a number. -/
theorem readNumberWord_unsigned (isNegative : Bool) :
    Text.readNumberWord isNegative numeral.unsignedCharacters = none := by
  have each :
      ∀ word ∈ ["inf", "infinity", "nan"],
        word.toList.head?.any Char.isDigit = false :=
    List.all_iff_forall_prop.1 (by decide)
  have small : ∀ c ∈ wordCharacters, c.isDigit = true → c.toLower = c :=
    List.all_iff_forall_prop.1 (by decide)
  rcases numeral.exists_digit [] with ⟨c, behind, form, digit⟩
  rw [List.append_nil] at form
  have noWord :
      String.ofList (numeral.unsignedCharacters.map Char.toLower) ∉
        ["inf", "infinity", "nan"] := by
    intro inside
    have noDigit := each _ inside
    rw [String.toList_ofList, form, List.map_cons,
      small c (mem_wordCharacters_of_isDigit digit) digit, List.head?_cons,
      Option.any_some] at noDigit
    cases digit.symm.trans noDigit
  simp only [List.mem_cons, List.not_mem_nil, or_false, not_or] at noWord
  rw [Text.readNumberWord, if_neg (not_or.2 ⟨noWord.1, noWord.2.1⟩),
    if_neg noWord.2.2]

theorem readAmount_unsigned :
    readAmount numeral.unsignedCharacters =
      .ok (Binary64.ofDecimal false numeral.magnitude numeral.scale) := by
  rcases numeral.exists_digit [] with ⟨c, behind, form, digit⟩
  rw [List.append_nil] at form
  have noUnderscore : '_' ∉ numeral.unsignedCharacters :=
    not_mem_unsignedCharacters numeral (by decide)
  have noColon : ¬ numeral.unsignedCharacters.contains ':' = true := by
    rw [List.contains_iff_mem]
    exact not_mem_unsignedCharacters numeral (by decide)
  have noSign :
      Text.splitSign numeral.unsignedCharacters =
        (false, numeral.unsignedCharacters) := by
    rw [form, Text.splitSign.eq_def]
    split
    · next same =>
      cases same
      cases digit
    · next same =>
      cases same
      cases digit
    · rfl
  have noInfinity : numeral.unsignedCharacters ≠ ".inf".toList := by
    rw [form]
    rintro same
    cases same
    cases digit
  have noWord : numeral.unsignedCharacters ≠ noNumberWord := by
    rw [form]
    rintro same
    cases same
    cases digit
  rw [readAmount, if_neg noInfinity, if_neg noWord, if_neg noColon,
    Text.readNumber, numeralCharacters_unsigned,
    joinDigits_of_not_mem noUnderscore]
  simp only [Option.bind_eq_bind, Option.bind_some, noSign,
    readNumberWord_unsigned, readPointed_unsigned]
  rfl

theorem negate_round (numerator denominator : Nat) :
    (Binary64.round false numerator denominator).negate =
      Binary64.round true numerator denominator := by
  simp only [Binary64.round, apply_ite Binary64.negate]
  rfl

theorem negate_ofDecimal (digits : Nat) (exponent : Int) :
    (Binary64.ofDecimal false digits exponent).negate =
      Binary64.ofDecimal true digits exponent := by
  unfold Binary64.ofDecimal
  split
  · rfl
  · dsimp only
    split
    · rfl
    · split
      · rfl
      · split <;> exact negate_round ..

/-- A number with a point has the value that it has in the other notation. -/
theorem readFloat_characters :
    readFloat (String.ofList numeral.characters) =
      .ok
        (Binary64.ofDecimal numeral.isNegative numeral.magnitude
          numeral.scale) := by
  have read := readAmount_unsigned (lowered numeral)
  rw [magnitude_lowered, scale_lowered] at read
  have sign : (lowered numeral).isNegative = numeral.isNegative := rfl
  rw [readFloat, floatCharacters_characters, Numeral.characters, sign]
  cases numeral.isNegative with
  | true =>
    simp only [minus, if_true, List.singleton_append, read, Except.map,
      negate_ofDecimal]
  | false =>
    rcases (lowered numeral).exists_digit [] with ⟨c, behind, form, digit⟩
    rw [List.append_nil] at form
    rw [minus, if_neg Bool.false_ne_true, List.nil_append]
    split
    · next none => cases form.symm.trans none
    · next same =>
      cases form.symm.trans same
      cases digit
    · next same =>
      cases form.symm.trans same
      cases digit
    · exact read

end Pointed

/-! ## Words -/

/-- A word that is shared has one value in both notations. -/
theorem scalarValue_word {word : Word} (isShared : word.isShared = true) :
    scalarValue (resolve (String.ofList word.characters))
        (String.ofList word.characters) =
      .ok word.scalar := by
  have noLineFeed : '\n' ∉ word.characters := by
    intro inside
    exact
      absurd (mem_wordCharacters_of_word isShared _ inside) (by decide)
  rw [resolve, String.toList_ofList, dropFinalBreak_of_not_mem noLineFeed]
  cases word with
  | null => rfl
  | bool value => cases value <;> rfl
  | notANumber => cases isShared
  | infinity isNegative => cases isShared
  | number numeral =>
    rw [Word.isShared, Numeral.isShared] at isShared
    rw [Word.characters, Word.scalar, lineTag_characters, isFloat_characters,
      Numeral.scalar]
    cases isWhole : numeral.isWhole with
    | true =>
      have noPoint : numeral.fraction.isSome = false := by
        rw [Numeral.isWhole, Bool.and_eq_true, Option.isNone_iff_eq_none]
          at isWhole
        rw [isWhole.1]
        rfl
      rw [noPoint, Bool.false_and, if_neg Bool.false_ne_true,
        if_pos (isInt_characters numeral isWhole), scalarValue,
        readInt_characters isWhole]
      rfl
    | false =>
      have isFloat :
          (numeral.fraction.isSome &&
              numeral.exponent.all fun exponent => exponent.sign.isSome) =
            true := by
        rw [Numeral.isWhole] at isWhole
        revert isWhole isShared
        cases numeral.fraction <;> cases numeral.exponent <;> simp
      rw [isFloat, if_pos rfl, scalarValue, readFloat_characters]
      rfl

/-! ## Words that are texts -/

section Unshared

variable (numeral : Numeral)

/-- What is behind the whole part of a number begins with a mark. -/
theorem exists_mark (isPart : numeral.isWhole = false) :
    ∃ mark behind,
      numeral.fractionCharacters ++ numeral.exponentCharacters =
          mark :: behind ∧
        mark ∈ ['.', 'e', 'E'] := by
  rw [Numeral.isWhole] at isPart
  rw [Numeral.fractionCharacters, Numeral.exponentCharacters]
  revert isPart
  cases numeral.fraction with
  | some digits => exact fun _ => ⟨'.', _, rfl, by decide⟩
  | none =>
    cases numeral.exponent with
    | some exponent =>
      refine fun _ => ⟨exponent.mark, _, rfl, ?_⟩
      rcases exponent.mark_eq with mark | mark <;> rw [mark] <;> decide
    | none => exact fun isPart => by cases isPart

/-- Neither an underscore nor a digit nor a letter of a base is a mark. -/
theorem mark_spec :
    ∀ mark ∈ ['.', 'e', 'E'],
      mark ≠ 'b' ∧ mark ≠ 'x' ∧ mark ≠ '-' ∧ mark.isDigit = false ∧
        isSpacedDigit mark = false ∧
        (('0' ≤ mark && mark ≤ '7') || mark == '_') = false :=
  List.all_iff_forall_prop.1 (by decide)

/-- A number with a point or an exponent is no whole number. -/
theorem isInt_characters_of_part (isPart : numeral.isWhole = false) :
    isInt numeral.characters = false := by
  rcases exists_mark numeral isPart with ⟨mark, behind, form, isMark⟩
  rcases mark_spec mark isMark with
    ⟨noBinary, noBase, -, -, noSpaced, noOctal⟩
  have noColon : ':' ∉ numeral.unsignedCharacters :=
    not_mem_unsignedCharacters numeral (by decide)
  have zero {others : List Char}
      (same : numeral.whole.characters ++ mark :: behind = '0' :: others) :
      others = mark :: behind := by
    rcases numeral with ⟨_, ⟨- | ⟨c, rest⟩, nonempty, _⟩, _, _, leading, _⟩
    · exact (nonempty rfl).elim
    · cases same
      cases leading rfl
      rfl
  rw [isInt, unsigned_characters]
  rw [Numeral.unsignedCharacters, form] at noColon ⊢
  split
  · next same => exact absurd (List.cons.inj (zero same)).1.symm noBinary
  · next same => exact absurd (List.cons.inj (zero same)).1.symm noBase
  · next same =>
    rw [zero same, List.all_cons, noOctal, Bool.false_and]
  · rw [areSixtieths_of_not_mem noColon, Bool.or_false]
    rcases numeral.whole with ⟨- | ⟨c, rest⟩, nonempty, each⟩
    · exact (nonempty rfl).elim
    · rw [List.cons_append, areSpacedDigits, List.all_append, List.all_cons,
        noSpaced, Bool.false_and, Bool.and_false, Bool.and_false]

/-- Neither a digit nor a minus sign is behind the whole part of a number. -/
theorem head?_behind_whole :
    ∀ c ∈ (numeral.fractionCharacters ++ numeral.exponentCharacters).head?,
      c.isDigit = false ∧ c ≠ '-' := by
  cases whole : numeral.isWhole with
  | true =>
    rw [Numeral.isWhole, Bool.and_eq_true, Option.isNone_iff_eq_none,
      Option.isNone_iff_eq_none] at whole
    rw [Numeral.fractionCharacters, Numeral.exponentCharacters, whole.1,
      whole.2]
    rintro c ⟨⟩
  | false =>
    rcases exists_mark numeral whole with ⟨mark, behind, form, isMark⟩
    rcases mark_spec mark isMark with ⟨-, -, noMinus, noDigit, -⟩
    rw [form]
    rintro c ⟨⟩
    exact ⟨noDigit, noMinus⟩

theorem expect_eq_none
    {c : Char} {text : List Char} (other : text.head? ≠ some c) :
    expect c text = none := by
  cases text with
  | nil => rfl
  | cons first rest => exact if_neg fun same => other (congrArg some same)

/-- The digits at the front of a number without a sign are its whole part. -/
theorem takeWhile_isDigit_unsignedCharacters :
    numeral.unsignedCharacters.takeWhile Char.isDigit =
      numeral.whole.characters := by
  have head := head?_behind_whole numeral
  rw [Numeral.unsignedCharacters,
    List.takeWhile_append_of_pos numeral.whole.each]
  cases form : numeral.fractionCharacters ++ numeral.exponentCharacters with
  | nil => exact List.append_nil _
  | cons c behind =>
    rw [form] at head
    rw [List.takeWhile_cons_of_neg, List.append_nil]
    rw [(head c rfl).1]
    decide

/-- No minus sign is behind any of the digits at the front of a number. -/
theorem head?_drop_unsignedCharacters
    {count : Nat} (inside : count ≤ numeral.whole.characters.length) :
    (numeral.unsignedCharacters.drop count).head? ≠ some '-' := by
  rw [Numeral.unsignedCharacters, List.drop_append_of_le_length inside]
  cases form : numeral.whole.characters.drop count with
  | nil => exact fun isMinus => (head?_behind_whole numeral _ isMinus).2 rfl
  | cons c rest =>
    have isPart : c ∈ numeral.whole.characters :=
      List.mem_of_mem_drop (form ▸ List.mem_cons_self)
    rintro ⟨⟩
    cases numeral.whole.each _ isPart

/-- No number is a day, for no minus sign is behind its digits. -/
theorem isTimestamp_characters : isTimestamp numeral.characters = false := by
  have noYear :
      ∀ found, readDigits 4 4 numeral.characters = some found →
        expect '-' found.2 = none := by
    intro found same
    rw [readDigits] at same
    split at same
    · cases same
    · next enough =>
      cases same
      refine expect_eq_none ?_
      rw [Numeral.characters] at enough ⊢
      cases isNegative : numeral.isNegative with
      | true =>
        rw [isNegative] at enough
        exact absurd (Nat.zero_lt_succ 3) enough
      | false =>
        rw [minus, if_neg Bool.false_ne_true, List.nil_append,
          takeWhile_isDigit_unsignedCharacters]
        exact head?_drop_unsignedCharacters numeral (List.length_take_le' _ _)
  have noDay : readDay numeral.characters = none := by
    rw [readDay]
    cases year : readDigits 4 4 numeral.characters with
    | none => rfl
    | some found =>
      simp only [Option.bind_eq_bind, Option.bind_some, noYear found year,
        Option.bind_none]
  rw [isTimestamp, noDay]

/-- A word that is not shared is a text. -/
theorem resolve_word {word : Word} (unshared : word.isShared = false) :
    resolve (String.ofList word.characters) = .text := by
  cases word with
  | null => cases unshared
  | bool value => cases unshared
  | notANumber => decide
  | infinity isNegative => cases isNegative <;> decide
  | number numeral =>
    have noLineFeed : '\n' ∉ numeral.characters := by
      intro inside
      exact
        absurd (mem_wordCharacters_of_characters numeral _ inside) (by decide)
    rw [Word.isShared, Numeral.isShared] at unshared
    have isPart : numeral.isWhole = false := by
      rw [Numeral.isWhole]
      revert unshared
      cases numeral.exponent <;> simp
    have noFloat :
        (numeral.fraction.isSome &&
            numeral.exponent.all fun exponent => exponent.sign.isSome) =
          false := by
      revert unshared
      cases numeral.fraction <;> cases numeral.exponent <;> simp
    rw [resolve, String.toList_ofList, Word.characters,
      dropFinalBreak_of_not_mem noLineFeed, lineTag_characters,
      isFloat_characters, noFloat, isInt_characters_of_part numeral isPart,
      isTimestamp_characters]
    rfl

end Unshared

/-- Only a word that is shared has one value in both notations. -/
theorem scalarValue_word_iff (word : Word) :
    scalarValue (resolve (String.ofList word.characters))
        (String.ofList word.characters) =
      .ok word.scalar ↔ word.isShared = true := by
  refine ⟨fun same => ?_, scalarValue_word⟩
  by_contra other
  have unshared : word.isShared = false := Bool.eq_false_of_not_eq_true other
  rw [resolve_word unshared, scalarValue, Except.ok.injEq] at same
  cases word with
  | null => cases unshared
  | bool value => cases unshared
  | notANumber => cases same
  | infinity isNegative => cases same
  | number numeral =>
    rw [Word.scalar, Numeral.scalar] at same
    split at same <;> cases same

end Yaml

end ApiAtlas
