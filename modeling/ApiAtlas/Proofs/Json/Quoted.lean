import ApiAtlas.Json.Reader
import ApiAtlas.Proofs.Outcome
import ApiAtlas.Yaml.Quoted
import Mathlib.Data.List.Basic

/-!
# Texts as they are written

A text in quotes is a run of pieces: characters that stand for themselves,
escapes by a letter and escapes by a number.  Every piece stands for a number,
and two halves next to each other make one character.  The reader takes a text
if and only if it is such a run up to a quote, and the halves are all that it
has to look at together.
-/

namespace ApiAtlas.Json

/-- The number that an escape by a letter stands for. -/
def letterCode? : Char → Option Nat
  | '"' => some 34
  | '\\' => some 92
  | '/' => some 47
  | 'b' => some 8
  | 'f' => some 12
  | 'n' => some 10
  | 'r' => some 13
  | 't' => some 9
  | _ => none

/-- Whether a character stands for itself in a text. -/
def isOwn (c : Char) : Bool := c != '"' && c != '\\' && 0x20 ≤ c.toNat

/-- A piece of a text, which stands for a number. -/
inductive Piece where
  | own (c : Char) (own : isOwn c = true)
  | letter (c : Char) (code : Nat) (stands : letterCode? c = some code)
  | unit (a b c d : Char) (code : Nat)
      (stands : hexNumber? [a, b, c, d] = some code)

namespace Piece

/-- A piece as it is written. -/
def characters : Piece → List Char
  | own c _ => [c]
  | letter c _ _ => ['\\', c]
  | unit a b c d _ _ => ['\\', 'u', a, b, c, d]

/-- The number that a piece stands for. -/
def code : Piece → Nat
  | own c _ => c.toNat
  | letter _ code _ => code
  | unit _ _ _ _ code _ => code

end Piece

/-- A text as it is written, between its quotes. -/
abbrev Pieces := List Piece

namespace Pieces

/-- The characters between the quotes. -/
def characters (pieces : Pieces) : List Char :=
  pieces.flatMap Piece.characters

/-- The numbers that the pieces stand for. -/
def codes (pieces : Pieces) : List Nat := pieces.map Piece.code

/-- The text that is written. -/
def text (pieces : Pieces) : String :=
  String.ofList (Yaml.joinHalves pieces.codes)

@[simp]
theorem characters_nil : characters [] = [] := rfl

@[simp]
theorem characters_cons (piece : Piece) (pieces : Pieces) :
    characters (piece :: pieces) = piece.characters ++ characters pieces :=
  List.flatMap_cons

theorem own_append
    {c : Char} (own : isOwn c = true) (pieces : Pieces) (rest : List Char) :
    characters (.own c own :: pieces) ++ rest =
      c :: (characters pieces ++ rest) := by
  simp [Piece.characters]

theorem letter_append
    {c : Char} {code : Nat} (stands : letterCode? c = some code)
    (pieces : Pieces) (rest : List Char) :
    characters (.letter c code stands :: pieces) ++ rest =
      '\\' :: c :: (characters pieces ++ rest) := by
  simp [Piece.characters]

theorem unit_append
    {a b c d : Char} {code : Nat}
    (stands : hexNumber? [a, b, c, d] = some code)
    (pieces : Pieces) (rest : List Char) :
    characters (.unit a b c d code stands :: pieces) ++ rest =
      '\\' :: 'u' :: a :: b :: c :: d :: (characters pieces ++ rest) := by
  simp [Piece.characters]

@[simp]
theorem codes_cons (piece : Piece) (pieces : Pieces) :
    codes (piece :: pieces) = piece.code :: codes pieces :=
  rfl

end Pieces

variable {body rest text : List Char} {pieces : Pieces}

/-! ## Halves of characters -/

/-- A number that is half of no pair makes a character alone. -/
theorem joinHalves_single
    {code : Nat} {codes : List Nat}
    (single :
      isHighSurrogate code = true →
        ∀ next, codes.head? = some next → isLowSurrogate next = false) :
    Yaml.joinHalves (code :: codes) =
      unitCharacter code :: Yaml.joinHalves codes := by
  have alone :
      unitCharacter code =
        if Yaml.isFirstHalf code || Yaml.isSecondHalf code then
          Char.ofNat 0xFFFD
        else Char.ofNat code :=
    rfl
  cases codes with
  | nil => rw [Yaml.joinHalves, alone]; rfl
  | cons next others =>
    have noPair :
        ¬ (Yaml.isFirstHalf code && Yaml.isSecondHalf next) = true := by
      rw [Bool.and_eq_true]
      rintro ⟨first, second⟩
      cases second.symm.trans (single first next rfl)
    rw [Yaml.joinHalves, if_neg noPair, alone]
    split <;> rfl

theorem joinHalves_pair
    {high low : Nat} (first : isHighSurrogate high = true)
    (second : isLowSurrogate low = true) (codes : List Nat) :
    Yaml.joinHalves (high :: low :: codes) =
      Char.ofNat (0x10000 + (high - 0xD800) * 1024 + (low - 0xDC00)) ::
        Yaml.joinHalves codes := by
  have pair : (Yaml.isFirstHalf high && Yaml.isSecondHalf low) = true :=
    Bool.and_eq_true_iff.2 ⟨first, second⟩
  rw [Yaml.joinHalves, if_pos pair]

/-- A character is no half of a pair. -/
theorem isLowSurrogate_toNat (c : Char) : isLowSurrogate c.toNat = false := by
  have valid := c.valid
  simp only [UInt32.isValidChar, Nat.isValidChar] at valid
  rw [isLowSurrogate, Bool.and_eq_false_iff, decide_eq_false_iff_not,
    decide_eq_false_iff_not]
  change ¬ 0xDC00 ≤ c.val.toNat ∨ ¬ c.val.toNat < 0xE000
  omega

theorem isHighSurrogate_toNat (c : Char) :
    isHighSurrogate c.toNat = false := by
  have valid := c.valid
  simp only [UInt32.isValidChar, Nat.isValidChar] at valid
  rw [isHighSurrogate, Bool.and_eq_false_iff, decide_eq_false_iff_not,
    decide_eq_false_iff_not]
  change ¬ 0xD800 ≤ c.val.toNat ∨ ¬ c.val.toNat < 0xDC00
  omega

/-- An escape by a letter stands for a basic character. -/
theorem lt_of_letterCode?
    {c : Char} {code : Nat} (stands : letterCode? c = some code) :
    code < 128 := by
  unfold letterCode? at stands
  split at stands <;> cases stands <;> decide

theorem isLowSurrogate_of_letterCode?
    {c : Char} {code : Nat} (stands : letterCode? c = some code) :
    isLowSurrogate code = false := by
  have small := lt_of_letterCode? stands
  rw [isLowSurrogate, Bool.and_eq_false_iff, decide_eq_false_iff_not]
  omega

theorem isHighSurrogate_of_letterCode?
    {c : Char} {code : Nat} (stands : letterCode? c = some code) :
    isHighSurrogate code = false := by
  have small := lt_of_letterCode? stands
  rw [isHighSurrogate, Bool.and_eq_false_iff, decide_eq_false_iff_not]
  omega

theorem unitCharacter_toNat (c : Char) : unitCharacter c.toNat = c := by
  rw [unitCharacter, isHighSurrogate_toNat, isLowSurrogate_toNat]
  exact Char.ofNat_toNat c

theorem joinHalves_own
    {c : Char} (own : isOwn c = true) (pieces : Pieces) :
    Yaml.joinHalves (Pieces.codes (.own c own :: pieces)) =
      c :: Yaml.joinHalves pieces.codes := by
  rw [Pieces.codes_cons, Piece.code, joinHalves_single, unitCharacter_toNat]
  intro high
  cases high.symm.trans (isHighSurrogate_toNat c)

theorem joinHalves_letter
    {c : Char} {code : Nat} (stands : letterCode? c = some code)
    (pieces : Pieces) :
    Yaml.joinHalves (Pieces.codes (.letter c code stands :: pieces)) =
      unitCharacter code :: Yaml.joinHalves pieces.codes := by
  refine joinHalves_single fun high => ?_
  cases high.symm.trans (isHighSurrogate_of_letterCode? stands)

/-- Only an escape by a number stands for half of a pair. -/
theorem exists_unit_of_isLowSurrogate
    {next : Nat} (first : pieces.codes.head? = some next)
    (low : isLowSurrogate next = true) :
    ∃ a b c d stands others,
      pieces = .unit a b c d next stands :: others := by
  rcases pieces with - | ⟨piece, others⟩
  · cases first
  · cases first
    cases piece with
    | own c own => cases low.symm.trans (isLowSurrogate_toNat c)
    | letter c code stands =>
      cases low.symm.trans (isLowSurrogate_of_letterCode? stands)
    | unit a b c d code stands => exact ⟨a, b, c, d, stands, others, rfl⟩

/-! ## Reading -/

/-- Characters that belong to an escape are left out. -/
theorem readText_skipped (skipped : Nat) (characters : List Char) :
    readText body skipped characters =
      readText body 0 (characters.drop skipped) := by
  induction skipped generalizing characters with
  | zero => rfl
  | succ skipped ih =>
    cases characters with
    | nil => rfl
    | cons c behind => exact ih behind

theorem readText_own {c : Char} (own : isOwn c = true) (behind : List Char) :
    readText body 0 (c :: behind) =
      (readText body 0 behind).map fun found => (c :: found.1, found.2) := by
  rw [isOwn, Bool.and_eq_true, Bool.and_eq_true, bne_iff_ne, bne_iff_ne,
    decide_eq_true_eq] at own
  rw [readText, if_neg own.1.1, if_neg own.1.2, if_neg (by omega)]

theorem readText_escape
    {behind : List Char} {character : Char} {used : Nat}
    (read : escape body behind = .ok (character, used)) :
    readText body 0 ('\\' :: behind) =
      (readText body 0 (behind.drop used)).map fun found =>
        (character :: found.1, found.2) := by
  rw [readText, if_neg (by decide), if_pos rfl, read]
  dsimp only
  rw [readText_skipped]

theorem escape_letter
    {c : Char} {code : Nat} (stands : letterCode? c = some code)
    (behind : List Char) :
    escape body (c :: behind) = .ok (unitCharacter code, 1) := by
  unfold letterCode? at stands
  split at stands <;> cases stands <;> rfl

/-- An escape by a letter that is read is one of those that stand for a number. -/
theorem exists_code_of_escape
    {c : Char} {behind : List Char} {found : Char × Nat}
    (noNumber : c ≠ 'u') (read : escape body (c :: behind) = .ok found) :
    ∃ code, letterCode? c = some code ∧ found = (unitCharacter code, 1) := by
  cases stands : letterCode? c with
  | some code =>
    rw [escape_letter stands] at read
    cases read
    exact ⟨code, rfl, rfl⟩
  | none =>
    unfold letterCode? at stands
    split at stands
    all_goals try cases stands
    rw [escape.eq_def] at read
    split at read
    all_goals simp_all

/-- Only an escape by a number begins with the letter for numbers. -/
theorem exists_unit_of_characters
    {second : List Char}
    (written :
      pieces.characters ++ '"' :: rest = '\\' :: 'u' :: second) :
    ∃ a b c d code stands others,
      pieces = .unit a b c d code stands :: others := by
  rcases pieces with - | ⟨piece, others⟩
  · cases written
  · cases piece with
    | own c own =>
      have same : c = '\\' := (List.cons.inj written).1
      subst same
      cases own
    | letter c code stands =>
      have same : c = 'u' := (List.cons.inj (List.cons.inj written).2).1
      subst same
      cases stands
    | unit a b c d code stands => exact ⟨a, b, c, d, code, stands, others, rfl⟩

section Unit

variable {a b c d : Char} {code : Nat}

/-- The digits of an escape do not end the text, for its quote is behind. -/
theorem isEmpty_drop_digits (inside rest : List Char) :
    ((a :: b :: c :: d :: (inside ++ '"' :: rest)).drop 4).isEmpty =
      false := by
  simp

/-- A number that makes a character alone is read alone. -/
theorem escape_unit_single
    (stands : hexNumber? [a, b, c, d] = some code)
    (single :
      isHighSurrogate code = true →
        ∀ next, pieces.codes.head? = some next → isLowSurrogate next = false) :
    escape body
        ('u' :: a :: b :: c :: d :: (pieces.characters ++ '"' :: rest)) =
      .ok (unitCharacter code, 5) := by
  have number :
      hexNumber? (a :: b :: c :: d :: (pieces.characters ++ '"' :: rest)) =
        some code :=
    stands
  rw [escape, unicodeEscape, isEmpty_drop_digits,
    if_neg Bool.false_ne_true, number]
  dsimp only
  cases high : isHighSurrogate code with
  | false => rfl
  | true =>
    rw [if_neg (by decide)]
    split
    · next second written =>
      rcases exists_unit_of_characters written with
        ⟨e, f, g, h, low, standsLow, others, rfl⟩
      rw [Pieces.unit_append] at written
      cases written
      have numberLow :
          hexNumber?
              (e :: f :: g :: h :: (Pieces.characters others ++ '"' :: rest)) =
            some low :=
        standsLow
      have noLow : isLowSurrogate low = false := single high low rfl
      simp only [isEmpty_drop_digits, numberLow, noLow, Bool.false_eq_true,
        if_false]
    · rfl

/-- Two halves next to each other are read as one character. -/
theorem escape_unit_pair
    {e f g h : Char} {low : Nat} {others : Pieces}
    (stands : hexNumber? [a, b, c, d] = some code)
    (high : isHighSurrogate code = true)
    (standsLow : hexNumber? [e, f, g, h] = some low)
    (isLow : isLowSurrogate low = true) :
    escape body
        ('u' :: a :: b :: c :: d :: '\\' :: 'u' :: e :: f :: g :: h ::
          (others.characters ++ '"' :: rest)) =
      .ok
        (Char.ofNat (0x10000 + (code - 0xD800) * 1024 + (low - 0xDC00)),
          11) := by
  have number (behind : List Char) :
      hexNumber? (a :: b :: c :: d :: behind) = some code :=
    stands
  have numberLow (behind : List Char) :
      hexNumber? (e :: f :: g :: h :: behind) = some low :=
    standsLow
  have noEnd : ¬ (others.characters ++ '"' :: rest).isEmpty = true := by
    simp
  rw [escape, unicodeEscape, number, if_neg (by simp)]
  dsimp only
  rw [high, if_neg (by decide)]
  simp only [List.drop_succ_cons, List.drop_zero]
  rw [if_neg noEnd, numberLow]
  dsimp only
  rw [if_pos isLow]

end Unit

/-- The pieces in front of a quote are read as the text that they write. -/
theorem readText_characters (body rest : List Char) :
    (pieces : Pieces) →
      readText body 0 (Pieces.characters pieces ++ '"' :: rest) =
        .ok (Yaml.joinHalves (Pieces.codes pieces), rest)
  | [] => rfl
  | .own c own :: others => by
    rw [Pieces.own_append, readText_own own,
      readText_characters body rest others, joinHalves_own]
    rfl
  | .letter c code stands :: others => by
    rw [Pieces.letter_append, readText_escape (escape_letter stands _),
      List.drop_one, List.tail_cons, readText_characters body rest others,
      joinHalves_letter]
    rfl
  | .unit a b c d code stands :: others => by
    by_cases single :
      isHighSurrogate code = true →
        ∀ next, (Pieces.codes others).head? = some next → isLowSurrogate next = false
    · rw [Pieces.unit_append,
        readText_escape (escape_unit_single stands single), Pieces.codes_cons, Piece.code, joinHalves_single single]
      simp only [List.drop_succ_cons, List.drop_zero]
      rw [readText_characters body rest others]
      rfl
    · push Not at single
      rcases single with ⟨high, next, first, low⟩
      rw [Bool.ne_false_iff] at low
      rcases exists_unit_of_isLowSurrogate first low with
        ⟨e, f, g, h, standsLow, behind, rfl⟩
      rw [Pieces.unit_append, Pieces.unit_append,
        readText_escape (escape_unit_pair stands high standsLow low),
        Pieces.codes_cons, Pieces.codes_cons, Piece.code, Piece.code,
        joinHalves_pair high low]
      simp only [List.drop_succ_cons, List.drop_zero]
      rw [readText_characters body rest behind]
      rfl
termination_by pieces => pieces.length

/-! ## What is read -/

/-- A number is read from four digits at the front. -/
theorem exists_digits_of_hexNumber?
    {characters : List Char} {code : Nat}
    (read : hexNumber? characters = some code) :
    ∃ a b c d behind,
      characters = a :: b :: c :: d :: behind ∧
        hexNumber? [a, b, c, d] = some code := by
  unfold hexNumber? at read
  split at read
  · exact ⟨_, _, _, _, _, rfl, read⟩
  · cases read

/-- What an escape by a number is read as: a character alone, or two halves. -/
inductive ReadUnit
    (behind : List Char) (code : Nat) (c : Char) (used : Nat) : Prop where
  | single (alone : c = unitCharacter code) (count : used = 5)
      (single :
        isHighSurrogate code = true →
          ∀ second, behind = '\\' :: 'u' :: second →
            (second.drop 4).isEmpty = true ∨
              ∃ low, hexNumber? second = some low ∧
                isLowSurrogate low = false)
  | pair {e f g h : Char} {low : Nat} {second : List Char}
      (high : isHighSurrogate code = true)
      (written : behind = '\\' :: 'u' :: e :: f :: g :: h :: second)
      (stands : hexNumber? [e, f, g, h] = some low)
      (isLow : isLowSurrogate low = true)
      (joined :
        c =
          Char.ofNat (0x10000 + (code - 0xD800) * 1024 + (low - 0xDC00)))
      (count : used = 11)

theorem exists_readUnit_of_unicodeEscape
    {characters : List Char} {character : Char} {used : Nat}
    (read : unicodeEscape characters = .ok (character, used)) :
    ∃ a b c d behind code,
      characters = a :: b :: c :: d :: behind ∧
        hexNumber? [a, b, c, d] = some code ∧
        ReadUnit behind code character used := by
  rw [unicodeEscape] at read
  split at read
  · cases read
  · split at read
    · cases read
    · next code number =>
      rcases exists_digits_of_hexNumber? number with
        ⟨a, b, c, d, behind, rfl, stands⟩
      refine ⟨a, b, c, d, behind, code, rfl, stands, ?_⟩
      dsimp only at read
      simp only [List.drop_succ_cons, List.drop_zero] at read
      split at read
      · next noHigh =>
        cases read
        refine .single rfl rfl fun high => ?_
        rw [high] at noHigh
        cases noHigh
      · next high =>
        rw [Bool.not_eq_true', Bool.not_eq_false] at high
        split at read
        · next second =>
          split at read
          · next ended =>
            cases read
            refine .single rfl rfl fun _ other same => ?_
            cases same
            exact Or.inl ended
          · split at read
            · cases read
            · next low numberLow =>
              split at read
              · next isLow =>
                rcases exists_digits_of_hexNumber? numberLow with
                  ⟨e, f, g, h, third, rfl, standsLow⟩
                have same := Prod.mk.inj (Except.ok.inj read)
                exact
                  .pair high rfl standsLow isLow same.1.symm same.2.symm
              · next noLow =>
                cases read
                refine .single rfl rfl fun _ other same => ?_
                cases same
                exact Or.inr ⟨low, numberLow, Bool.eq_false_iff.2 noLow⟩
        · next other =>
          cases read
          refine .single rfl rfl fun _ second same => ?_
          exact (other second same).elim

/-- A character that is read alone is no half in front of another half. -/
theorem ReadUnit.single_of_pieces
    {code : Nat} {pieces : Pieces}
    (single :
      isHighSurrogate code = true →
        ∀ second,
          pieces.characters ++ '"' :: rest = '\\' :: 'u' :: second →
            (second.drop 4).isEmpty = true ∨
              ∃ low, hexNumber? second = some low ∧
                isLowSurrogate low = false)
    (high : isHighSurrogate code = true) (next : Nat)
    (first : pieces.codes.head? = some next) :
    isLowSurrogate next = false := by
  rw [Bool.eq_false_iff]
  intro low
  rcases exists_unit_of_isLowSurrogate first low with
    ⟨a, b, c, d, stands, others, rfl⟩
  rcases single high _ (Pieces.unit_append stands others ('"' :: rest)) with
    ended | ⟨other, number, noLow⟩
  · rw [isEmpty_drop_digits] at ended
    cases ended
  · cases stands.symm.trans number
    cases low.symm.trans noLow

/-- An escape that is read in front of pieces is one more of them, or two. -/
theorem exists_pieces_of_escape
    {others : List Char} {c : Char} {used : Nat}
    (read : escape body others = .ok (c, used))
    (behind : others.drop used = pieces.characters ++ '"' :: rest) :
    ∃ more : Pieces,
      '\\' :: others = more.characters ++ '"' :: rest ∧
        c :: Yaml.joinHalves pieces.codes = Yaml.joinHalves more.codes := by
  cases others with
  | nil => cases read
  | cons letter after =>
    by_cases number : letter = 'u'
    · subst number
      rcases exists_readUnit_of_unicodeEscape read with
        ⟨a, b, c, d, last, code, rfl, stands, unit⟩
      cases unit with
      | single alone count single =>
        subst alone count
        simp only [List.drop_succ_cons, List.drop_zero] at behind
        subst behind
        refine ⟨.unit a b c d code stands :: pieces, ?_, ?_⟩
        · rw [Pieces.unit_append]
        · exact
            (joinHalves_single (ReadUnit.single_of_pieces single)).symm
      | @pair e f g h low second high same standsLow isLow joined count =>
        subst same
        rw [count] at behind
        simp only [List.drop_succ_cons, List.drop_zero] at behind
        subst behind
        refine
          ⟨.unit a b c d code stands ::
            .unit e f g h low standsLow :: pieces, ?_, ?_⟩
        · rw [Pieces.unit_append, Pieces.unit_append]
        · rw [joined]
          exact (joinHalves_pair high isLow pieces.codes).symm
    · rcases exists_code_of_escape number read with ⟨code, stands, same⟩
      cases same
      rw [List.drop_one, List.tail_cons] at behind
      subst behind
      refine ⟨.letter letter code stands :: pieces, ?_, ?_⟩
      · rw [Pieces.letter_append]
      · exact (joinHalves_letter stands pieces).symm

/--
What is read up to a quote is the text of pieces.  An escape takes several
characters, so the induction is on the number of characters.
-/
theorem exists_pieces_of_readText
    {characters : List Char} {found : List Char × List Char}
    (read : readText body 0 characters = .ok found) :
    ∃ pieces : Pieces,
      characters = pieces.characters ++ '"' :: found.2 ∧
        found.1 = Yaml.joinHalves pieces.codes := by
  induction length : characters.length using Nat.strongRecOn
    generalizing characters found with
  | ind count ih =>
    cases characters with
    | nil => cases read
    | cons c others =>
      rw [List.length_cons] at length
      by_cases quote : c = '"'
      · subst quote
        cases read
        exact ⟨[], rfl, rfl⟩
      by_cases escaped : c = '\\'
      · subst escaped
        cases escapeRead : escape body others with
        | error stop =>
          rw [readText, if_neg (by decide), if_pos rfl, escapeRead] at read
          cases read
        | ok result =>
          rw [readText_escape escapeRead] at read
          rcases exists_of_map_eq_ok read with ⟨part, readPart, rfl⟩
          have shorter : (others.drop result.2).length < count := by
            rw [List.length_drop]
            omega
          rcases ih _ shorter readPart rfl with ⟨pieces, written, text⟩
          rcases exists_pieces_of_escape escapeRead written with
            ⟨more, whole, joined⟩
          exact ⟨more, whole, by rw [text, joined]⟩
      · by_cases control : c.toNat < 0x20
        · rw [readText, if_neg quote, if_neg escaped, if_pos control] at read
          cases read
        · have own : isOwn c = true := by
            rw [isOwn, Bool.and_eq_true, Bool.and_eq_true, bne_iff_ne,
              bne_iff_ne, decide_eq_true_eq]
            exact ⟨⟨quote, escaped⟩, Nat.not_lt.1 control⟩
          rw [readText_own own] at read
          rcases exists_of_map_eq_ok read with ⟨part, readPart, rfl⟩
          have shorter : others.length < count := by omega
          rcases ih _ shorter readPart rfl with ⟨pieces, rfl, text⟩
          refine ⟨.own c own :: pieces, rfl, ?_⟩
          rw [text, joinHalves_own]

end ApiAtlas.Json
