import ApiAtlas.Proofs.Json.Written
import ApiAtlas.Yaml.TokenStream
import Mathlib.Data.List.Chain

/-!
# Scalars at a cursor

What is left of a text is all that the reading of a scalar depends on.  A text
in double quotes whose line breaks are kept is read as its pieces say, or the
document is refused because it seems to end there; a word or a number inside
of brackets is taken as a whole, with the gap behind it as far as it has no
tab.
-/

namespace ApiAtlas

/-! ## Cursors -/

namespace Yaml.Cursor

@[simp]
theorem rest_step (cursor : Cursor) : cursor.step.rest = cursor.rest.tail := by
  rw [step.eq_def]
  split
  · next empty => rw [empty]; rfl
  · next c rest form =>
    split
    · rw [form]; rfl
    · split <;> rw [form] <;> rfl

@[simp]
theorem rest_advance (count : Nat) (cursor : Cursor) :
    (cursor.advance count).rest = cursor.rest.drop count := by
  induction count generalizing cursor with
  | zero => rfl
  | succ count ih => rw [advance, ih, rest_step, List.drop_tail]

@[simp]
theorem rest_skip (test : Char → Bool) (cursor : Cursor) :
    (cursor.skip test).rest = cursor.rest.dropWhile test := by
  have parts :
      (cursor.rest.takeWhile test ++ cursor.rest.dropWhile test).drop
          (cursor.rest.takeWhile test).length =
        cursor.rest.dropWhile test :=
    List.drop_left
  rw [List.takeWhile_append_dropWhile] at parts
  rw [skip, rest_advance, run, parts]

theorem current_of_rest
    {cursor : Cursor} {c : Char} {behind : List Char}
    (rest : cursor.rest = c :: behind) : cursor.current = c := by
  rw [current, rest]
  rfl

end Yaml.Cursor

/-! ## Pieces and line breaks -/

namespace Json

/-- A line break that is a character of its own wherever it stands. -/
def isSeparator (c : Char) : Bool := c.toNat == 0x2028 || c.toNat == 0x2029

namespace Piece

/-- Whether a piece is a space. -/
def isSpace : Piece → Bool
  | own c _ => c == ' '
  | _ => false

/-- Whether a piece is a line break that is not kept. -/
def isNextLine : Piece → Bool
  | own c _ => c.toNat == 0x85
  | _ => false

/-- Whether a piece is a line break that is kept. -/
def isSeparator : Piece → Bool
  | own c _ => Json.isSeparator c
  | _ => false

/-- Whether a piece stands for half a character. -/
def isHalf (piece : Piece) : Bool :=
  isHighSurrogate piece.code || isLowSurrogate piece.code

/-- Whether two pieces are not a space and a line break next to each other. -/
def Apart (one next : Piece) : Prop :=
  ¬ (one.isSpace = true ∧ next.isSeparator = true) ∧
    ¬ (one.isSeparator = true ∧ next.isSpace = true)

instance (one next : Piece) : Decidable (Apart one next) :=
  inferInstanceAs (Decidable (_ ∧ _))

end Piece

/--
Whether a text means the same however its line breaks are seen: it holds no
line break that would be folded into a space, and no white space around line
breaks that would be dropped.
-/
structure Pieces.IsSteady (pieces : Pieces) : Prop where
  noNextLine : ∀ piece ∈ pieces, piece.isNextLine = false
  apart : pieces.IsChain Piece.Apart

end Json

namespace Yaml

open Json (Gap Piece Pieces)

/-! ## Texts in double quotes -/

section Quoted

variable {rest : List Char} {pieces others : Pieces} {cursor : Cursor}

/-- The pieces that are left at a cursor, in front of the closing quote. -/
def AtPieces (pieces : Pieces) (rest : List Char) (cursor : Cursor) : Prop :=
  cursor.rest = pieces.characters ++ '"' :: rest

/-- A piece that is no space begins with no white space. -/
theorem isSpacing_head
    (noSpace : ∀ piece, pieces.head? = some piece → piece.isSpace = false)
    (rest : List Char) :
    ∃ c behind,
      pieces.characters ++ '"' :: rest = c :: behind ∧ isSpacing c = false := by
  rcases pieces with - | ⟨piece, others⟩
  · exact ⟨'"', rest, rfl, by decide⟩
  · cases piece with
    | own c own =>
      refine ⟨c, _, rfl, ?_⟩
      have other : c ≠ ' ' := by
        simpa [Piece.isSpace] using noSpace _ rfl
      rw [isSpacing, Bool.or_eq_false_iff, beq_eq_false_iff_ne,
        beq_eq_false_iff_ne]
      refine ⟨other, ?_⟩
      rintro rfl
      cases own
    | letter c code stands => exact ⟨'\\', _, rfl, by decide⟩
    | unit a b c d code stands => exact ⟨'\\', _, rfl, by decide⟩

/-- The white space at the front of pieces is their spaces. -/
theorem takeWhile_isSpacing (pieces : Pieces) (rest : List Char) :
    (pieces.characters ++ '"' :: rest).takeWhile isSpacing =
        Pieces.characters (pieces.takeWhile Piece.isSpace) ∧
      (pieces.characters ++ '"' :: rest).dropWhile isSpacing =
        Pieces.characters (pieces.dropWhile Piece.isSpace) ++ '"' :: rest := by
  induction pieces with
  | nil => exact ⟨rfl, rfl⟩
  | cons piece others ih =>
    cases space : piece.isSpace with
    | true =>
      cases piece with
      | own c own =>
        rw [Piece.isSpace, beq_iff_eq] at space
        subst space
        rw [List.takeWhile_cons_of_pos rfl, List.dropWhile_cons_of_pos rfl,
          Pieces.characters_cons, Pieces.characters_cons, ← ih.2]
        refine ⟨?_, rfl⟩
        rw [← ih.1]
        rfl
      | letter c code stands => cases space
      | unit a b c d code stands => cases space
    | false =>
      have noSpace :
          ∀ first, List.head? (piece :: others) = some first →
            first.isSpace = false := by
        rintro first ⟨⟩
        exact space
      rcases isSpacing_head noSpace rest with
        ⟨c, behind, form, noSpacing⟩
      rw [List.takeWhile_cons_of_neg (by simp [space]),
        List.dropWhile_cons_of_neg (by simp [space]), form,
        List.takeWhile_cons_of_neg (by simp [noSpacing]),
        List.dropWhile_cons_of_neg (by simp [noSpacing])]
      exact ⟨rfl, rfl⟩

/-- Spaces stand for themselves. -/
theorem codesOf_spaces
    (spaces : ∀ piece ∈ pieces, piece.isSpace = true) :
    codesOf pieces.characters = pieces.codes := by
  induction pieces with
  | nil => rfl
  | cons piece others ih =>
    rw [List.forall_mem_cons] at spaces
    cases piece with
    | own c own => exact congrArg (c.toNat :: ·) (ih spaces.2)
    | letter c code stands => cases spaces.1
    | unit a b c d code stands => cases spaces.1

/-- A line ends in front of pieces only where its end is kept. -/
theorem exists_separator_of_atBreak
    (steady : pieces.IsSteady) (place : AtPieces pieces rest cursor)
    (isBreak : cursor.atBreak = true) :
    ∃ c own others,
      pieces = .own c own :: others ∧ Json.isSeparator c = true ∧
        breakText cursor.current = c ∧ AtPieces others rest cursor.step := by
  rcases pieces with - | ⟨piece, others⟩
  · rw [Cursor.atBreak, Cursor.current_of_rest place] at isBreak
    cases isBreak
  · cases piece with
    | own c own =>
      have current : cursor.current = c := Cursor.current_of_rest place
      have noNextLine := steady.noNextLine _ List.mem_cons_self
      have visible := own
      rw [Cursor.atBreak, current] at isBreak
      rw [Piece.isNextLine, beq_eq_false_iff_ne] at noNextLine
      simp only [Json.isOwn, Bool.and_eq_true, decide_eq_true_eq] at visible
      simp only [Yaml.isBreak, Bool.or_eq_true, beq_iff_eq] at isBreak
      have separator : c.toNat = 0x2028 ∨ c.toNat = 0x2029 := by omega
      refine ⟨c, own, others, rfl, ?_, ?_, ?_⟩
      · simpa [Json.isSeparator] using separator
      · rw [current]
        exact if_pos (by simpa using separator)
      · rw [AtPieces, Cursor.rest_step, place]
        rfl
    | letter d code stands =>
      rw [Cursor.atBreak, Cursor.current_of_rest place] at isBreak
      cases isBreak
    | unit a b e d code stands =>
      rw [Cursor.atBreak, Cursor.current_of_rest place] at isBreak
      cases isBreak

/-- What is behind some pieces is as steady as they are. -/
theorem IsSteady.behind {group : Pieces}
    (steady : Pieces.IsSteady (group ++ others)) : Pieces.IsSteady others :=
  ⟨fun piece inside =>
      steady.noNextLine piece (List.mem_append_right group inside),
    steady.apart.right_of_append⟩

theorem IsSteady.tail {piece : Piece}
    (steady : Pieces.IsSteady (piece :: others)) : Pieces.IsSteady others := by
  rw [← List.singleton_append] at steady
  exact IsSteady.behind steady

/-- No space is behind a line break that is kept. -/
theorem IsSteady.noSpace_behind
    {c : Char} {own : Json.isOwn c = true}
    (steady : Pieces.IsSteady (.own c own :: others))
    (separator : Json.isSeparator c = true) (piece : Piece)
    (first : others.head? = some piece) : piece.isSpace = false := by
  rw [Bool.eq_false_iff]
  intro space
  exact
    ((List.isChain_cons.1 steady.apart).1 piece first).2 ⟨separator, space⟩

/-- No space is in front of a line break that is kept. -/
theorem IsSteady.eq_nil_of_spaces
    {spaces : Pieces}
    (steady : Pieces.IsSteady (spaces ++ others))
    (each : ∀ piece ∈ spaces, piece.isSpace = true)
    {next : Piece} (first : others.head? = some next)
    (separator : next.isSeparator = true) : spaces = [] := by
  rcases List.eq_nil_or_concat' spaces with none | ⟨before, last, rfl⟩
  · exact none
  · have space := each last List.mem_concat_self
    have apart := (List.isChain_append.1 steady.apart).2.2
    rw [List.getLast?_concat] at apart
    exact ((apart last rfl next first).1 ⟨space, separator⟩).elim

/--
That some of the pieces at the front have been read as what they stand for, or
that the document is refused.
-/
def TakesPieces (pieces : Pieces) (rest : List Char)
    (result : Except Rejection CodesRead) : Prop :=
  result = .error .malformed ∨
    ∃ group others next,
      pieces = group ++ others ∧ result = .ok (group.codes, next) ∧
        AtPieces others rest next

/-- Line breaks that are kept are read where no space is in front of them. -/
theorem quotedBreaks_pieces
    (rounds : Rounds) (breaks : List Char) {pieces : Pieces}
    (steady : pieces.IsSteady)
    (noSpace : ∀ piece, pieces.head? = some piece → piece.isSpace = false)
    {cursor : Cursor} (place : AtPieces pieces rest cursor) :
    quotedBreaks rounds breaks cursor = .error .malformed ∨
      ∃ group others next,
        pieces = group ++ others ∧
          quotedBreaks rounds breaks cursor =
            .ok (group.characters.reverse ++ breaks, next) ∧
          codesOf group.characters = group.codes ∧
          AtPieces others rest next := by
  induction rounds generalizing breaks pieces cursor with
  | nil => exact Or.inr ⟨[], pieces, cursor, rfl, rfl, rfl, place⟩
  | cons round rounds ih =>
    have start : AtPieces pieces rest (cursor.skip isSpacing) := by
      rcases isSpacing_head noSpace rest with ⟨c, behind, form, noSpacing⟩
      rw [AtPieces, Cursor.rest_skip, place, form,
        List.dropWhile_cons_of_neg (by simp [noSpacing])]
    rw [quotedBreaks]
    split
    · exact Or.inl rfl
    · dsimp only
      split
      · next isBreak =>
        rcases exists_separator_of_atBreak steady start isBreak with
          ⟨c, own, others, rfl, separator, kept, next⟩
        rcases
              ih (c :: breaks) (IsSteady.tail steady)
              (IsSteady.noSpace_behind steady separator) next with
          refused | ⟨group, others, further, rfl, read, same, behind⟩
        · rw [kept]
          exact Or.inl refused
        · refine
            Or.inr ⟨.own c own :: group, others, further, rfl, ?_, ?_, behind⟩
          · rw [kept, read, Pieces.characters_cons, Piece.characters]
            simp
          · exact congrArg (c.toNat :: ·) same
      · exact Or.inr ⟨[], pieces, _, rfl, rfl, rfl, start⟩

theorem readQuotedBreaks_pieces
    (steady : pieces.IsSteady)
    (noSpace : ∀ piece, pieces.head? = some piece → piece.isSpace = false)
    (place : AtPieces pieces rest cursor) :
    readQuotedBreaks cursor = .error .malformed ∨
      ∃ group others next,
        pieces = group ++ others ∧
          readQuotedBreaks cursor = .ok (group.characters, next) ∧
          codesOf group.characters = group.codes ∧
          AtPieces others rest next := by
  rw [readQuotedBreaks]
  rcases quotedBreaks_pieces cursor.rounds [] steady noSpace place with
    refused | ⟨group, others, next, parts, read, same, behind⟩
  · rw [refused]
    exact Or.inl rfl
  · rw [read]
    refine Or.inr ⟨group, others, next, parts, ?_, same, behind⟩
    simp [Except.map]

/-- A line break that is kept is taken as it stands, with those behind it. -/
theorem foldBreaks_pieces
    (steady : pieces.IsSteady) (place : AtPieces pieces rest cursor)
    (isBreak : cursor.atBreak = true) :
    (∃ piece, pieces.head? = some piece ∧ piece.isSeparator = true) ∧
      TakesPieces pieces rest do
        let (further, next) ← readQuotedBreaks cursor.step
        return (codesOf (foldBreaks (breakText cursor.current) further), next) := by
  rcases exists_separator_of_atBreak steady place isBreak with
    ⟨c, own, others, rfl, separator, kept, step⟩
  refine ⟨⟨_, rfl, separator⟩, ?_⟩
  rcases
      readQuotedBreaks_pieces (IsSteady.tail steady)
        (IsSteady.noSpace_behind steady separator) step with
    refused | ⟨group, others, next, rfl, read, same, behind⟩
  · rw [refused]
    exact Or.inl rfl
  · have noLineFeed : c ≠ '\n' := by
      rintro rfl
      cases separator
    rw [read, kept]
    refine Or.inr ⟨.own c own :: group, others, next, rfl, ?_, behind⟩
    rw [Pieces.codes_cons, ← same]
    simp only [bind, Except.bind, foldBreaks, if_pos noLineFeed]
    rfl

/-- White space is taken as it stands. -/
theorem quotedSpace_pieces
    (steady : pieces.IsSteady) (place : AtPieces pieces rest cursor) :
    TakesPieces pieces rest (quotedSpace cursor) := by
  rcases takeWhile_isSpacing pieces rest with ⟨spaces, others⟩
  have parts :
      pieces.takeWhile Piece.isSpace ++ pieces.dropWhile Piece.isSpace =
        pieces :=
    List.takeWhile_append_dropWhile
  have each := List.all_eq_true.1 (List.all_takeWhile (p := Piece.isSpace)
    (l := pieces))
  have run : cursor.run isSpacing =
      Pieces.characters (pieces.takeWhile Piece.isSpace) := by
    rw [Cursor.run, place, spaces]
  have behind :
      AtPieces (pieces.dropWhile Piece.isSpace) rest
        (cursor.skip isSpacing) := by
    rw [AtPieces, Cursor.rest_skip, place, others]
  rw [quotedSpace]
  dsimp only
  split
  · exact Or.inl rfl
  · split
    · next isBreak =>
      rw [← parts] at steady
      rcases foldBreaks_pieces (IsSteady.behind steady) behind isBreak with
        ⟨⟨piece, first, separator⟩, taken⟩
      have noSpaces := IsSteady.eq_nil_of_spaces steady each first separator
      rw [noSpaces, List.nil_append] at parts
      rw [parts] at taken
      exact taken
    · refine Or.inr ⟨_, _, _, parts.symm, ?_, behind⟩
      rw [run, codesOf_spaces each]
      rfl

/-- A letter that stands for a character does so in both notations. -/
theorem letterEscape?_of_letterCode?
    {c : Char} {code : Nat} (stands : Json.letterCode? c = some code) :
    letterEscape? c = some code := by
  unfold Json.letterCode? at stands
  split at stands <;> cases stands <;> rfl

theorem toNat_lt_of_hexValue?
    {c : Char} {value : Nat} (stands : Json.hexValue? c = some value) :
    c.toNat < 128 := by
  have bound {last : Char} (le : c ≤ last) (small : last.toNat < 128) :
      c.toNat < 128 :=
    Nat.lt_of_le_of_lt (Char.le_def.1 le) small
  unfold Json.hexValue? at stands
  split at stands
  · next digit =>
    rw [Char.isDigit, Bool.and_eq_true, decide_eq_true_eq, decide_eq_true_eq]
      at digit
    have inside : c ≤ '9' := Char.le_def.2 digit.2
    exact bound inside (by decide)
  · split at stands
    · next small => exact bound small.2 (by decide)
    · split at stands
      · next capital => exact bound capital.2 (by decide)
      · cases stands

/-- A digit that has a value has it in both notations. -/
theorem hexDigit_of_hexValue?
    {c : Char} {value : Nat} (stands : Json.hexValue? c = some value) :
    isHexDigit c = true ∧ hexDigitValue c = value ∧ value < 16 := by
  have each :
      ∀ n < 128, ∀ value ∈ Json.hexValue? (Char.ofNat n),
        isHexDigit (Char.ofNat n) = true ∧
          hexDigitValue (Char.ofNat n) = value ∧ value < 16 := by
    decide
  have found := each c.toNat (toNat_lt_of_hexValue? stands)
  rw [Char.ofNat_toNat] at found
  exact found value stands

/-- Four digits stand for one number in both notations. -/
theorem hexNumber_of_hexNumber?
    {a b c d : Char} {code : Nat}
    (stands : Json.hexNumber? [a, b, c, d] = some code) :
    [a, b, c, d].all isHexDigit = true ∧ hexNumber [a, b, c, d] = code ∧
      code < 0x10000 := by
  simp only [Json.hexNumber?, Option.bind_eq_bind, Option.bind_eq_some_iff,
    Option.pure_def, Option.some.injEq] at stands
  rcases stands with ⟨w, first, x, second, y, third, z, fourth, rfl⟩
  rcases hexDigit_of_hexValue? first with ⟨digitA, rfl, boundA⟩
  rcases hexDigit_of_hexValue? second with ⟨digitB, rfl, boundB⟩
  rcases hexDigit_of_hexValue? third with ⟨digitC, rfl, boundC⟩
  rcases hexDigit_of_hexValue? fourth with ⟨digitD, rfl, boundD⟩
  refine ⟨?_, ?_, ?_⟩
  · simp [digitA, digitB, digitC, digitD]
  · simp [hexNumber]
  · omega

theorem quotedEscape_letter
    {c : Char} {code : Nat} (stands : Json.letterCode? c = some code)
    {behind : List Char} (letter : cursor.step.rest = c :: behind) :
    quotedEscape cursor = .ok ([code], cursor.step.step) := by
  rw [quotedEscape, Cursor.current_of_rest letter,
    letterEscape?_of_letterCode? stands]
  rfl

theorem quotedEscape_unit
    {a b c d : Char} {code : Nat}
    (stands : Json.hexNumber? [a, b, c, d] = some code)
    {behind : List Char}
    (written : cursor.step.rest = 'u' :: a :: b :: c :: d :: behind) :
    quotedEscape cursor = .ok ([code], cursor.step.step.advance 4) := by
  have digits : cursor.step.step.rest.take 4 = [a, b, c, d] := by
    rw [Cursor.rest_step, written]
    rfl
  have noLetter : letterEscape? 'u' = none := rfl
  have four : numberEscapeLength? 'u' = some 4 := rfl
  rcases hexNumber_of_hexNumber? stands with ⟨isHex, number, bound⟩
  have checked : checkedCode code = .ok code :=
    if_pos (Nat.lt_trans bound (by decide))
  rw [quotedEscape, Cursor.current_of_rest written]
  simp only [noLetter, four, digits, isHex, number, checked]
  rfl

/-- A piece is taken as what it stands for. -/
theorem doublePart_pieces
    {piece : Piece} (steady : Pieces.IsSteady (piece :: others))
    (place : AtPieces (piece :: others) rest cursor) :
    ∃ result, doublePart cursor = result.map some ∧
      TakesPieces (piece :: others) rest result := by
  have behind :
      AtPieces others rest (cursor.advance piece.characters.length) := by
    rw [AtPieces, Cursor.rest_advance, place, Pieces.characters_cons,
      List.append_assoc, List.drop_left]
  cases piece with
  | own c own =>
    have current : cursor.current = c := Cursor.current_of_rest place
    have visible := own
    simp only [Json.isOwn, Bool.and_eq_true, bne_iff_ne] at visible
    rw [doublePart, current, if_neg visible.1.1, if_neg visible.1.2]
    split
    · exact ⟨_, rfl, quotedSpace_pieces steady place⟩
    · exact
        ⟨.ok ([c.toNat], cursor.step), rfl,
          Or.inr ⟨[.own c own], others, _, rfl, rfl, behind⟩⟩
  | letter c code stands =>
    have current : cursor.current = '\\' := Cursor.current_of_rest place
    have letter :
        cursor.step.rest = c :: (Pieces.characters others ++ '"' :: rest) := by
      rw [Cursor.rest_step, place, Pieces.letter_append, List.tail_cons]
    rw [doublePart, current]
    refine ⟨_, rfl, ?_⟩
    rw [quotedEscape_letter stands letter]
    exact Or.inr ⟨[.letter c code stands], others, _, rfl, rfl, behind⟩
  | unit a b c d code stands =>
    have current : cursor.current = '\\' := Cursor.current_of_rest place
    have written :
        cursor.step.rest =
          'u' :: a :: b :: c :: d ::
            (Pieces.characters others ++ '"' :: rest) := by
      rw [Cursor.rest_step, place, Pieces.unit_append, List.tail_cons]
    rw [doublePart, current]
    refine ⟨_, rfl, ?_⟩
    rw [quotedEscape_unit stands written]
    exact Or.inr ⟨[.unit a b c d code stands], others, _, rfl, rfl, behind⟩

/-- The pieces up to the closing quote are taken as what they stand for. -/
theorem quotedFrom_pieces
    (rounds : Rounds) (codes : List Nat) {pieces : Pieces}
    (steady : pieces.IsSteady) {cursor : Cursor}
    (place : AtPieces pieces rest cursor) :
    quotedFrom doublePart rounds codes cursor = .error .malformed ∨
      ∃ behind,
        quotedFrom doublePart rounds codes cursor =
            .ok (pieces.codes.reverse ++ codes, behind) ∧
          behind.rest = rest := by
  induction rounds generalizing codes pieces cursor with
  | nil => exact Or.inl rfl
  | cons round rounds ih =>
    rw [quotedFrom]
    rcases pieces with - | ⟨piece, others⟩
    · have closed : doublePart cursor = .ok none := by
        rw [doublePart, Cursor.current_of_rest place]
        rfl
      rw [closed]
      refine Or.inr ⟨cursor.step, rfl, ?_⟩
      rw [Cursor.rest_step, place]
      rfl
    · rcases doublePart_pieces steady place with ⟨result, read, taken⟩
      rw [read]
      rcases taken with rfl | ⟨group, behind, next, parts, rfl, place⟩
      · exact Or.inl rfl
      · rw [parts] at steady ⊢
        have all : Pieces.codes (group ++ behind) =
            group.codes ++ Pieces.codes behind :=
          List.map_append
        rcases ih (group.codes.reverse ++ codes) (IsSteady.behind steady) place
          with refused | ⟨last, read, same⟩
        · exact Or.inl refused
        · refine Or.inr ⟨last, ?_, same⟩
          rw [all, List.reverse_append, List.append_assoc]
          exact read

/-- A text in double quotes is read as it is in the other notation. -/
theorem readQuoted_pieces
    (steady : pieces.IsSteady)
    (form : cursor.rest = pieces.quoted ++ rest) :
    readQuoted true cursor = .error .malformed ∨
      ∃ behind,
        readQuoted true cursor = .ok ⟨pieces.text, behind, false⟩ ∧
          behind.rest = rest := by
  have place : AtPieces pieces rest cursor.step := by
    rw [AtPieces, Cursor.rest_step, form, Pieces.quoted]
    simp
  rw [readQuoted]
  dsimp only
  rw [if_pos rfl]
  rcases quotedFrom_pieces cursor.rounds [] steady place with
    refused | ⟨behind, read, same⟩
  · rw [refused]
    exact Or.inl rfl
  · rw [read, List.append_nil]
    refine Or.inr ⟨behind, ?_, same⟩
    simp only [bind, Except.bind, List.reverse_reverse]
    rfl

end Quoted

/-! ## Gaps in front of tokens -/

section Gap

variable {tail : List Char} {cursor : Cursor}

/-- Whether a character in front of a token is passed over. -/
def isPassed (c : Char) : Bool := c == ' ' || c == '#' || isBreak c

/-- Whether nothing is passed over at the front of a text. -/
def Stops (tail : List Char) : Prop :=
  isPassed (tail.headD endMark) = false

/-- Whether nothing but a gap is in front of the rest of a text. -/
def AtGap (tail : List Char) (cursor : Cursor) : Prop :=
  ∃ gap : Gap, cursor.rest = gap.characters ++ tail

/-- At a gap there is a character of the gap, or it has come to its end. -/
theorem AtGap.current
    (place : AtGap tail cursor) :
    Json.isGap cursor.current = true ∨ cursor.rest = tail := by
  rcases place with ⟨⟨- | ⟨c, others⟩, each⟩, form⟩
  · exact Or.inr form
  · rw [Cursor.current_of_rest form]
    exact Or.inl (each c List.mem_cons_self)

theorem AtGap.step
    (stops : Stops tail) (place : AtGap tail cursor)
    (passed : isPassed cursor.current = true) : AtGap tail cursor.step := by
  rcases place with ⟨⟨- | ⟨c, others⟩, each⟩, form⟩
  · rw [Cursor.current, form] at passed
    cases stops.symm.trans passed
  · refine ⟨⟨others, (List.forall_mem_cons.1 each).2⟩, ?_⟩
    rw [Cursor.rest_step, form]
    rfl

theorem AtGap.skipSpaces
    (stops : Stops tail) (place : AtGap tail cursor) :
    AtGap tail cursor.skipSpaces := by
  rcases place with ⟨⟨characters, each⟩, form⟩
  rw [AtGap, Cursor.skipSpaces, Cursor.rest_skip, form]
  clear form
  induction characters with
  | nil =>
    refine ⟨⟨[], each⟩, ?_⟩
    cases tail with
    | nil => rfl
    | cons c behind =>
      have noSpace : (c == ' ') = false := by
        rw [Stops, isPassed, Bool.or_assoc, Bool.or_eq_false_iff] at stops
        exact stops.1
      exact List.dropWhile_cons_of_neg (by simp [noSpace])
  | cons c others ih =>
    rw [List.cons_append, List.dropWhile_cons]
    split
    · exact ih (List.forall_mem_cons.1 each).2
    · exact ⟨⟨c :: others, each⟩, rfl⟩

theorem AtGap.skipComment
    (stops : Stops tail) (place : AtGap tail cursor) :
    cursor.skipComment = cursor := by
  refine if_neg fun comment => ?_
  rcases place.current with gap | ended
  · rw [comment] at gap
    cases gap
  · rw [Cursor.current, ended] at comment
    rw [Stops, comment] at stops
    cases stops

theorem isPassed_of_isBreak {c : Char} (ends : isBreak c = true) :
    isPassed c = true := by
  rw [isPassed, ends, Bool.or_true]

/-! ## Plain scalars -/

/-- The characters of the words and numbers that both notations share. -/
def wordCharacters : List Char := "+-.0123456789Eaeflnrstu".toList

/-- Behind a plain scalar the place stays in the gap behind it. -/
theorem plainBreaks_gap
    (stops : Stops tail) (rounds : Rounds) (breaks : List Char)
    (place : AtGap tail cursor) :
    AtGap tail (plainBreaks rounds breaks cursor).2 := by
  induction rounds generalizing breaks cursor with
  | nil => exact place
  | cons round rounds ih =>
    rw [plainBreaks]
    split
    · next space =>
      refine ih breaks (place.step stops ?_)
      rw [space]
      rfl
    · split
      · next isBreak =>
        have next := place.step stops (isPassed_of_isBreak isBreak)
        dsimp only
        split
        · exact next
        · exact ih _ next
      · exact place

theorem plainSpace_gap (stops : Stops tail) (place : AtGap tail cursor) :
    AtGap tail (plainSpace cursor).cursor := by
  have behind := place.skipSpaces stops
  rw [plainSpace]
  dsimp only
  split
  · next isBreak =>
    have next := behind.step stops (isPassed_of_isBreak isBreak)
    split
    · exact next
    · have further :=
        plainBreaks_gap stops cursor.skipSpaces.step.rounds [] next
      split <;> next same => rw [same] at further; exact further
  · exact behind

/-- A word goes on up to the gap behind it. -/
theorem plainLengthFrom_word
    {word behind : List Char}
    (each : ∀ c ∈ word, ∀ next, endsPlain true c next = false)
    (ends : ∀ next, endsPlain true (behind.headD endMark) next = true)
    (count : Nat) :
    plainLengthFrom true count (word ++ behind) = count + word.length := by
  induction word generalizing count with
  | nil =>
    cases behind with
    | nil => rfl
    | cons c others => exact if_pos (ends _)
  | cons c others ih =>
    rw [List.forall_mem_cons] at each
    rw [List.cons_append, plainLengthFrom, each.1, if_neg Bool.false_ne_true,
      ih each.2, List.length_cons]
    omega

theorem endsPlain_wordCharacter
    {c : Char} (inside : c ∈ wordCharacters) (next : Char) :
    endsPlain true c next = false := by
  have each :
      ∀ c ∈ wordCharacters,
        isBlankOrEnd c = false ∧ (c == ':') = false ∧
          (c == '?' || isFlowIndicator c) = false :=
    List.all_iff_forall_prop.1 (by decide)
  rcases each c inside with ⟨noBlank, noColon, noIndicator⟩
  rw [endsPlain, noBlank, noColon, noIndicator]
  rfl

/-- A plain scalar in brackets ends at a gap and in front of an indicator. -/
theorem AtGap.endsPlain
    {d : Char} {behind : List Char} (place : AtGap (d :: behind) cursor)
    (indicator : isFlowIndicator d = true) (next : Char) :
    endsPlain true cursor.current next = true := by
  rcases place.current with gap | ended
  · simp only [Json.isGap, Bool.or_eq_true, beq_iff_eq] at gap
    rcases gap with ((same | same) | same) | same <;> rw [same] <;> rfl
  · rw [Cursor.current_of_rest ended, Yaml.endsPlain, indicator]
    simp

theorem stops_of_isFlowIndicator
    {d : Char} (indicator : isFlowIndicator d = true) (behind : List Char) :
    Stops (d :: behind) := by
  have each : ∀ d ∈ ",[]\x7b\x7d".toList, isPassed d = false :=
    List.all_iff_forall_prop.1 (by decide)
  exact each d (List.contains_iff_mem.1 indicator)

/-- A word inside of brackets is taken up to the gap behind it. -/
theorem readPlain_word
    {word : List Char} {d : Char} {behind : List Char}
    (each : ∀ c ∈ word, c ∈ wordCharacters)
    (indicator : isFlowIndicator d = true) (gap : Gap)
    (form : cursor.rest = word ++ (gap.characters ++ d :: behind))
    (least : Nat) :
    (readPlain true least cursor).text = String.ofList word ∧
      AtGap (d :: behind) (readPlain true least cursor).cursor := by
  have stops := stops_of_isFlowIndicator indicator behind
  have place : AtGap (d :: behind) (cursor.advance word.length) := by
    refine ⟨gap, ?_⟩
    rw [Cursor.rest_advance, form, List.drop_left]
  have length : plainLength true cursor.rest = word.length := by
    have ends := place.endsPlain indicator
    rw [Cursor.current, Cursor.rest_advance, form, List.drop_left] at ends
    rw [plainLength, form,
      plainLengthFrom_word
        (fun c inside => endsPlain_wordCharacter (each c inside)) ends,
      Nat.zero_add]
  have space := plainSpace_gap stops place
  have none :
      plainLength true (plainSpace (cursor.advance word.length)).cursor.rest =
        0 :=
    plainLengthFrom_word (List.forall_mem_nil _)
      (space.endsPlain indicator) 0
  rw [readPlain, Cursor.rounds, plainFrom]
  simp only [length, plainGoesOn, none]
  rw [if_neg (by simp)]
  refine ⟨?_, space⟩
  rw [form, List.take_left]
  simp

end Gap

end Yaml

end ApiAtlas
