import ApiAtlas.Endpoint.Content
import ApiAtlas.Proofs.Outcome

/-!
# The media type that is used

Two texts are the same in any letter case if their characters have the same
capital forms.  A text is looked at as a line: it ends in a word also if a
single line end follows the word.  The media type of some content that is used
is the first one that ends in the word `json`, or else the first one.
-/

namespace ApiAtlas

/-! ## Texts that end in a word -/

namespace Text

/-- Characters that end in a word in any letter case. -/
def EndIn (word characters : List Char) : Prop :=
  ∃ front tail,
    characters = front ++ tail ∧
      tail.map capitalForm = word.map capitalForm

/-- A text that ends in a word in any letter case. -/
def EndsIn (word text : String) : Prop := EndIn word.toList text.toList

/-- A text that ends in a word, or in the word and a line end. -/
def EndsInLine (word text : String) : Prop :=
  EndsIn word text ∨
    ∃ line, text.toList = line ++ ['\n'] ∧ EndIn word.toList line

/-- The letters of the words that media types end in. -/
def wordLetters : List Char := ['n', 'd', 'j', 's', 'o']

theorem mem_wordLetters {letter : Char} :
    letter ∈ wordLetters ↔
      letter = 'n' ∨ letter = 'd' ∨ letter = 'j' ∨ letter = 's' ∨
        letter = 'o' := by
  simp only [wordLetters, List.mem_cons, List.not_mem_nil, or_false]

/-- The basic characters that match one of these letters have its capital form. -/
theorem matchesLetter_iff_of_lt
    {letter : Char} (isLetter : letter ∈ wordLetters) :
    ∀ number < 128,
      matchesLetter letter (Char.ofNat number) = true ↔
        capitalForm (Char.ofNat number) = capitalForm letter := by
  rcases mem_wordLetters.1 isLetter with
    rfl | rfl | rfl | rfl | rfl <;> decide +kernel

/-- The capital form of each of these letters is its capital letter. -/
theorem capitalForm_wordLetter
    {letter : Char} (isLetter : letter ∈ wordLetters) :
    capitalForm letter = [letter.toUpper] ∧
      letter.toNat < 128 ∧ letter.toUpper.toNat < 128 ∧
      letter.toUpper ≠ 'I' ∧ letter ≠ 'k' ∧
      (letter.toUpper = 'S' ↔ letter = 's') := by
  rcases mem_wordLetters.1 isLetter with
    rfl | rfl | rfl | rfl | rfl <;> decide

theorem toLower_of_le {c : Char} (large : 128 ≤ c.toNat) : c.toLower = c := by
  have bound : ¬ c.val ≤ 'Z'.val := by
    rw [UInt32.le_iff_toNat_le]
    exact Nat.not_le.2 (Nat.lt_of_lt_of_le (by decide) large)
  exact dif_neg fun basic => bound basic.2

theorem toUpper_of_le {c : Char} (large : 128 ≤ c.toNat) : c.toUpper = c := by
  have bound : ¬ c.val ≤ 'z'.val := by
    rw [UInt32.le_iff_toNat_le]
    exact Nat.not_le.2 (Nat.lt_of_lt_of_le (by decide) large)
  exact dif_neg fun basic => bound basic.2

/--
A letter of these words is matched by the characters with its capital form: one
that is not basic is its own small and capital letter, but for the few whose
capital form is basic.
-/
theorem matchesLetter_iff
    {letter : Char} (isLetter : letter ∈ wordLetters) (c : Char) :
    matchesLetter letter c = true ↔ capitalForm c = capitalForm letter := by
  by_cases ascii : c.toNat < 128
  · have same := matchesLetter_iff_of_lt isLetter c.toNat ascii
    rw [Char.ofNat_toNat] at same
    exact same
  · have large : 128 ≤ c.toNat := Nat.le_of_not_lt ascii
    rcases capitalForm_wordLetter isLetter with
      ⟨form, small, capital, noI, noK, isS⟩
    have other : c ≠ letter := by
      rintro rfl
      exact ascii small
    have otherCapital : c ≠ letter.toUpper := by
      rintro rfl
      exact ascii capital
    rw [matchesLetter, toLower_of_le large, form, capitalForm]
    split <;>
      simp_all [toUpper_of_le large, eq_comm (a := 'S'), eq_comm (a := 'I')]

/-- A text without a line end at its end ends in a word as it stands. -/
theorem endsInLine_iff
    {word text : String} (noLineEnd : text.toList.getLast? ≠ some '\n') :
    EndsInLine word text ↔ EndsIn word text := by
  constructor
  · rintro (ends | ⟨line, isLine, -⟩)
    · exact ends
    · rw [isLine, List.getLast?_concat] at noLineEnd
      exact (noLineEnd rfl).elim
  · exact Or.inl

/-- Characters match a word letter by letter if they have its capital forms. -/
theorem all_matchesLetter_iff
    {word tail : List Char} (letters : word ⊆ wordLetters) :
    (tail.length = word.length ∧
        (word.zip tail).all (fun pair => matchesLetter pair.1 pair.2) = true) ↔
      tail.map capitalForm = word.map capitalForm := by
  induction word generalizing tail with
  | nil => cases tail <;> simp
  | cons letter rest ih =>
    rw [List.cons_subset] at letters
    cases tail with
    | nil => simp
    | cons c others =>
      rw [List.zip_cons_cons, List.all_cons, Bool.and_eq_true,
        matchesLetter_iff letters.1, List.map_cons, List.map_cons,
        List.cons.injEq, ← ih letters.2, List.length_cons, List.length_cons,
        Nat.add_right_cancel_iff]
      exact and_left_comm

end Text

namespace Content

theorem endsInWord_iff
    {word characters : List Char}
    (letters : word ⊆ Text.wordLetters) :
    endsInWord word characters = true ↔ Text.EndIn word characters := by
  rw [endsInWord, Bool.and_eq_true, decide_eq_true_iff,
    Text.all_matchesLetter_iff letters]
  constructor
  · intro same
    exact ⟨_, _, (List.take_append_drop _ characters).symm, same⟩
  · rintro ⟨front, tail, rfl, same⟩
    have length : tail.length = word.length := by
      simpa only [List.length_map] using congrArg List.length same
    rw [List.length_append, ← length, Nat.add_sub_cancel, List.drop_left]
    exact same

/-- A media type is looked at as a line. -/
theorem mediaTypeEndsIn_iff
    {word mediaType : String}
    (letters : word.toList ⊆ Text.wordLetters) :
    mediaTypeEndsIn word mediaType = true ↔ Text.EndsInLine word mediaType := by
  rw [mediaTypeEndsIn, Text.endsLine, Bool.or_eq_true, Bool.and_eq_true,
    endsInWord_iff letters, endsInWord_iff letters, beq_iff_eq,
    List.getLast?_eq_some_iff]
  constructor
  · rintro (ends | ⟨⟨line, isLine⟩, ends⟩)
    · exact Or.inl ends
    · rw [isLine, List.dropLast_concat] at ends
      exact Or.inr ⟨line, isLine, ends⟩
  · rintro (ends | ⟨line, isLine, ends⟩)
    · exact Or.inl ends
    · refine Or.inr ⟨⟨line, isLine⟩, ?_⟩
      rw [isLine, List.dropLast_concat]
      exact ends

/-! ## The first media type -/

/-- The first of the listed types that passes a test. -/
def IsFirst
    (passes : String → Prop) (types : List Scalar) (chosen : String) : Prop :=
  ∃ (before : List String) (behind : List Scalar),
    types = before.map Scalar.str ++ .str chosen :: behind ∧
      (∀ type ∈ before, ¬ passes type) ∧ passes chosen

/-- Texts none of which passes a test. -/
def NonePasses
    (passes : String → Prop) (types : List Scalar) (texts : List String) : Prop :=
  types = texts.map Scalar.str ∧ ∀ type ∈ texts, ¬ passes type

section Tests

variable {passes : String → Prop} {types : List Scalar}
  {type : String} {key : Scalar} {chosen : String}

theorem eq_str_of_isFirst (isFirst : IsFirst passes (key :: types) chosen) :
    ∃ text, key = .str text := by
  rcases isFirst with ⟨before, behind, same, -, -⟩
  cases before with
  | nil => exact ⟨chosen, (List.cons.inj same).1⟩
  | cons first rest => exact ⟨first, (List.cons.inj same).1⟩

/-- A text that passes is the first one. -/
theorem isFirst_cons_of_pass (pass : passes type) :
    IsFirst passes (.str type :: types) chosen ↔ type = chosen := by
  constructor
  · rintro ⟨before, behind, same, fail, -⟩
    cases before with
    | nil =>
      cases same
      rfl
    | cons first rest =>
      cases same
      exact (fail type List.mem_cons_self pass).elim
  · rintro rfl
    exact ⟨[], types, rfl, List.forall_mem_nil _, pass⟩

/-- A text that does not pass is left aside. -/
theorem isFirst_cons_of_fail (fail : ¬ passes type) :
    IsFirst passes (.str type :: types) chosen ↔
      IsFirst passes types chosen := by
  constructor
  · rintro ⟨before, behind, same, failBefore, pass⟩
    cases before with
    | nil =>
      cases same
      exact (fail pass).elim
    | cons first rest =>
      cases same
      exact ⟨rest, behind, rfl, (List.forall_mem_cons.1 failBefore).2, pass⟩
  · rintro ⟨before, behind, rfl, failBefore, pass⟩
    exact
      ⟨type :: before, behind, rfl,
        List.forall_mem_cons.2 ⟨fail, failBefore⟩, pass⟩

/-- None passes if the first text does not and none behind it does. -/
theorem exists_nonePasses_cons_iff :
    (∃ texts, NonePasses passes (key :: types) texts) ↔
      ∃ type, key = .str type ∧ ¬ passes type ∧
        ∃ texts, NonePasses passes types texts := by
  constructor
  · rintro ⟨texts, same, fail⟩
    cases texts with
    | nil => cases same
    | cons type others =>
      rw [List.forall_mem_cons] at fail
      rcases List.cons.inj same with ⟨isText, sameRest⟩
      exact ⟨type, isText, fail.1, others, sameRest, fail.2⟩
  · rintro ⟨type, rfl, fail, texts, same, failRest⟩
    exact
      ⟨type :: texts, congrArg (Scalar.str type :: ·) same,
        List.forall_mem_cons.2 ⟨fail, failRest⟩⟩

end Tests

/-- The first of the listed types that passes a test, or else the first one. -/
def IsChosen
    (passes : String → Prop) (types : List Scalar) (chosen : String) : Prop :=
  IsFirst passes types chosen ∨
    ∃ others, NonePasses passes types (chosen :: others)

/-- What is chosen is listed. -/
theorem IsChosen.mem
    {passes : String → Prop} {types : List Scalar} {chosen : String}
    (isChosen : IsChosen passes types chosen) : .str chosen ∈ types := by
  rcases isChosen with ⟨before, behind, rfl, -⟩ | ⟨others, rfl, -⟩
  · exact List.mem_append_right _ List.mem_cons_self
  · exact List.mem_cons_self

/-- Only the tests of the listed types matter. -/
theorem IsChosen.congr
    {passes passesToo : String → Prop} {types : List Scalar} {chosen : String}
    (same : ∀ type, .str type ∈ types → (passes type ↔ passesToo type))
    (isChosen : IsChosen passes types chosen) :
    IsChosen passesToo types chosen := by
  rcases isChosen with ⟨before, behind, rfl, fail, pass⟩ | ⟨others, rfl, fail⟩
  · refine Or.inl ⟨before, behind, rfl, ?_, ?_⟩
    · intro type member
      rw [← same type (List.mem_append_left _ (List.mem_map_of_mem member))]
      exact fail type member
    · rw [← same chosen (List.mem_append_right _ List.mem_cons_self)]
      exact pass
  · refine Or.inr ⟨others, rfl, ?_⟩
    intro type member
    rw [← same type (List.mem_map_of_mem member)]
    exact fail type member

/-! ## The media type of content -/

/-- The media types of some content, in order. -/
def types (content : Entries) : List Scalar := content.map Prod.fst

theorem endsIn_json_iff {type : String} :
    mediaTypeEndsIn "json" type = true ↔ Text.EndsInLine "json" type :=
  mediaTypeEndsIn_iff (by decide)

theorem endsIn_ndjson_iff {type : String} :
    mediaTypeEndsIn "ndjson" type = true ↔ Text.EndsInLine "ndjson" type :=
  mediaTypeEndsIn_iff (by decide)

theorem firstJson?_eq_some_iff {content : Entries} {chosen : String} :
    firstJson? content = .ok (some chosen) ↔
      IsFirst (Text.EndsInLine "json") (types content) chosen := by
  induction content with
  | nil =>
    constructor
    · intro none
      cases none
    · rintro ⟨before, behind, same, -⟩
      cases before <;> cases same
  | cons first rest ih =>
    rcases first with ⟨key, entry⟩
    rw [types, List.map_cons, ← types]
    cases key with
    | str type =>
      rw [firstJson?]
      by_cases pass : Text.EndsInLine "json" type
      · rw [if_pos (endsIn_json_iff.2 pass), isFirst_cons_of_pass pass,
          Except.ok.injEq, Option.some.injEq]
      · rw [if_neg (mt endsIn_json_iff.1 pass), isFirst_cons_of_fail pass]
        exact ih
    | _ =>
      constructor
      · intro none
        cases none
      · intro isFirst
        rcases eq_str_of_isFirst isFirst with ⟨text, isText⟩
        cases isText

theorem firstJson?_eq_none_iff {content : Entries} :
    firstJson? content = .ok none ↔
      ∃ texts, NonePasses (Text.EndsInLine "json") (types content) texts := by
  induction content with
  | nil => exact ⟨fun _ => ⟨[], rfl, List.forall_mem_nil _⟩, fun _ => rfl⟩
  | cons first rest ih =>
    rcases first with ⟨key, entry⟩
    rw [types, List.map_cons, ← types, exists_nonePasses_cons_iff]
    cases key with
    | str type =>
      rw [firstJson?]
      by_cases pass : Text.EndsInLine "json" type
      · rw [if_pos (endsIn_json_iff.2 pass)]
        constructor
        · intro some
          cases some
        · rintro ⟨own, same, fail, -⟩
          cases same
          exact (fail pass).elim
      · rw [if_neg (mt endsIn_json_iff.1 pass), ih]
        exact
          ⟨fun rest => ⟨type, rfl, pass, rest⟩, fun ⟨_, _, _, rest⟩ => rest⟩
    | _ =>
      constructor
      · intro none
        cases none
      · rintro ⟨type, same, -⟩
        cases same

/-- The media type that is used is the chosen one. -/
theorem mediaType_eq_ok_iff {content : Entries} {chosen : String} :
    mediaType content = .ok chosen ↔
      IsChosen (Text.EndsInLine "json") (types content) chosen := by
  rw [IsChosen, ← firstJson?_eq_some_iff]
  constructor
  · intro success
    unfold mediaType at success
    rcases exists_of_bind_eq_ok success with ⟨first, found, success⟩
    cases first with
    | some own =>
      cases success
      exact Or.inl found
    | none =>
      rcases firstJson?_eq_none_iff.1 found with ⟨texts, same, fail⟩
      dsimp only at success
      split at success
      · next own entry rest =>
        cases success
        cases texts with
        | nil => cases same
        | cons type others =>
          cases (List.cons.inj same).1
          exact Or.inr ⟨others, same, fail⟩
      · cases success
  · rintro (found | ⟨others, same, fail⟩)
    · unfold mediaType
      rw [found]
      rfl
    · unfold mediaType
      rw [firstJson?_eq_none_iff.2 ⟨_, same, fail⟩]
      cases content with
      | nil => cases same
      | cons entry rest =>
        rcases entry with ⟨key, value⟩
        cases (List.cons.inj same).1
        rfl

end Content

end ApiAtlas
