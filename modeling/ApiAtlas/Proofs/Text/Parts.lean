import ApiAtlas.Text.Parts
import Mathlib.Data.List.Basic
import Mathlib.Data.List.TakeWhile

/-!
# Cutting texts at a mark

`splitAt` loses nothing: its parts with the mark between them are the text
again, and no part holds the mark.  A text that grows at its end keeps all
parts but the last, which is cut again together with what has arrived.
-/

namespace ApiAtlas.Text

theorem splitAt_ne_nil (mark : Char) (text : List Char) :
    splitAt mark text ≠ [] := by
  induction text with
  | nil => simp [splitAt]
  | cons c rest ih =>
    rw [splitAt]
    split
    · simp
    · split <;> simp

/-- The part behind the last mark of a text. -/
def lastPart (mark : Char) (text : List Char) : List Char :=
  (splitAt mark text).getLast (splitAt_ne_nil mark text)

/-- A text is cut into the parts before the last mark and the one behind it. -/
theorem splitAt_eq_dropLast_append (mark : Char) (text : List Char) :
    splitAt mark text =
      (splitAt mark text).dropLast ++ [lastPart mark text] :=
  (List.dropLast_append_getLast (splitAt_ne_nil mark text)).symm

theorem splitAt_mark_cons (mark : Char) (rest : List Char) :
    splitAt mark (mark :: rest) = [] :: splitAt mark rest := by
  rw [splitAt, if_pos rfl]

theorem splitAt_cons_of_ne
    {mark c : Char} (other : c ≠ mark) (rest : List Char) :
    splitAt mark (c :: rest) =
      (splitAt mark rest).modifyHead (c :: ·) := by
  rw [splitAt, if_neg other]
  cases parts : splitAt mark rest with
  | nil => exact (splitAt_ne_nil mark rest parts).elim
  | cons part others => rfl

/-- The parts of a text with the mark between them are the text. -/
theorem intercalate_splitAt (mark : Char) (text : List Char) :
    [mark].intercalate (splitAt mark text) = text := by
  induction text with
  | nil => rfl
  | cons c rest ih =>
    by_cases same : c = mark
    · subst same
      rw [splitAt_mark_cons,
        List.intercalate_cons_of_ne_nil (splitAt_ne_nil c rest), ih]
      rfl
    · rw [splitAt_cons_of_ne same]
      cases parts : splitAt mark rest with
      | nil => exact (splitAt_ne_nil mark rest parts).elim
      | cons part others =>
        rw [parts] at ih
        cases others with
        | nil => simpa [List.intercalate] using ih
        | cons next others =>
          rw [List.intercalate_cons_cons] at ih
          rw [List.modifyHead_cons, List.intercalate_cons_cons, ← ih]
          rfl

/-- No part of a text holds the mark. -/
theorem not_mem_of_mem_splitAt
    {mark : Char} {text part : List Char}
    (member : part ∈ splitAt mark text) :
    mark ∉ part := by
  induction text generalizing part with
  | nil =>
    rw [splitAt, List.mem_singleton] at member
    simp [member]
  | cons c rest ih =>
    by_cases same : c = mark
    · subst same
      rw [splitAt_mark_cons, List.mem_cons] at member
      rcases member with rfl | member
      · simp
      · exact ih member
    · rw [splitAt_cons_of_ne same] at member
      cases parts : splitAt mark rest with
      | nil => exact (splitAt_ne_nil mark rest parts).elim
      | cons head others =>
        rw [parts, List.modifyHead_cons, List.mem_cons] at member
        rcases member with rfl | member
        · have absent := ih (parts ▸ List.mem_cons_self)
          simp [absent, Ne.symm same]
        · exact ih (parts ▸ List.mem_cons_of_mem head member)

theorem not_mem_lastPart (mark : Char) (text : List Char) :
    mark ∉ lastPart mark text :=
  not_mem_of_mem_splitAt (List.getLast_mem _)

/-- A mark makes one part more. -/
theorem length_splitAt (mark : Char) (text : List Char) :
    (splitAt mark text).length = text.count mark + 1 := by
  induction text with
  | nil => rfl
  | cons c rest ih =>
    by_cases same : c = mark
    · subst same
      rw [splitAt_mark_cons, List.length_cons, ih, List.count_cons_self]
    · rw [splitAt_cons_of_ne same, List.length_modifyHead, ih,
        List.count_cons_of_ne same]

/-- A front without the mark belongs to the first part. -/
theorem splitAt_append_of_not_mem
    {mark : Char} {front : List Char} (absent : mark ∉ front)
    (rest : List Char) :
    splitAt mark (front ++ rest) =
      (splitAt mark rest).modifyHead (front ++ ·) := by
  induction front with
  | nil =>
    cases parts : splitAt mark rest <;> simp [parts]
  | cons c front ih =>
    rw [List.mem_cons, not_or] at absent
    rw [List.cons_append, splitAt_cons_of_ne (Ne.symm absent.1),
      ih absent.2]
    cases splitAt mark rest <;> rfl

theorem splitAt_of_not_mem
    {mark : Char} {text : List Char} (absent : mark ∉ text) :
    splitAt mark text = [text] := by
  have parts := splitAt_append_of_not_mem absent []
  rw [List.append_nil] at parts
  rw [parts, splitAt, List.modifyHead_cons, List.append_nil]

theorem splitAt_append_mark
    {mark : Char} {front : List Char} (absent : mark ∉ front)
    (rest : List Char) :
    splitAt mark (front ++ mark :: rest) = front :: splitAt mark rest := by
  rw [splitAt_append_of_not_mem absent, splitAt_mark_cons,
    List.modifyHead_cons, List.append_nil]

/-- Parts without the mark are found again when the mark stands between them. -/
theorem splitAt_intercalate
    {mark : Char} {parts : List (List Char)} (nonempty : parts ≠ [])
    (absent : ∀ part ∈ parts, mark ∉ part) :
    splitAt mark ([mark].intercalate parts) = parts := by
  induction parts with
  | nil => exact (nonempty rfl).elim
  | cons part rest ih =>
    have here : mark ∉ part := absent part List.mem_cons_self
    cases rest with
    | nil => simpa [List.intercalate] using splitAt_of_not_mem here
    | cons next rest =>
      have below :=
        ih (List.cons_ne_nil next rest) fun other member =>
          absent other (List.mem_cons_of_mem part member)
      rw [List.intercalate_cons_cons, List.append_assoc,
        List.singleton_append, splitAt_append_mark here, below]

/-- Texts without the mark are found again when the mark stands between them. -/
theorem parts_intercalate
    {mark : Char} {between : String} {texts : List String}
    (isMark : between.toList = [mark]) (nonempty : texts ≠ [])
    (absent : ∀ text ∈ texts, mark ∉ text.toList) :
    parts mark (String.intercalate between texts) = texts := by
  have cut :
      splitAt mark (String.intercalate between texts).toList =
        texts.map String.toList := by
    rw [String.toList_intercalate, isMark]
    apply splitAt_intercalate
    · simpa using nonempty
    · intro characters member
      rcases List.mem_map.1 member with ⟨text, within, rfl⟩
      exact absent text within
  rw [parts, cut, List.map_map]
  exact List.map_id'' (fun text => String.ofList_toList) texts

theorem lastPart_eq_of_splitAt_eq
    {mark : Char} {text last : List Char} {parts : List (List Char)}
    (equal : splitAt mark text = parts ++ [last]) :
    (splitAt mark text).dropLast = parts ∧ lastPart mark text = last := by
  constructor
  · rw [equal, List.dropLast_concat]
  · simp only [lastPart, equal, List.getLast_concat]

/-- A text that grows is cut again from the part behind its last mark. -/
theorem splitAt_append (mark : Char) (first second : List Char) :
    splitAt mark (first ++ second) =
      (splitAt mark first).dropLast ++
        splitAt mark (lastPart mark first ++ second) := by
  induction first with
  | nil => rfl
  | cons c rest ih =>
    have parts := splitAt_eq_dropLast_append mark rest
    by_cases same : c = mark
    · subst same
      have whole :
          splitAt c (c :: rest) =
            ([] :: (splitAt c rest).dropLast) ++ [lastPart c rest] := by
        rw [splitAt_mark_cons, List.cons_append, ← parts]
      rcases lastPart_eq_of_splitAt_eq whole with ⟨frontEq, lastEq⟩
      rw [List.cons_append, splitAt_mark_cons, ih, frontEq, lastEq,
        List.cons_append]
    · cases front : (splitAt mark rest).dropLast with
      | nil =>
        rw [front, List.nil_append] at parts
        have restEq : lastPart mark rest = rest := by
          have joined := intercalate_splitAt mark rest
          rw [parts] at joined
          simpa [List.intercalate] using joined
        have whole : splitAt mark (c :: rest) = [] ++ [c :: rest] := by
          rw [splitAt_cons_of_ne same, parts, restEq]
          rfl
        rcases lastPart_eq_of_splitAt_eq whole with ⟨frontEq, lastEq⟩
        rw [frontEq, lastEq, List.nil_append]
      | cons part others =>
        rw [front] at parts
        have whole :
            splitAt mark (c :: rest) =
              ((c :: part) :: others) ++ [lastPart mark rest] := by
          rw [splitAt_cons_of_ne same, parts]
          rfl
        rcases lastPart_eq_of_splitAt_eq whole with ⟨frontEq, lastEq⟩
        rw [List.cons_append, splitAt_cons_of_ne same, ih, frontEq, lastEq,
          front]
        rfl

/-- What stands behind the last mark of a text is its last part. -/
theorem lastPart_append_mark
    {mark : Char} {behind : List Char} (front : List Char)
    (absent : mark ∉ behind) :
    lastPart mark (front ++ mark :: behind) = behind := by
  have whole :
      splitAt mark (front ++ mark :: behind) =
        ((splitAt mark front).dropLast ++ [lastPart mark front]) ++
          [behind] := by
    rw [splitAt_append, splitAt_append_mark (not_mem_lastPart mark front),
      splitAt_of_not_mem absent, List.append_assoc, List.singleton_append]
  exact (lastPart_eq_of_splitAt_eq whole).2

/-- A text can be taken apart at its last mark in one way. -/
theorem append_mark_inj
    {mark : Char} {front other behind rest : List Char}
    (absent : mark ∉ behind) (absentOther : mark ∉ rest) :
    front ++ mark :: behind = other ++ mark :: rest ↔
      front = other ∧ behind = rest := by
  constructor
  · intro same
    have last : behind = rest := by
      rw [← lastPart_append_mark front absent, same,
        lastPart_append_mark other absentOther]
    subst last
    exact ⟨List.append_cancel_right same, rfl⟩
  · rintro ⟨rfl, rfl⟩
    rfl

/-- A text is cut at a mark that the part in front of it does not hold. -/
theorem cutAt_eq_some_iff {mark : Char} {text before behind : String} :
    cutAt mark text = (before, some behind) ↔
      mark ∉ before.toList ∧
        text.toList = before.toList ++ mark :: behind.toList := by
  have whole :=
    List.takeWhile_append_dropWhile (p := (· ≠ mark)) (l := text.toList)
  constructor
  · intro cut
    rw [cutAt] at cut
    split at cut
    · next c rest found =>
      cases cut
      have isMark : c = mark := by
        have first := List.head?_dropWhile_not (· ≠ mark) text.toList
        rw [found] at first
        simpa using first
      subst isMark
      rw [String.toList_ofList, String.toList_ofList]
      refine ⟨fun member => ?_, (found ▸ whole).symm⟩
      simpa using List.mem_takeWhile_imp member
    · cases cut
  · rintro ⟨absent, same⟩
    have kept : ∀ c ∈ before.toList, decide (c ≠ mark) = true := by
      intro c member
      rw [decide_eq_true_eq]
      rintro rfl
      exact absent member
    rw [cutAt, same, List.takeWhile_append_of_pos kept,
      List.dropWhile_append_of_pos kept]
    simp

end ApiAtlas.Text
