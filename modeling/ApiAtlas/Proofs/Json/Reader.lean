import ApiAtlas.Json.Reader

/-!
# Values at the front of a text

How a text is read from what is read at its front: one value with nothing but
gaps around it makes the text, and a stop is a fault at its place in the whole
text.
-/

namespace ApiAtlas.Json

variable {characters front rest after : List Char}

/-- A gap is passed over up to the first character that belongs to no gap. -/
theorem skipGap_append_cons
    {gap : List Char} (isGaps : ∀ c ∈ gap, isGap c = true)
    {c : Char} (noGap : isGap c = false) (rest : List Char) :
    skipGap (gap ++ c :: rest) = c :: rest := by
  rw [skipGap, List.dropWhile_append_of_pos isGaps, List.dropWhile_cons, noGap]
  rfl

theorem skipGap_of_gap
    {gap : List Char} (isGaps : ∀ c ∈ gap, isGap c = true) :
    skipGap gap = [] := by
  rw [skipGap, ← List.append_nil gap, List.dropWhile_append_of_pos isGaps,
    List.dropWhile_nil]

/-- A text that begins with a value and ends with it holds that value. -/
theorem readCharacters_of_value
    (unmarked : characters.head? ≠ some (Char.ofNat 0xFEFF))
    (start : skipGap characters = front) {value : Datum}
    {behind : Shorter front} (found : readValue front = .ok (value, behind))
    (ended : skipGap behind.val = []) :
    readCharacters characters = .ok value := by
  subst start
  rw [readCharacters, if_neg unmarked, found]
  simp only [ended, List.isEmpty_nil, if_true]

/-- A text that stops being a value is refused at that place. -/
theorem readCharacters_of_stop
    (unmarked : characters.head? ≠ some (Char.ofNat 0xFEFF))
    (start : skipGap characters = front) {stop : Stop}
    (stopped : readValue front = .error stop) :
    readCharacters characters = .error (stop.fault characters) := by
  subst start
  rw [readCharacters, if_neg unmarked, stopped]

/-- A brace that is closed at once makes an object without members. -/
theorem readValue_closedBrace (closed : skipGap rest = '}' :: after) :
    ∃ behind : Shorter ('{' :: rest),
      readValue ('{' :: rest) = .ok (.map [], behind) ∧
        behind.val = after := by
  rw [readValue]
  split
  · next found same =>
    rw [closed, List.cons.injEq] at same
    exact ⟨_, rfl, same.2.symm⟩
  · next other => exact (other after closed).elim

/-- No value begins with a character that begins no word and no number. -/
theorem readValue_of_plainValue_eq_none
    {c : Char} (absent : plainValue (c :: rest) = none)
    (noText : c ≠ '"') (noList : c ≠ '[') (noMap : c ≠ '{') :
    readValue (c :: rest) =
      .error (.problem .expectedValue (rest.length + 1)) := by
  rw [readValue]
  · split
    · rfl
    · next same => rw [absent] at same; cases same
    · next same => rw [absent] at same; cases same
  · exact noText
  · exact noList
  · exact noMap

/-- Braces with nothing but gaps in and around them hold no members. -/
theorem readCharacters_emptyMap
    (before inside behind : List Char)
    (gapBefore : ∀ c ∈ before, isGap c = true)
    (gapInside : ∀ c ∈ inside, isGap c = true)
    (gapBehind : ∀ c ∈ behind, isGap c = true) :
    readCharacters (before ++ '{' :: (inside ++ '}' :: behind)) =
      .ok (.map []) := by
  have closed := skipGap_append_cons gapInside (c := '}') (by decide) behind
  rcases readValue_closedBrace closed with ⟨rest, found, restEq⟩
  refine
    readCharacters_of_value ?_
      (skipGap_append_cons gapBefore (by decide) _) found ?_
  · cases before with
    | nil => simp
    | cons c gap =>
      have isGap := gapBefore c (List.mem_cons_self)
      rintro same
      cases same
      revert isGap
      decide
  · rw [restEq]
    exact skipGap_of_gap gapBehind

theorem read_braces : read "{}" = .ok (.map []) :=
  readCharacters_emptyMap [] [] [] (by simp) (by simp) (by simp)

/-- A single character that begins no value is refused. -/
theorem readCharacters_singleton
    (c : Char) (noGap : isGap c = false) (absent : plainValue [c] = none)
    (other : c ∉ ['"', '[', '{', Char.ofNat 0xFEFF]) :
    readCharacters [c] = .error (.malformed .expectedValue ⟨1, 1, 0⟩) := by
  simp only [List.mem_cons, List.not_mem_nil, or_false, not_or] at other
  rcases other with ⟨noText, noList, noMap, noMark⟩
  have start : skipGap [c] = [c] :=
    skipGap_append_cons (List.forall_mem_nil _) noGap []
  have unmarked : [c].head? ≠ some (Char.ofNat 0xFEFF) :=
    fun same => noMark (Option.some.inj same)
  exact
    readCharacters_of_stop unmarked start
      (readValue_of_plainValue_eq_none absent noText noList noMap)

end ApiAtlas.Json
