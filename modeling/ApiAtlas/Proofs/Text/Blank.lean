import ApiAtlas.Text.Blank
import Mathlib.Data.List.DropRight

/-!
# What trimming removes

A text is trimmed to the one text in it that neither begins nor ends with a
character to be removed and that has only such characters around it.  A text
of such characters alone is trimmed to the empty one.
-/

namespace ApiAtlas.Text

/--
A text that is an inner one with characters that satisfy a test around it,
where none of them begins or ends the inner one.
-/
structure Pads (test : Char → Bool) (text inner : List Char) : Prop where
  around : ∃ before after, text = before ++ inner ++ after ∧
    (∀ c ∈ before, test c = true) ∧ ∀ c ∈ after, test c = true
  first : ∀ c ∈ inner.head?, test c = false
  last : ∀ c ∈ inner.getLast?, test c = false

variable {test : Char → Bool} {text inner : List Char}

/-- Nothing is dropped from a text that does not begin with what is dropped. -/
theorem dropLeading_eq_self
    (first : ∀ c ∈ text.head?, test c = false) :
    dropLeading test text = text := by
  cases text with
  | nil => rfl
  | cons c rest =>
    have kept : test c = false := first c rfl
    rw [dropLeading, List.dropWhile_cons_of_neg (by simp [kept])]

theorem dropTrailing_append
    {after : List Char} (last : ∀ c ∈ inner.getLast?, test c = false)
    (dropped : ∀ c ∈ after, test c = true) :
    dropTrailing test (inner ++ after) = inner := by
  have kept : dropLeading test inner.reverse = inner.reverse :=
    dropLeading_eq_self (by simpa using last)
  rw [dropTrailing, List.reverse_append,
    List.dropWhile_append_of_pos (by simpa using dropped)]
  exact List.reverse_eq_iff.2 kept

theorem head?_dropLeading :
    ∀ c ∈ (dropLeading test text).head?, test c = false := by
  intro c first
  have kept := List.head?_dropWhile_not test text
  rw [dropLeading, Option.mem_def] at first
  rw [first] at kept
  exact kept

theorem head?_dropTrailing
    (first : ∀ c ∈ text.head?, test c = false) :
    ∀ c ∈ (dropTrailing test text).head?, test c = false := by
  intro c member
  have begins : dropTrailing test text <+: text :=
    List.rdropWhile_prefix test text
  rcases begins with ⟨dropped, same⟩
  apply first c
  rw [← same, List.head?_append, Option.mem_def.1 member]
  rfl

theorem pads_trimBy (test : Char → Bool) (text : List Char) :
    Pads test text (trimBy test text) := by
  have dropped (characters : List Char) :
      ∀ c ∈ characters.takeWhile test, test c = true :=
    fun c => List.mem_takeWhile_imp
  refine ⟨⟨text.takeWhile test,
    ((dropLeading test text).reverse.takeWhile test).reverse, ?_,
    dropped text, ?_⟩, head?_dropTrailing head?_dropLeading, ?_⟩
  · have behind :
        trimBy test text ++
            ((dropLeading test text).reverse.takeWhile test).reverse =
          dropLeading test text := by
      rw [trimBy, dropTrailing, ← List.reverse_append,
        List.takeWhile_append_dropWhile, List.reverse_reverse]
    rw [List.append_assoc, behind]
    exact (List.takeWhile_append_dropWhile).symm
  · intro c member
    exact dropped _ c (List.mem_reverse.1 member)
  · rw [trimBy, dropTrailing, List.getLast?_reverse]
    exact head?_dropLeading

/-- A text is trimmed to what it pads, and it pads nothing else. -/
theorem trimBy_eq_iff : trimBy test text = inner ↔ Pads test text inner := by
  constructor
  · rintro rfl
    exact pads_trimBy test text
  · rintro ⟨⟨before, after, rfl, droppedBefore, droppedAfter⟩, first, last⟩
    rw [trimBy, dropLeading, List.append_assoc,
      List.dropWhile_append_of_pos droppedBefore]
    cases inner with
    | nil =>
      have nothing : after.dropWhile test = [] := by
        simpa using droppedAfter
      rw [List.nil_append, nothing]
      rfl
    | cons c rest =>
      have kept : dropLeading test (c :: rest ++ after) = c :: rest ++ after :=
        dropLeading_eq_self first
      rw [dropLeading] at kept
      rw [kept, dropTrailing_append last droppedAfter]

theorem trim_eq_iff {text inner : String} :
    trim text = inner ↔ Pads isBlank text.toList inner.toList := by
  rw [← trimBy_eq_iff, trim, ← String.toList_inj, String.toList_ofList]

/-- What is removed alone pads the empty text. -/
theorem pads_nil_iff : Pads test text [] ↔ ∀ c ∈ text, test c = true := by
  constructor
  · rintro ⟨⟨before, after, rfl, droppedBefore, droppedAfter⟩, -, -⟩
    rw [List.append_nil, List.forall_mem_append]
    exact ⟨droppedBefore, droppedAfter⟩
  · intro dropped
    exact ⟨⟨text, [], by simp, dropped, List.forall_mem_nil _⟩, by simp, by simp⟩

/-- A text without what is removed pads itself. -/
theorem pads_self (kept : ∀ c ∈ text, test c = false) :
    Pads test text text := by
  refine ⟨⟨[], [], by simp, by simp, by simp⟩, ?_, ?_⟩
  · intro c first
    exact kept c (List.mem_of_head? first)
  · intro c last
    exact kept c (List.mem_of_getLast? last)

/-- A mark that is not removed stands in a text if it does in the inner one. -/
theorem Pads.mem_iff
    (pads : Pads test text inner) {mark : Char} (kept : test mark = false) :
    mark ∈ text ↔ mark ∈ inner := by
  rcases pads.around with ⟨before, after, rfl, droppedBefore, droppedAfter⟩
  have notBefore : mark ∉ before := fun member => by
    simp [droppedBefore mark member] at kept
  have notAfter : mark ∉ after := fun member => by
    simp [droppedAfter mark member] at kept
  simp [notBefore, notAfter]

/-- Trimming goes through a change of characters that keeps the test. -/
theorem trimBy_map
    {f : Char → Char} (keeps : ∀ c, test (f c) = test c) (text : List Char) :
    trimBy test (text.map f) = (trimBy test text).map f := by
  have same : test ∘ f = test := funext keeps
  simp only [trimBy, dropTrailing, dropLeading, List.dropWhile_map,
    ← List.map_reverse, same]

end ApiAtlas.Text
