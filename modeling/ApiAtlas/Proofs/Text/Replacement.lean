import ApiAtlas.Text.Parts

/-!
# Replacing a text

A text that begins with a mark can only be replaced where the mark stands.
What is in front of the mark is kept, and so is a mark behind which the text
does not go on.
-/

namespace ApiAtlas.Text

variable {mark : Char} {old new : List Char}

/-- Characters that belong to a replaced occurrence are left out. -/
theorem replaceFrom_length_append (front rest : List Char) :
    replaceFrom old new front.length (front ++ rest) =
      replaceFrom old new 0 rest := by
  induction front with
  | nil => rfl
  | cons c front ih => rw [List.length_cons, List.cons_append, replaceFrom, ih]

/-- An occurrence is replaced. -/
theorem replaceFrom_self_append (rest : List Char) :
    replaceFrom (mark :: old) new 0 (mark :: old ++ rest) =
      new ++ replaceFrom (mark :: old) new 0 rest := by
  have begins : (mark :: old).isPrefixOf (mark :: (old ++ rest)) = true :=
    List.isPrefixOf_iff_prefix.2 (List.prefix_append (mark :: old) rest)
  rw [List.cons_append, replaceFrom, if_pos begins, List.length_cons,
    Nat.add_sub_cancel, replaceFrom_length_append]

/-- A character with which no occurrence begins is kept. -/
theorem replaceFrom_cons_of_not_prefix
    {c : Char} {rest : List Char}
    (begins : ¬ mark :: old <+: c :: rest) :
    replaceFrom (mark :: old) new 0 (c :: rest) =
      c :: replaceFrom (mark :: old) new 0 rest := by
  rw [replaceFrom, if_neg (mt List.isPrefixOf_iff_prefix.1 begins)]

/-- A front without the mark is kept. -/
theorem replaceFrom_append_of_not_mem
    {front : List Char} (absent : mark ∉ front) (rest : List Char) :
    replaceFrom (mark :: old) new 0 (front ++ rest) =
      front ++ replaceFrom (mark :: old) new 0 rest := by
  induction front with
  | nil => rfl
  | cons c front ih =>
    rw [List.mem_cons, not_or] at absent
    have begins : ¬ mark :: old <+: c :: (front ++ rest) := by
      rw [List.cons_prefix_cons]
      exact fun same => absent.1 same.1
    rw [List.cons_append, replaceFrom_cons_of_not_prefix begins, ih absent.2,
      List.cons_append]

/-- Texts without a mark are told apart by the mark behind them. -/
theorem append_mark_prefix_append_mark_iff
    {one other rest : List Char}
    (absent : mark ∉ one) (absentOther : mark ∉ other) :
    one ++ [mark] <+: other ++ mark :: rest ↔ one = other := by
  constructor
  · intro begins
    induction one generalizing other with
    | nil =>
      cases other with
      | nil => rfl
      | cons c other =>
        rw [List.nil_append, List.cons_append, List.cons_prefix_cons] at begins
        exact (absentOther (begins.1 ▸ List.mem_cons_self)).elim
    | cons c one ih =>
      rw [List.mem_cons, not_or] at absent
      cases other with
      | nil =>
        rw [List.nil_append, List.cons_append, List.cons_prefix_cons] at begins
        exact (absent.1 begins.1.symm).elim
      | cons d other =>
        rw [List.mem_cons, not_or] at absentOther
        rw [List.cons_append, List.cons_append,
          List.cons_prefix_cons] at begins
        rw [begins.1, ih absent.2 absentOther.2 begins.2]
  · rintro rfl
    rw [List.append_cons one mark rest]
    exact List.prefix_append _ rest

end ApiAtlas.Text
