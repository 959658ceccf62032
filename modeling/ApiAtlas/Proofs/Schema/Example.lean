import ApiAtlas.Proofs.Schema.Inlined
import ApiAtlas.Schema.Example

/-!
# Examples of schemas

A schema that has examples at all has at least one: where none is stated and
no branch gives one, a value is made up.  A schema with its references replaced
and its examples added is still one without references.
-/

namespace ApiAtlas.Schema

section Examples

variable {walk : Datum → Except Fault (List Datum)} {entries : Entries}
  {found : List Datum}

theorem statedExamples?_ne_nil
    (stated : statedExamples? entries = some found) : found ≠ [] := by
  rw [statedExamples?] at stated
  split at stated
  · cases stated
    exact List.cons_ne_nil _ _
  · split at stated
    · cases stated
      exact List.cons_ne_nil _ _
    · cases stated

/-- A value is made up for every type. -/
theorem typeExamples_ne_nil
    (success : typeExamples walk entries = .ok found) : found ≠ [] := by
  rw [typeExamples] at success
  split at success
  · split at success
    · split at success
      · cases success
        exact List.cons_ne_nil _ _
      · split at success
        · rcases exists_of_bind_eq_ok success with ⟨object, -, same⟩
          cases same
          exact List.cons_ne_nil _ _
        · cases success
    · cases success
      exact List.cons_ne_nil _ _
  · split at success
    · split at success
      · cases success
        exact List.cons_ne_nil _ _
      · rcases exists_of_bind_eq_ok success with ⟨inner, -, same⟩
        split at same
        · cases same
          exact List.cons_ne_nil _ _
        · cases same
    · cases success
      exact List.cons_ne_nil _ _
  · rcases exists_of_bind_eq_ok success with ⟨value, -, same⟩
    cases same
    exact List.cons_ne_nil _ _

theorem examplesWithin_ne_nil
    {definitions node : Datum} {limit : Int} {budget : Nat}
    {chain : List String}
    (success : examplesWithin definitions limit budget chain node = .ok found) :
    found ≠ [] := by
  induction budget generalizing chain node with
  | zero => cases success
  | succ budget ih =>
    unfold examplesWithin at success
    split at success
    · rcases exists_of_bind_eq_ok success with ⟨followed, -, below⟩
      exact ih below
    · split at success
      · split at success
        · next stated =>
          cases success
          exact statedExamples?_ne_nil stated
        · rcases exists_of_bind_eq_ok success with ⟨branches, -, rest⟩
          split at rest
          · exact typeExamples_ne_nil rest
          · next some =>
            cases rest
            rintro rfl
            exact some rfl
      · cases success
        exact List.cons_ne_nil _ _

end Examples

/-- The member under which a schema lists its examples. -/
theorem inlineWithExamples_eq_ok
    {node definitions stated : Datum} {entries : Entries}
    (success : inlineWithExamples node definitions stated = .ok entries) :
    ∃ inlined first rest,
      inline node definitions depthLimit = .ok (.map inlined) ∧
        entries =
          Entries.put (.str "examples") (.list (first :: rest)) inlined := by
  rw [inlineWithExamples] at success
  rcases exists_of_bind_eq_ok success with ⟨schema, inlined, success⟩
  dsimp only at success
  cases schema with
  | map object =>
    split at success
    · rcases exists_of_bind_eq_ok success with ⟨found, made, same⟩
      cases same
      rcases List.exists_cons_of_ne_nil (examplesWithin_ne_nil made) with
        ⟨first, rest, rfl⟩
      exact ⟨object, first, rest, inlined, rfl⟩
    · cases success
      exact ⟨object, stated, [], inlined, rfl⟩
  | _ =>
    split at success
    · rcases exists_of_bind_eq_ok success with ⟨found, made, same⟩
      cases same
    · cases success

/--
A schema with its examples is kept by inlining, and its examples are a list
that is not empty.
-/
theorem inline_of_inlineWithExamples
    {node definitions stated : Datum} {entries : Entries}
    (success : inlineWithExamples node definitions stated = .ok entries) :
    (∀ others : Datum,
        inline (.map entries) others depthLimit = .ok (.map entries)) ∧
      ∃ first rest,
        Entries.get? (.str "examples") entries =
          some (.list (first :: rest)) := by
  rcases inlineWithExamples_eq_ok success with
    ⟨inlined, first, rest, done, rfl⟩
  constructor
  · intro others
    have kept := inlined_of_inlineWithin done
    exact
      (kept.put (by decide) (by decide) (by decide) _).inlineWithin_eq others
        depthLimit []
  · refine ⟨first, rest, ?_⟩
    rw [Entries.get?_put_self]

/-- A schema with its examples has clear keys if the description has. -/
theorem hasClearKeys_of_inlineWithExamples
    {node definitions stated : Datum} {entries : Entries}
    (clearDefinitions : definitions.IsClear)
    (clear : node.IsClear)
    (success : inlineWithExamples node definitions stated = .ok entries) :
    entries.HasClearKeys := by
  rcases inlineWithExamples_eq_ok success with
    ⟨inlined, first, rest, done, rfl⟩
  exact (hasClearKeys_of_inlineWithin clearDefinitions clear done).put _ _

end ApiAtlas.Schema
