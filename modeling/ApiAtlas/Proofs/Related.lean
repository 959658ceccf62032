import Mathlib.Data.List.Forall2

/-!
# Values related one by one

Two lists are related if they have one length and their items are related in
order; two optional values are related if both are absent, or both are present
and related.  What is known of one side is found on the other.
-/

namespace ApiAtlas

variable {α β γ : Type} {related : α → β → Prop} {inputs : List α}
  {outputs : List β}

/-! ## Lists -/

/-- What is related to a list item by item is related to some item each. -/
theorem exists_mem_of_forall₂
    (each : List.Forall₂ related inputs outputs) {output : β}
    (member : output ∈ outputs) :
    ∃ input ∈ inputs, related input output := by
  induction each with
  | nil => cases member
  | @cons input _ rest _ here _ ih =>
    rcases List.mem_cons.1 member with rfl | behind
    · exact ⟨input, List.mem_cons_self, here⟩
    · rcases ih behind with ⟨other, present, related⟩
      exact ⟨other, List.mem_cons_of_mem _ present, related⟩

/-- Lists that are related item by item are the sides of one list of pairs. -/
theorem exists_pairs_of_forall₂
    (each : List.Forall₂ related inputs outputs) :
    ∃ pairs : List (α × β),
      pairs.map Prod.fst = inputs ∧
        pairs.map Prod.snd = outputs ∧
        ∀ pair ∈ pairs, related pair.1 pair.2 := by
  induction each with
  | nil => exact ⟨[], rfl, rfl, List.forall_mem_nil _⟩
  | @cons input output _ _ here _ ih =>
    rcases ih with ⟨pairs, rfl, rfl, behind⟩
    exact
      ⟨(input, output) :: pairs, rfl, rfl,
        List.forall_mem_cons.2 ⟨here, behind⟩⟩

/-- Lists that are related item by item to one list are related to each other. -/
theorem forall₂_trans
    {onward : β → γ → Prop} {others : List γ}
    (one : List.Forall₂ related inputs outputs)
    (other : List.Forall₂ onward outputs others) :
    List.Forall₂
      (fun first last => ∃ middle, related first middle ∧ onward middle last)
      inputs others := by
  induction one generalizing others with
  | nil =>
    cases other
    exact .nil
  | cons here _ ih =>
    cases other with
    | cons next behind => exact .cons ⟨_, here, next⟩ (ih behind)

/-- What is found first on one side is related to what is found on the other. -/
theorem rel_find?_of_forall₂
    {test : α → Bool} {testToo : β → Bool}
    (each : List.Forall₂ related inputs outputs)
    (same : ∀ input output, related input output → test input = testToo output) :
    Option.Rel related (inputs.find? test) (outputs.find? testToo) := by
  induction each with
  | nil => exact .none
  | @cons input output _ _ here _ ih =>
    rw [List.find?_cons, List.find?_cons, same input output here]
    split
    · exact .some here
    · exact ih

/-! ## Optional values -/

/-- What is related to a present value is present. -/
theorem exists_of_rel_some
    {optional : Option α} {output : β}
    (both : Option.Rel related optional (some output)) :
    ∃ input, optional = some input ∧ related input output := by
  cases both with
  | some here => exact ⟨_, rfl, here⟩

theorem exists_of_some_rel
    {optional : Option β} {input : α}
    (both : Option.Rel related (some input) optional) :
    ∃ output, optional = some output ∧ related input output := by
  cases both with
  | some here => exact ⟨_, rfl, here⟩

theorem rel_imp
    {onward : α → β → Prop} {one : Option α} {other : Option β}
    (both : Option.Rel related one other)
    (each : ∀ input output,
      one = some input → related input output → onward input output) :
    Option.Rel onward one other := by
  cases both with
  | none => exact .none
  | some here => exact .some (each _ _ rfl here)

end ApiAtlas
