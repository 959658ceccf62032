import ApiAtlas.Proofs.Related

/-!
# Outcomes of steps that may fail

A sequence of steps succeeds only if each of them does, and fails with the
first of them that fails.  Where it does not matter with which fault a step
fails, outcomes are compared as options.
-/

namespace ApiAtlas

variable {ε α β : Type}

/-- A sequence that succeeds has steps that succeed. -/
theorem exists_of_bind_eq_ok
    {first : Except ε α} {next : α → Except ε β} {result : β}
    (success : first >>= next = .ok result) :
    ∃ value, first = .ok value ∧ next value = .ok result := by
  cases first with
  | error fault => cases success
  | ok value => exact ⟨value, rfl, success⟩

/-- A sequence fails with the fault of one of its steps. -/
theorem error_or_of_bind_eq_error
    {first : Except ε α} {next : α → Except ε β} {fault : ε}
    (failure : first >>= next = .error fault) :
    first = .error fault ∨
      ∃ value, first = .ok value ∧ next value = .error fault := by
  cases first with
  | error cause =>
    cases failure
    exact Or.inl rfl
  | ok value => exact Or.inr ⟨value, rfl, failure⟩

theorem exists_of_map_eq_ok
    {outcome : Except ε α} {f : α → β} {result : β}
    (success : outcome.map f = .ok result) :
    ∃ value, outcome = .ok value ∧ f value = result := by
  cases outcome with
  | error fault => cases success
  | ok value => exact ⟨value, rfl, Except.ok.inj success⟩

theorem toOption_map (f : α → β) (outcome : Except ε α) :
    (outcome.map f).toOption = outcome.toOption.map f := by
  cases outcome <;> rfl

variable {step : α → Except ε β} {inputs : List α}

/-- Only the outcomes of the steps over a list matter. -/
theorem mapM_congr
    {other : α → Except ε β}
    (same : ∀ input ∈ inputs, step input = other input) :
    inputs.mapM step = inputs.mapM other := by
  induction inputs with
  | nil => rfl
  | cons input rest ih =>
    rw [List.forall_mem_cons] at same
    rw [List.mapM_cons, List.mapM_cons, same.1, ih same.2]

/-- Steps over a list succeed if and only if each of them does. -/
theorem mapM_eq_ok_iff {outputs : List β} :
    inputs.mapM step = .ok outputs ↔
      List.Forall₂ (fun input output => step input = .ok output) inputs
        outputs := by
  induction inputs generalizing outputs with
  | nil =>
    rw [List.mapM_nil, List.forall₂_nil_left_iff]
    exact ⟨fun same => (Except.ok.inj same).symm, fun same => same ▸ rfl⟩
  | cons input rest ih =>
    rw [List.mapM_cons, List.forall₂_cons_left_iff]
    constructor
    · intro success
      rcases exists_of_bind_eq_ok success with ⟨output, here, success⟩
      rcases exists_of_bind_eq_ok success with ⟨others, behind, same⟩
      exact ⟨output, others, here, ih.1 behind, (Except.ok.inj same).symm⟩
    · rintro ⟨output, others, here, behind, rfl⟩
      rw [here, ih.2 behind]
      rfl

/-- Steps that all succeed give their values in order. -/
theorem mapM_of_forall_eq_ok
    {value : α → β} (each : ∀ input ∈ inputs, step input = .ok (value input)) :
    inputs.mapM step = .ok (inputs.map value) := by
  rw [mapM_eq_ok_iff, List.forall₂_map_right_iff, List.forall₂_same]
  exact each

/-- Steps that all succeed can be taken one after the other. -/
theorem exists_mapM_eq_ok
    {holds : β → Prop}
    (each : ∀ input ∈ inputs, ∃ output, step input = .ok output ∧ holds output) :
    ∃ outputs, inputs.mapM step = .ok outputs ∧
      ∀ output ∈ outputs, holds output := by
  induction inputs with
  | nil => exact ⟨[], rfl, List.forall_mem_nil _⟩
  | cons input rest ih =>
    rw [List.forall_mem_cons] at each
    rcases each.1 with ⟨output, here, holdsHere⟩
    rcases ih each.2 with ⟨outputs, behind, holdsBehind⟩
    refine ⟨output :: outputs, ?_, ?_⟩
    · rw [List.mapM_cons, here, behind]
      rfl
    · exact List.forall_mem_cons.2 ⟨holdsHere, holdsBehind⟩

/-- Steps over a list fail with the first of them that fails. -/
theorem mapM_eq_error_iff {fault : ε} :
    inputs.mapM step = .error fault ↔
      ∃ (index : Nat) (input : α), inputs[index]? = some input ∧
        step input = .error fault ∧
        ∀ earlier < index, ∀ other, inputs[earlier]? = some other →
          ∃ output, step other = .ok output := by
  induction inputs with
  | nil =>
    constructor
    · intro failure
      cases failure
    · rintro ⟨index, input, found, -⟩
      cases found
  | cons input rest ih =>
    rw [List.mapM_cons]
    cases here : step input with
    | error cause =>
      constructor
      · intro failure
        cases failure
        exact ⟨0, input, rfl, here, fun _ none => (Nat.not_lt_zero _ none).elim⟩
      · rintro ⟨index, other, found, failed, earlier⟩
        cases index with
        | zero =>
          cases found
          cases here.symm.trans failed
          rfl
        | succ index =>
          rcases earlier 0 (Nat.succ_pos index) input rfl with ⟨output, passed⟩
          cases here.symm.trans passed
    | ok output =>
      have skipped :
          (Except.ok output >>= fun first =>
              rest.mapM step >>= fun others => pure (first :: others)) =
            Except.error fault ↔
          rest.mapM step = .error fault := by
        cases rest.mapM step with
        | error cause => exact Iff.rfl
        | ok others => simp [bind, Except.bind, pure, Except.pure]
      rw [skipped, ih]
      constructor
      · rintro ⟨index, other, found, failed, earlier⟩
        refine ⟨index + 1, other, found, failed, ?_⟩
        intro position before next foundNext
        cases position with
        | zero =>
          cases foundNext
          exact ⟨output, here⟩
        | succ position =>
          exact earlier position (Nat.lt_of_succ_lt_succ before) next foundNext
      · rintro ⟨index, other, found, failed, earlier⟩
        cases index with
        | zero =>
          cases found
          cases here.symm.trans failed
        | succ index =>
          refine ⟨index, other, found, failed, ?_⟩
          intro position before next foundNext
          exact earlier (position + 1) (Nat.succ_lt_succ before) next foundNext

end ApiAtlas
