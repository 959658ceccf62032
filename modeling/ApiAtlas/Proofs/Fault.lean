import ApiAtlas.Endpoint.Model
import ApiAtlas.Proofs.Outcome

/-!
# Declared failures

Building a catalog is declared to fail in two ways: with one of the library's
own faults, or because a value cannot be read.  A value that is used as
something that it is not is neither.  Steps fail only as declared if each of
them does, given what the steps before it have found.
-/

namespace ApiAtlas

/-- Whether a fault is one that building a catalog is declared to end in. -/
def Fault.IsDeclared (fault : Fault) : Prop :=
  fault.isOwn = true ∨ fault.isUnreadable = true

/-- Whether an outcome is a value or a declared fault. -/
def FailsAsDeclared {α : Type} (outcome : Except Fault α) : Prop :=
  ∀ fault, outcome = .error fault → fault.IsDeclared

variable {α β : Type}

theorem failsAsDeclared_ok (value : α) : FailsAsDeclared (.ok value) := by
  intro fault failure
  cases failure

/-- A fault that is declared is a declared outcome. -/
theorem Fault.IsDeclared.failsAsDeclared
    {fault : Fault} (declared : fault.IsDeclared) :
    FailsAsDeclared (.error fault : Except Fault α) := by
  intro other failure
  cases failure
  exact declared

theorem failsAsDeclared_of_isOwn
    {fault : Fault} (own : fault.isOwn = true) :
    FailsAsDeclared (.error fault : Except Fault α) :=
  Fault.IsDeclared.failsAsDeclared (Or.inl own)

/-- An outcome is declared once it is known to be a value. -/
theorem failsAsDeclared_of_eq_ok
    {outcome : Except Fault α} {value : α} (success : outcome = .ok value) :
    FailsAsDeclared outcome := by
  rw [success]
  exact failsAsDeclared_ok value

theorem FailsAsDeclared.bind
    {first : Except Fault α} {next : α → Except Fault β}
    (here : FailsAsDeclared first)
    (behind : ∀ value, first = .ok value → FailsAsDeclared (next value)) :
    FailsAsDeclared (first >>= next) := by
  cases first with
  | error fault => exact (here fault rfl).failsAsDeclared
  | ok value => exact behind value rfl

theorem FailsAsDeclared.bind_pure
    {outcome : Except Fault α} (declared : FailsAsDeclared outcome) (f : α → β) :
    FailsAsDeclared (outcome >>= fun value => pure (f value)) :=
  declared.bind fun value _ => failsAsDeclared_ok (f value)

theorem FailsAsDeclared.map
    {outcome : Except Fault α} (declared : FailsAsDeclared outcome) (f : α → β) :
    FailsAsDeclared (outcome.map f) := by
  cases outcome with
  | error fault => exact (declared fault rfl).failsAsDeclared
  | ok value => exact failsAsDeclared_ok (f value)

theorem failsAsDeclared_mapM
    {step : α → Except Fault β} {inputs : List α}
    (each : ∀ input ∈ inputs, FailsAsDeclared (step input)) :
    FailsAsDeclared (inputs.mapM step) := by
  intro fault failure
  rcases mapM_eq_error_iff.1 failure with ⟨index, input, found, failed, -⟩
  exact each input (List.mem_of_getElem? found) fault failed

/-- A value that does not pass a check is one that cannot be read. -/
theorem failsAsDeclared_outcome (check : Checked α) :
    FailsAsDeclared check.outcome := by
  intro fault failure
  cases check with
  | error issues =>
    cases failure
    exact Or.inr rfl
  | ok value => cases failure

end ApiAtlas
