import ApiAtlas.Stream.Consume

/-!
# Calls of a caller

Among the events of a passage, those that the caller itself is told of are the
calls of its callbacks.  A caller is calm when it never cancels and its
callbacks never fail.
-/

namespace ApiAtlas.Stream

/-- Whether an event is a call of one of the caller's callbacks. -/
def Event.isCall : Event → Bool
  | .record _ | .error _ | .complete => true
  | _ => false

/-- The calls of the caller's callbacks among some events, in order. -/
def callsOf (events : List Event) : List Event := events.filter Event.isCall

/-- The calls of the caller's callbacks in a passage, in order. -/
def Passage.calls (passage : Passage) : List Event := callsOf passage.events

@[simp]
theorem callsOf_append (front behind : List Event) :
    callsOf (front ++ behind) = callsOf front ++ callsOf behind :=
  List.filter_append front behind

@[simp]
theorem callsOf_reading (source : Source) : callsOf source.reading = [] := by
  rw [Source.reading]
  split <;> rfl

@[simp]
theorem callsOf_closing (source : Source) : callsOf source.closing = [] := by
  rw [Source.closing]
  split <;> rfl

@[simp]
theorem callsOf_finish (caller : Caller) :
    callsOf caller.finish = caller.finish := by
  rw [Caller.finish]
  split <;> rfl

/-! ## Calm callers -/

/-- A caller that never cancels and whose callbacks never fail. -/
structure Caller.IsCalm (caller : Caller) : Prop where
  neverCancels : ∀ seen, caller.hasCancelled seen = false
  recordsPass : ∀ ordinal, caller.recordFault ordinal = none
  errorsPass : ∀ ordinal, caller.errorFault ordinal = none

/-- The calm caller that takes faults and the end. -/
def attentive : Caller :=
  { cancelAt := none
    recordFault := fun _ => none
    errorFault := fun _ => none
    takesErrors := true
    takesEnd := true }

theorem attentive_isCalm : attentive.IsCalm :=
  { neverCancels := fun _ => rfl
    recordsPass := fun _ => rfl
    errorsPass := fun _ => rfl }

/-- What a calm caller that takes faults is told of a fault. -/
theorem Caller.report_of_takesErrors
    {caller : Caller} (calm : caller.IsCalm)
    (takesErrors : caller.takesErrors = true) (seen : Seen) (fault : Fault) :
    caller.report seen fault = .quiet [.error fault] := by
  rw [Caller.report, if_pos takesErrors, calm.errorsPass]
  rfl

/-- A fault that nobody takes comes out. -/
theorem Caller.report_of_not_takesErrors
    {caller : Caller} (takesNone : caller.takesErrors = false)
    (seen : Seen) (fault : Fault) :
    caller.report seen fault = ⟨[], some fault⟩ := by
  rw [Caller.report, takesNone, if_neg Bool.false_ne_true]

end ApiAtlas.Stream
