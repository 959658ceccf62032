import ApiAtlas.Proofs.Stream.Closing
import ApiAtlas.Proofs.Stream.Fetching

/-!
# Responses are released

A response that the rows of a streaming endpoint come from is released as the
last thing of the call, after its stream has been closed.  It makes no
difference how the call ends: on its own, by cancellation, by a read or by
bytes that fail, by a fault of a callback, or because there is no stream to
read from.

Only a call that is refused does not come so far.  The refusal is reported at
once, and the response that has come with it is never released.
-/

namespace ApiAtlas.Stream

/-- The closings and releases among some events, in order. -/
def closingsOf (events : List Event) : List Event :=
  events.filter Event.isClosing

variable {caller : Caller} {events : List Event}

theorem closingsOf_append (front behind : List Event) :
    closingsOf (front ++ behind) = closingsOf front ++ closingsOf behind :=
  List.filter_append front behind

theorem closingsOf_eq_nil
    (none : ∀ event ∈ events, event.isClosing = false) :
    closingsOf events = [] := by
  rw [closingsOf, List.filter_eq_nil_iff]
  intro event member closes
  cases (none event member).symm.trans closes

theorem closingsOf_closing (source : Source) :
    closingsOf source.closing = source.closing := by
  rw [Source.closing]
  split <;> rfl

/-! ## The closings of a stream that is consumed -/

theorem closingsOf_report (caller : Caller) (seen : Seen) (fault : Fault) :
    closingsOf (caller.report seen fault).events = [] := by
  rw [Caller.report]
  split <;> rfl

theorem Tells.closingsOf_walk
    {taker : LineTaker} {news : String → List Event}
    (tells : Tells taker news) (source : Source) :
    closingsOf (walk caller taker source).events = [] := by
  apply closingsOf_eq_nil
  intro event member
  cases closes : event.isClosing with
  | false => rfl
  | true => exact (tells.closing_notMem_walk closes member).elim

theorem closingsOf_conclude
    (caller : Caller) (source : Source) (seen : Seen) (ending : Ending) :
    closingsOf (conclude caller source seen ending).events = source.closing := by
  have noneBefore : closingsOf (reportsBefore caller seen ending) = [] := by
    apply closingsOf_eq_nil
    intro event member
    rcases eq_of_mem_reportsBefore member with ⟨fault, rfl, -⟩
    rfl
  have noneBehind : closingsOf (reportsBehind caller seen ending) = [] := by
    apply closingsOf_eq_nil
    intro event member
    rcases eq_of_mem_reportsBehind member with rfl | ⟨message, rfl⟩
    · rfl
    · rfl
  rw [events_conclude, closingsOf_append, closingsOf_append, noneBefore,
    noneBehind, closingsOf_closing, List.nil_append, List.append_nil]

/-- A stream that is consumed is closed, and nothing else is. -/
theorem closingsOf_consume (caller : Caller) (source : Source) :
    closingsOf (consume caller source).events = source.closing := by
  rw [consume]
  refine (closingsOf_append _ _).trans ?_
  rw [(tells_takeRecord caller).closingsOf_walk, closingsOf_conclude,
    List.nil_append]

/-! ## Calls -/

/-- The rows of a streaming endpoint end with the release of the response. -/
theorem deliverResult_of_held
    {result : Result} (held : result.response = .held) :
    ∃ front,
      (deliverResult caller true result).events = front ++ [.released] ∧
        closingsOf front = result.data.source?.elim [] Source.closing := by
  have releasing : result.releasing = [.released] := by
    rw [Result.releasing, held]
  rw [deliverResult, if_pos rfl, releasing]
  cases result.data.source? with
  | none => exact ⟨_, rfl, closingsOf_report caller .none .streamUnavailable⟩
  | some source => exact ⟨_, rfl, closingsOf_consume caller source⟩

/--
The response of a streaming endpoint is released as the last event of a call
that is not refused, whatever the caller does and however the stream ends.
Before it nothing is closed but the stream, if there is one to read from.  The
response of a call that is refused is not released.
-/
theorem fetch_releases
    (caller : Caller) {endpoint : Endpoint}
    (streaming : endpoint.streaming = true) (options : Datum)
    {call : Datum → Except Fault Result} {result : Result}
    (called : call options = .ok result) (held : result.response = .held) :
    (result.refusal.isTruthy = false →
        ∃ front,
          (fetch caller endpoint options call).events = front ++ [.released] ∧
            closingsOf front = result.data.source?.elim [] Source.closing) ∧
      (result.refusal.isTruthy = true →
        .released ∉ (fetch caller endpoint options call).events) := by
  rw [fetch, called, deliverOutcome, streaming]
  constructor
  · intro accepted
    rw [accepted, if_neg Bool.false_ne_true]
    rcases deliverResult_of_held held with ⟨front, delivered, closings⟩
    refine ⟨.called options :: front, ?_, closings⟩
    rw [Passage.after, delivered]
    rfl
  · intro refused member
    rw [refused, if_pos rfl] at member
    have released :
        .released ∈
          closingsOf
            (caller.report .none
              (.callRefused endpoint.operationId result.refusal.text)).events := by
      rcases List.mem_cons.1 member with same | reported
      · cases same
      · exact List.mem_filter.2 ⟨reported, rfl⟩
    rw [closingsOf_report] at released
    cases released

/-- A read fails and nobody takes faults: the response is released all the same. -/
theorem fetch_releases_brokenStream :
    let call (_ : Datum) : Except Fault Result :=
      .ok
        ⟨.stream ⟨.asynchronous, [.failure "gone"]⟩ false, .held,
          .value (.str "")⟩
    (fetch attentive.unheeding streamingEndpoint .null call).fault =
        some (.readFailed "gone") ∧
      ∃ front,
        (fetch attentive.unheeding streamingEndpoint .null call).events =
            front ++ [.released] ∧
          closingsOf front = [.closed] := by
  intro call
  exact
    ⟨rfl,
      (fetch_releases attentive.unheeding rfl .null
          (rfl : call .null = _) rfl).1
        rfl⟩

/-- The response of a call that is refused is never released. -/
theorem not_forall_fetch_releases :
    ¬ ∀ (caller : Caller) (endpoint : Endpoint) (options : Datum)
        (call : Datum → Except Fault Result) (result : Result),
      endpoint.streaming = true → call options = .ok result →
        result.response = .held →
          .released ∈ (fetch caller endpoint options call).events := by
  intro releases
  have released :=
    releases attentive streamingEndpoint .null
      (fun _ => .ok ⟨.value .null, .held, .value (.str "x")⟩) _ rfl rfl rfl
  revert released
  decide

end ApiAtlas.Stream
