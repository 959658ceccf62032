import ApiAtlas.Proofs.Stream.Cancellation
import ApiAtlas.Proofs.Stream.Fetching

/-!
# Cancelled calls of endpoints

The rows of a streaming endpoint are read under the eyes of the caller's
cancellation: once its moment has come the end is not reported, and a call
that is cancelled before it starts delivers no row.

The rows of any other endpoint are there at once and are all delivered.
Cancellation is not looked for, and the end is reported in any case.
-/

namespace ApiAtlas.Stream

/--
Events of a run that a moment stops: the end is not reported once the moment
has come, and no row is delivered if that was before the run.
-/
structure Stops (moment : Moment) (events : List Event) : Prop where
  endless : ∀ front behind, events = front ++ behind →
    moment.isReached (Seen.none.afterAll front) = true → .complete ∉ behind
  rowless : moment = .start → ∀ row, .record row ∉ events

variable {caller : Caller} {moment : Moment} {seen : Seen}
  {front behind events : List Event}

theorem Heeds.endless
    (heeds : Heeds moment .none (front ++ behind))
    (reached : moment.isReached (Seen.none.afterAll front) = true) :
    .complete ∉ behind := by
  intro member
  have later := (heeds_append.1 heeds).2.forall_of_isReached reached
  exact (later .complete member).2 rfl

/-! ## Streaming endpoints -/

theorem heeds_releasing (result : Result) :
    Heeds moment seen result.releasing := by
  apply heeds_of_forall
  rw [Result.releasing]
  split <;> simp

/-- The events of the call of a streaming endpoint heed the cancellation. -/
theorem heeds_deliverResult (result : Result) :
    Heeds moment .none
      (deliverResult (caller.cancelling moment) true result).events := by
  rw [deliverResult, if_pos rfl]
  cases result.data.source? with
  | none =>
    exact
      heeds_append.2
        ⟨heeds_of_isOfLine fun _ => isOfLine_of_mem_report,
          heeds_releasing result⟩
  | some source =>
    exact
      heeds_append.2
        ⟨heeds_consume caller moment source, heeds_releasing result⟩

/-- A stream whose reading is cancelled before it starts is closed at once. -/
theorem consume_cancelling_start (caller : Caller) (source : Source) :
    consume (caller.cancelling .start) source =
      .quiet (.cancelled :: source.closing) := by
  have cancelled (seen : Seen) :
      (caller.cancelling .start).hasCancelled seen = true :=
    rfl
  rw [consume, walk, walkFrom_of_cancelled (cancelled _)]
  simp only [conclude, completion, cancelled, if_true, List.append_nil]
  rfl

theorem record_notMem_closing (source : Source) (row : Datum) :
    .record row ∉ source.closing := by
  rw [Source.closing]
  split <;> simp

theorem record_notMem_deliverResult (result : Result) (row : Datum) :
    .record row ∉
      (deliverResult (caller.cancelling .start) true result).events := by
  have released : .record row ∉ result.releasing := by
    rw [Result.releasing]
    split <;> simp
  rw [deliverResult, if_pos rfl]
  cases result.data.source? with
  | none =>
    simp only [Passage.before, List.mem_append, not_or]
    refine ⟨?_, released⟩
    rw [Caller.report]
    split <;> simp
  | some source =>
    simp only [consume_cancelling_start, Passage.before, Passage.quiet,
      List.mem_append, List.mem_cons, reduceCtorEq, false_or, not_or]
    exact ⟨record_notMem_closing source row, released⟩

/-! ## Other endpoints -/

/-- Delivering rows that are there does not look for cancellation. -/
theorem deliverRows_cancelling
    (caller : Caller) (moment : Moment) (seen : Seen) (rows : List Datum) :
    deliverRows (caller.cancelling moment) seen rows =
      deliverRows caller.patient seen rows := by
  induction rows generalizing seen with
  | nil => rfl
  | cons row rest ih =>
    rw [deliverRows, deliverRows]
    simp only [ih]
    rfl

theorem complete_mem_deliverRows
    (passes : ∀ ordinal, caller.recordFault ordinal = none)
    (takesEnd : caller.takesEnd = true) (seen : Seen) (rows : List Datum) :
    .complete ∈ (deliverRows caller seen rows).events := by
  induction rows generalizing seen with
  | nil =>
    rw [deliverRows, Caller.finish, if_pos takesEnd]
    exact List.mem_singleton_self _
  | cons row rest ih =>
    rw [deliverRows, Caller.deliver, passes]
    exact List.mem_append_right _ (ih _)

/-! ## Calls -/

/--
A call that gives a result without a refusal is stopped by cancellation if the
endpoint is a streaming one.  Otherwise it is the call without cancellation,
and the end is reported if the rows are taken without a fault.
-/
theorem fetch_cancelling
    (caller : Caller) (moment : Moment) (endpoint : Endpoint)
    (options : Datum) {call : Datum → Except Fault Result} {result : Result}
    (called : call options = .ok result)
    (accepted : result.refusal.isTruthy = false) :
    (endpoint.streaming = true →
        Stops moment
          (fetch (caller.cancelling moment) endpoint options call).events) ∧
      (endpoint.streaming = false →
        fetch (caller.cancelling moment) endpoint options call =
            fetch caller.patient endpoint options call ∧
          ((∀ ordinal, caller.recordFault ordinal = none) →
            caller.takesEnd = true →
              .complete ∈
                (fetch (caller.cancelling moment) endpoint options
                  call).events)) := by
  have outcome (caller : Caller) :
      fetch caller endpoint options call =
        (deliverResult caller endpoint.streaming result).after
          [.called options] := by
    rw [fetch, called, deliverOutcome, accepted,
      if_neg Bool.false_ne_true]
  rw [outcome, outcome]
  constructor
  · intro streaming
    rw [streaming]
    have silent :
        Event.called options ≠ .read ∧ Event.called options ≠ .complete := by
      simp
    constructor
    · intro front behind split reached
      have heeds :
          Heeds moment .none
            (.called options ::
              (deliverResult (caller.cancelling moment) true result).events) :=
        ⟨fun _ => silent, heeds_deliverResult result⟩
      have whole :
          .called options ::
              (deliverResult (caller.cancelling moment) true result).events =
            front ++ behind :=
        split
      rw [whole] at heeds
      exact heeds.endless reached
    · rintro rfl row member
      rcases List.mem_cons.1 member with same | delivered
      · cases same
      · exact record_notMem_deliverResult result row delivered
  · intro atOnce
    rw [atOnce, deliverResult, deliverResult, if_neg Bool.false_ne_true,
      if_neg Bool.false_ne_true, deliverRows_cancelling]
    refine ⟨rfl, ?_⟩
    intro passes takesEnd
    apply List.mem_append_right
    exact
      @complete_mem_deliverRows caller.patient passes takesEnd .none
        result.data.rows

/-- A stream is not read at all, or to the end of the piece that is at hand. -/
theorem fetch_cancelling_openRecord :
    let call (_ : Datum) : Except Fault Result :=
      .ok ⟨.stream openRecord false, .held, .value .null⟩
    Stops .start
        (fetch (attentive.cancelling .start) streamingEndpoint .null
          call).events ∧
      Stops (.record 1)
        (fetch (attentive.cancelling (.record 1)) streamingEndpoint .null
          call).events := by
  intro call
  have stops (moment : Moment) :=
    (fetch_cancelling attentive moment streamingEndpoint .null
      (rfl : call .null = _) rfl).1 rfl
  exact ⟨stops .start, stops (.record 1)⟩

/-- An endpoint whose rows are there at once is not stopped. -/
theorem not_forall_fetch_cancelling :
    ¬ ∀ (caller : Caller) (moment : Moment) (endpoint : Endpoint)
        (options : Datum) (call : Datum → Except Fault Result)
        (result : Result),
      call options = .ok result → result.refusal.isTruthy = false →
        Stops moment
          (fetch (caller.cancelling moment) endpoint options call).events := by
  intro stops
  have stopped :=
    stops attentive .start { streamingEndpoint with streaming := false }
      .null (fun _ => .ok ⟨.value (.list [.int 1]), .value .null, .value .null⟩)
      _ rfl rfl
  have unreported :=
    stopped.endless [.called .null] [.record (.int 1), .complete] rfl rfl
  exact unreported (by simp)

end ApiAtlas.Stream
