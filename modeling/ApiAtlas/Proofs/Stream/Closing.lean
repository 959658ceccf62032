import ApiAtlas.Proofs.Stream.OpenLine

/-!
# Streams are closed once

However the consuming of a stream ends, the stream is closed exactly once.
Before that stands all that is observed of the walk: its reads, and what is
told of its lines.  Behind it stands only what is told of the stream itself:
that it has come to its end, or that a read has failed.  A fault that comes out
does so after all events, hence after the closing.

One failure to transport is reported before the stream is closed, and it is not
a failure of the stream: a fault that a callback of the caller has raised
itself, and that the caller is told of again.  It is the last event before the
closing, and nothing is reported behind it.
-/

namespace ApiAtlas.Stream

/-- Whether a callback has raised a fault at one of the calls that were made. -/
def Caller.HasRaised (caller : Caller) (seen : Seen) (fault : Fault) : Prop :=
  (∃ ordinal, isCounted ordinal seen.records = true ∧
      caller.recordFault ordinal = some fault) ∨
    ∃ ordinal, isCounted ordinal seen.errors = true ∧
      caller.errorFault ordinal = some fault

/-- Whether an event is the closing of a stream or the release of a response. -/
def Event.isClosing : Event → Bool
  | .closed | .released => true
  | _ => false

/-! ## What a walk leaves to be concluded -/

section Walks

variable {caller : Caller} {source : Source} {taker : LineTaker}
  {news : String → List Event}

theorem Tells.tellsLine_of_mem
    (tells : Tells taker news) (seen : Seen) (line : String) :
    ∀ event ∈ (taker seen line).events, event.tellsLine = true := by
  intro event member
  have told : event ∈ lineNewsOf (news line) := by
    rw [tells.ofLine]
    exact (tells.front seen line).subset member
  exact (List.mem_filter.1 told).2

/-- A walk is observed by its reads, its lines and its cancellation. -/
theorem Tells.mem_walk
    (tells : Tells taker news) :
    ∀ event ∈ (walk caller taker source).events,
      event = .read ∨ event = .cancelled ∨ event.tellsLine = true := by
  apply forall_mem_walkFrom
  · intro seen line event member
    exact Or.inr (Or.inr (tells.tellsLine_of_mem seen line event member))
  · intro event member
    rw [Source.reading] at member
    split at member
    · cases member
    · exact Or.inl (List.mem_singleton.1 member)
  · exact Or.inr (Or.inl rfl)

theorem Tells.notMem_walk
    (tells : Tells taker news) {event : Event}
    (noRead : event ≠ .read) (notNoticed : event ≠ .cancelled)
    (noLine : event.tellsLine = false) :
    event ∉ (walk caller taker source).events := by
  intro member
  rcases tells.mem_walk event member with read | noticed | ofLine
  · exact noRead read
  · exact notNoticed noticed
  · cases noLine.symm.trans ofLine

theorem Tells.complete_notMem_walk
    (tells : Tells taker news) :
    .complete ∉ (walk caller taker source).events :=
  tells.notMem_walk Event.noConfusion Event.noConfusion rfl

theorem Tells.transport_notMem_walk
    (tells : Tells taker news) {fault : Fault}
    (transport : fault.isTransport = true) :
    .error fault ∉ (walk caller taker source).events :=
  tells.notMem_walk Event.noConfusion Event.noConfusion
    (tellsLine_of_isTransport transport)

theorem Tells.closing_notMem_walk
    (tells : Tells taker news) {closing : Event}
    (closes : closing.isClosing = true) :
    closing ∉ (walk caller taker source).events := by
  cases closing with
  | closed => exact tells.notMem_walk Event.noConfusion Event.noConfusion rfl
  | released =>
    exact tells.notMem_walk Event.noConfusion Event.noConfusion rfl
  | _ => cases closes

theorem isCounted_succ (count : Nat) : isCounted (count + 1) (count + 1) = true := by
  simp [isCounted]

theorem hasRaised_of_report
    {seen : Seen} {reported fault : Fault}
    (raised : (caller.report seen reported).fault = some fault) :
    caller.HasRaised (seen.afterAll (caller.report seen reported).events)
        fault ∨
      fault = reported := by
  rw [Caller.report] at raised ⊢
  split at raised
  · next takes =>
    rw [if_pos takes]
    exact Or.inl (Or.inr ⟨_, isCounted_succ seen.errors, raised⟩)
  · exact Or.inr (Option.some.inj raised).symm

/-- A line becomes a failure to transport only within a callback. -/
theorem hasRaised_of_takeRecord
    {seen : Seen} {line : String} {fault : Fault}
    (raised : (takeRecord caller seen line).fault = some fault)
    (transport : fault.isTransport = true) :
    caller.HasRaised (seen.afterAll (takeRecord caller seen line).events)
      fault := by
  rw [takeRecord] at raised ⊢
  split at raised
  · exact Or.inl ⟨_, isCounted_succ seen.records, raised⟩
  · dsimp only at raised ⊢
    split at raised
    · next takes =>
      rw [if_pos takes]
      rcases hasRaised_of_report raised with byCallback | same
      · exact byCallback
      · subst same
        cases transport
    · cases raised
  · cases raised
    cases transport

/-- A walk fails to transport only by a fault that a callback has raised. -/
theorem hasRaised_of_walk
    {fault : Fault}
    (failed : (walk caller (takeRecord caller) source).ending = .failed fault)
    (transport : fault.isTransport = true) :
    caller.HasRaised
      (Seen.none.afterAll (walk caller (takeRecord caller) source).events)
      fault := by
  cases failsBy_of_walkFrom failed with
  | line told raised =>
    rw [walk, told, Seen.afterAll_append]
    exact hasRaised_of_takeRecord raised transport
  | bytes cause => cases transport
  | foreign => cases transport

end Walks

/-! ## Consuming and collecting -/

section Closing

variable {caller : Caller} {source : Source} {closing : Event}

/-- What is observed of a consumed stream before it is closed. -/
def beforeClosing (caller : Caller) (source : Source) : List Event :=
  let walked := walk caller (takeRecord caller) source
  walked.events ++
    reportsBefore caller (Seen.none.afterAll walked.events) walked.ending

/-- What is observed of a consumed stream behind its closing. -/
def behindClosing (caller : Caller) (source : Source) : List Event :=
  let walked := walk caller (takeRecord caller) source
  reportsBehind caller (Seen.none.afterAll walked.events) walked.ending

theorem events_consume (caller : Caller) (source : Source) :
    (consume caller source).events =
      beforeClosing caller source ++ source.closing ++
        behindClosing caller source := by
  rw [consume, Passage.after, events_conclude, beforeClosing, behindClosing]
  simp only [List.append_assoc]

theorem exists_closing
    (closable : source.kind ≠ .plain) :
    ∃ closing, source.closing = [closing] ∧ closing.isClosing = true := by
  rw [Source.closing]
  cases kind : source.kind with
  | asynchronous => exact ⟨_, rfl, rfl⟩
  | synchronous => exact ⟨_, rfl, rfl⟩
  | plain => exact (closable kind).elim
  | response => exact ⟨_, rfl, rfl⟩

theorem closing_notMem_beforeClosing (closes : closing.isClosing = true) :
    closing ∉ beforeClosing caller source := by
  rw [beforeClosing, List.mem_append, not_or]
  refine ⟨(tells_takeRecord caller).closing_notMem_walk closes, ?_⟩
  intro member
  rcases eq_of_mem_reportsBefore member with ⟨fault, rfl, -⟩
  cases closes

/-- Nothing is read or told of a line behind the closing. -/
theorem eq_of_mem_behindClosing
    {event : Event} (member : event ∈ behindClosing caller source) :
    event = .complete ∨ ∃ message, event = .error (.readFailed message) :=
  eq_of_mem_reportsBehind member

theorem closing_notMem_behindClosing (closes : closing.isClosing = true) :
    closing ∉ behindClosing caller source := by
  intro member
  rcases eq_of_mem_behindClosing member with rfl | ⟨message, rfl⟩
  · cases closes
  · cases closes

theorem complete_notMem_beforeClosing :
    .complete ∉ beforeClosing caller source := by
  rw [beforeClosing, List.mem_append, not_or]
  refine ⟨(tells_takeRecord caller).complete_notMem_walk, ?_⟩
  intro member
  rcases eq_of_mem_reportsBefore member with ⟨fault, same, -⟩
  cases same

/--
A failure to transport that is reported before the closing has been raised by a
callback, is reported last, and leaves nothing to be reported behind it.
-/
theorem hasRaised_of_mem_beforeClosing
    {fault : Fault} (transport : fault.isTransport = true)
    (member : .error fault ∈ beforeClosing caller source) :
    ∃ events,
      beforeClosing caller source = events ++ [.error fault] ∧
        behindClosing caller source = [] ∧
        caller.HasRaised (Seen.none.afterAll events) fault := by
  have notTold :
      .error fault ∉ (walk caller (takeRecord caller) source).events :=
    (tells_takeRecord caller).transport_notMem_walk transport
  have reported := (List.mem_append.1 member).resolve_left notTold
  rcases eq_of_mem_reportsBefore reported with
    ⟨raised, same, failed, -, alone⟩
  cases same
  refine ⟨_, congrArg (_ ++ ·) alone, ?_, hasRaised_of_walk failed transport⟩
  rw [behindClosing, failed]
  rfl

/--
A stream that can be closed is closed exactly once, whatever the caller does
and however the stream ends.  Behind the closing there are no reads, records or
lines without a record: only the end or the failure of a read is reported
there, and neither is reported before.  A failure to transport is reported
before the closing only if a callback has raised it: then it is the last event
before the closing, and nothing is behind it.  Collecting lines ends with the
closing.
-/
theorem closes_once
    (caller : Caller) (closable : source.kind ≠ .plain) :
    ∃ closing, source.closing = [closing] ∧
      (∃ front behind,
        (consume caller source).events = front ++ closing :: behind ∧
          closing ∉ front ∧ closing ∉ behind ∧
          (∀ event ∈ behind,
            event = .complete ∨
              ∃ message, event = .error (.readFailed message)) ∧
          .complete ∉ front ∧
          ∀ fault, fault.isTransport = true → .error fault ∈ front →
            ∃ events, front = events ++ [.error fault] ∧ behind = [] ∧
              caller.HasRaised (Seen.none.afterAll events) fault) ∧
      ∃ front,
        (collect caller source).events = front ++ [closing] ∧
          closing ∉ front := by
  rcases exists_closing closable with ⟨closing, closingEq, closes⟩
  refine ⟨closing, closingEq, ?_, ?_⟩
  · refine
      ⟨beforeClosing caller source, behindClosing caller source, ?_,
        closing_notMem_beforeClosing closes,
        closing_notMem_behindClosing closes,
        fun event => eq_of_mem_behindClosing, complete_notMem_beforeClosing,
        fun fault => hasRaised_of_mem_beforeClosing⟩
    rw [events_consume, closingEq, List.append_assoc, List.singleton_append]
  · refine
      ⟨(walk caller takeLine source).events, ?_,
        tells_takeLine.closing_notMem_walk closes⟩
    rw [collect, closingEq]

/-- A caller whose callback for records finds another stream unavailable. -/
def interrupted : Caller :=
  { attentive with recordFault := fun _ => some .streamUnavailable }

theorem consume_interrupted :
    consume interrupted openRecord =
      ⟨[.read, .record (.map []), .error .streamUnavailable, .closed], none⟩ := by
  have fed :
      (LineBuffer.start .utf8).feed [0x7B, 0x7D, 0x0A, 0x78] =
        .ok (⟨.utf8, [], ['x']⟩, ["{}"]) := by
    decide +kernel
  simp only [consume, walk, openRecord, walkFrom, fed, handOut, takeRecord,
    Json.read_braces]
  rfl

/-- A stream is closed once though the callback for its first record fails. -/
theorem closes_once_interrupted :
    openRecord.kind ≠ .plain ∧
      (consume interrupted openRecord).events.count .closed = 1 ∧
      (collect interrupted openRecord).events.getLast? = some .closed := by
  have closable : openRecord.kind ≠ .plain := StreamKind.noConfusion
  rcases closes_once interrupted closable with
    ⟨closing, closes, ⟨front, behind, consumed, notBefore, notBehind, -⟩,
      before, collected, -⟩
  obtain rfl : .closed = closing := List.singleton_inj.1 closes
  refine ⟨closable, ?_, ?_⟩
  · rw [consumed, List.count_append, List.count_cons_self,
      List.count_eq_zero_of_not_mem notBefore,
      List.count_eq_zero_of_not_mem notBehind]
  · rw [collected, List.getLast?_concat]

/--
A failure to transport that a callback raises is reported before the stream is
closed.
-/
theorem not_forall_closes_once :
    ¬ ∀ (caller : Caller) (source : Source), source.kind ≠ .plain →
      ∃ closing, source.closing = [closing] ∧
        ∃ front behind,
          (consume caller source).events = front ++ closing :: behind ∧
            ∀ fault, fault.isTransport = true → .error fault ∉ front := by
  intro closesBefore
  rcases closesBefore interrupted openRecord StreamKind.noConfusion with
    ⟨closing, closes, front, behind, consumed, noTransport⟩
  obtain rfl : .closed = closing := List.singleton_inj.1 closes
  rw [consume_interrupted] at consumed
  refine noTransport .streamUnavailable rfl ?_
  rcases front with - | ⟨first, - | ⟨second, - | ⟨third, more⟩⟩⟩
  · cases consumed
  · cases consumed
  · cases consumed
  · simp only [List.cons_append, List.cons.injEq] at consumed
    rcases consumed with ⟨-, -, rfl, -⟩
    exact List.mem_cons_of_mem _ (List.mem_cons_of_mem _ List.mem_cons_self)

end Closing

end ApiAtlas.Stream
