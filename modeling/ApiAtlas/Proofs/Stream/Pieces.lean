import ApiAtlas.Stream.Consume
import Mathlib.Data.List.Basic

/-!
# Pieces of a walk

A walk takes one piece of its stream after another.  A piece adds the events of
the lines that it completes, and ends the walk or leaves a buffer to go on
with.  What concludes a walk closes the stream and reports how it ended.

Two facts follow for whole walks: a walk depends on no more pieces than it
reads, and a list of pieces is consumed like a stream that is read piece by
piece, whose reads are not seen.
-/

namespace ApiAtlas.Stream

/-! ## What has been seen -/

namespace Seen

theorem afterAll_append (seen : Seen) (front behind : List Event) :
    seen.afterAll (front ++ behind) = (seen.afterAll front).afterAll behind :=
  List.foldl_append

theorem reads_afterAll (seen : Seen) (events : List Event) :
    (seen.afterAll events).reads = seen.reads + events.count .read := by
  induction events generalizing seen with
  | nil => rfl
  | cons event rest ih =>
    rw [afterAll, List.foldl_cons, ← afterAll, ih, List.count_cons]
    cases event <;> simp [after, Nat.add_assoc, Nat.add_comm 1]

end Seen

/-! ## One piece of a walk -/

/--
What a piece adds to a walk: the events of its lines, and the end of the walk
or the buffer to go on with.
-/
def takePiece (taker : LineTaker) (seen : Seen) (buffer : LineBuffer) :
    Chunk → List Event × Except Ending LineBuffer
  | .failure message => ([], .error (.broken message))
  | .foreign => ([], .error (.failed (.misuse .unsupported)))
  | .bytes content =>
    match buffer.feed content with
    | .error fault => ([], .error (.failed (.encoding fault)))
    | .ok (after, lines) =>
      let passage := handOut taker seen lines
      match passage.fault with
      | some fault => (passage.events, .error (.failed fault))
      | none => (passage.events, .ok after)

section Walk

variable {caller : Caller} {taker : LineTaker} {reading : List Event}
  {seen : Seen} {buffer : LineBuffer}

theorem walkFrom_of_cancelled
    (cancelled : caller.hasCancelled seen = true) (chunks : List Chunk) :
    walkFrom caller taker reading seen buffer chunks =
      ⟨[.cancelled], .cancelled⟩ := by
  cases chunks with
  | nil => rw [walkFrom, if_pos cancelled]
  | cons chunk rest => cases chunk <;> rw [walkFrom, if_pos cancelled]

theorem walkFrom_nil
    (waiting : caller.hasCancelled seen = false) :
    walkFrom caller taker reading seen buffer [] =
      (walkEnd taker (seen.afterAll reading) buffer).after reading := by
  rw [walkFrom, waiting, if_neg Bool.false_ne_true]

theorem walkFrom_cons_of_error
    {chunk : Chunk} {events : List Event} {ending : Ending}
    (waiting : caller.hasCancelled seen = false)
    (taken :
      takePiece taker (seen.afterAll reading) buffer chunk =
        (events, .error ending))
    (rest : List Chunk) :
    walkFrom caller taker reading seen buffer (chunk :: rest) =
      ⟨reading ++ events, ending⟩ := by
  cases chunk with
  | failure message =>
    cases taken
    rw [walkFrom, waiting, if_neg Bool.false_ne_true, List.append_nil]
  | foreign =>
    cases taken
    rw [walkFrom, waiting, if_neg Bool.false_ne_true, List.append_nil]
  | bytes content =>
    rw [walkFrom, waiting, if_neg Bool.false_ne_true]
    rw [takePiece] at taken
    cases fed : buffer.feed content with
    | error fault =>
      simp only [fed] at taken ⊢
      cases taken
      rw [List.append_nil]
    | ok piece =>
      simp only [fed] at taken ⊢
      cases outcome :
          (handOut taker (seen.afterAll reading) piece.2).fault with
      | some fault =>
        simp only [outcome] at taken
        cases taken
        rfl
      | none =>
        simp only [outcome] at taken
        cases taken

theorem walkFrom_cons_of_ok
    {chunk : Chunk} {events : List Event} {after : LineBuffer}
    (waiting : caller.hasCancelled seen = false)
    (taken :
      takePiece taker (seen.afterAll reading) buffer chunk =
        (events, .ok after))
    (rest : List Chunk) :
    walkFrom caller taker reading seen buffer (chunk :: rest) =
      (walkFrom caller taker reading
        (seen.afterAll (reading ++ events)) after rest).after
          (reading ++ events) := by
  cases chunk with
  | failure message => cases taken
  | foreign => cases taken
  | bytes content =>
    rw [walkFrom, waiting, if_neg Bool.false_ne_true, Seen.afterAll_append]
    rw [takePiece] at taken
    cases fed : buffer.feed content with
    | error fault =>
      simp only [fed] at taken
      cases taken
    | ok piece =>
      simp only [fed] at taken ⊢
      cases outcome :
          (handOut taker (seen.afterAll reading) piece.2).fault with
      | some fault =>
        simp only [outcome] at taken
        cases taken
      | none =>
        simp only [outcome] at taken
        cases taken
        rfl

end Walk

/-! ## Events of walks -/

section Events

variable {holds : Event → Prop} {taker : LineTaker}

/-- What holds of all that becomes of a line holds of all events of lines. -/
theorem forall_mem_handOut
    (ofTaker : ∀ seen line, ∀ event ∈ (taker seen line).events, holds event)
    (seen : Seen) (lines : List String) :
    ∀ event ∈ (handOut taker seen lines).events, holds event := by
  induction lines generalizing seen with
  | nil => exact List.forall_mem_nil _
  | cons line rest ih =>
    rw [handOut]
    split
    · exact ofTaker seen line
    · rw [Passage.after, List.forall_mem_append]
      exact ⟨ofTaker seen line, ih _⟩

theorem forall_mem_takePiece
    (ofTaker : ∀ seen line, ∀ event ∈ (taker seen line).events, holds event)
    {seen : Seen} {buffer : LineBuffer} {chunk : Chunk} {events : List Event}
    {next : Except Ending LineBuffer}
    (taken : takePiece taker seen buffer chunk = (events, next)) :
    ∀ event ∈ events, holds event := by
  cases chunk with
  | failure message =>
    cases taken
    exact List.forall_mem_nil _
  | foreign =>
    cases taken
    exact List.forall_mem_nil _
  | bytes content =>
    rw [takePiece] at taken
    split at taken
    · cases taken
      exact List.forall_mem_nil _
    · dsimp only at taken
      split at taken
      · cases taken
        exact forall_mem_handOut ofTaker _ _
      · cases taken
        exact forall_mem_handOut ofTaker _ _

theorem forall_mem_walkEnd
    (ofTaker : ∀ seen line, ∀ event ∈ (taker seen line).events, holds event)
    (seen : Seen) (buffer : LineBuffer) :
    ∀ event ∈ (walkEnd taker seen buffer).events, holds event := by
  rw [walkEnd]
  split
  · exact List.forall_mem_nil _
  · dsimp only
    split
    · exact forall_mem_handOut ofTaker _ _
    · exact forall_mem_handOut ofTaker _ _

theorem forall_mem_walkFrom
    (ofTaker : ∀ seen line, ∀ event ∈ (taker seen line).events, holds event)
    {reading : List Event} (ofReading : ∀ event ∈ reading, holds event)
    (noticed : holds .cancelled) (caller : Caller) (seen : Seen)
    (buffer : LineBuffer) (chunks : List Chunk) :
    ∀ event ∈ (walkFrom caller taker reading seen buffer chunks).events,
      holds event := by
  induction chunks generalizing seen buffer with
  | nil =>
    cases waiting : caller.hasCancelled seen with
    | true =>
      rw [walkFrom_of_cancelled waiting]
      exact List.forall_mem_singleton.2 noticed
    | false =>
      rw [walkFrom_nil waiting, Walked.after, List.forall_mem_append]
      exact ⟨ofReading, forall_mem_walkEnd ofTaker _ _⟩
  | cons chunk rest ih =>
    cases waiting : caller.hasCancelled seen with
    | true =>
      rw [walkFrom_of_cancelled waiting]
      exact List.forall_mem_singleton.2 noticed
    | false =>
      rcases taken : takePiece taker (seen.afterAll reading) buffer chunk with
        ⟨events, ending | after⟩
      · rw [walkFrom_cons_of_error waiting taken, List.forall_mem_append]
        exact ⟨ofReading, forall_mem_takePiece ofTaker taken⟩
      · rw [walkFrom_cons_of_ok waiting taken, Walked.after,
          List.forall_mem_append, List.forall_mem_append]
        exact
          ⟨⟨ofReading, forall_mem_takePiece ofTaker taken⟩, ih _ after⟩

end Events

/-! ## Faults of walks -/

section Faults

variable {taker : LineTaker} {seen : Seen} {fault : Fault}

/-- Why a walk fails: at a line, by its bytes or by what is no run of bytes. -/
inductive FailsBy (taker : LineTaker) (seen : Seen) (events : List Event) :
    Fault → Prop where
  | line {front : List Event} {line : String} {fault : Fault}
      (told :
        events = front ++ (taker (seen.afterAll front) line).events)
      (raised : (taker (seen.afterAll front) line).fault = some fault) :
      FailsBy taker seen events fault
  | bytes (cause : Text.DecodeFault) :
      FailsBy taker seen events (.encoding cause)
  | foreign : FailsBy taker seen events (.misuse .unsupported)

theorem FailsBy.after
    {events : List Event} (front : List Event)
    (fails : FailsBy taker (seen.afterAll front) events fault) :
    FailsBy taker seen (front ++ events) fault := by
  cases fails with
  | @line earlier line _ told raised =>
    rw [← Seen.afterAll_append] at told raised
    refine .line ?_ raised
    rw [told, List.append_assoc]
  | bytes cause => exact .bytes cause
  | foreign => exact .foreign

/-- What is told of lines up to a fault ends with the line it comes out of. -/
theorem exists_line_of_handOut
    {lines : List String}
    (raised : (handOut taker seen lines).fault = some fault) :
    ∃ front line,
      (handOut taker seen lines).events =
          front ++ (taker (seen.afterAll front) line).events ∧
        (taker (seen.afterAll front) line).fault = some fault := by
  induction lines generalizing seen with
  | nil => cases raised
  | cons line rest ih =>
    rw [handOut] at raised ⊢
    split at raised
    · exact ⟨[], line, rfl, raised⟩
    · rcases ih raised with ⟨front, last, told, fails⟩
      rw [← Seen.afterAll_append] at told fails
      refine ⟨_, last, ?_, fails⟩
      rw [Passage.after, told, List.append_assoc]

theorem failsBy_of_handOut
    {lines : List String}
    (raised : (handOut taker seen lines).fault = some fault) :
    FailsBy taker seen (handOut taker seen lines).events fault := by
  rcases exists_line_of_handOut raised with ⟨front, line, told, fails⟩
  exact .line told fails

theorem failsBy_of_takePiece
    {buffer : LineBuffer} {chunk : Chunk} {events : List Event}
    (failed :
      takePiece taker seen buffer chunk =
        (events, .error (.failed fault))) :
    FailsBy taker seen events fault := by
  cases chunk with
  | failure message => cases failed
  | foreign =>
    cases failed
    exact .foreign
  | bytes content =>
    rw [takePiece] at failed
    split at failed
    · cases failed
      exact .bytes _
    · dsimp only at failed
      split at failed
      · next raised =>
        cases failed
        exact failsBy_of_handOut raised
      · cases failed

theorem failsBy_of_walkEnd
    {buffer : LineBuffer}
    (failed : (walkEnd taker seen buffer).ending = .failed fault) :
    FailsBy taker seen (walkEnd taker seen buffer).events fault := by
  rw [walkEnd] at failed ⊢
  split at failed
  · cases failed
    exact .bytes _
  · dsimp only at failed ⊢
    split at failed
    · next raised =>
      cases failed
      exact failsBy_of_handOut raised
    · cases failed

/-- A walk fails at its last line, by its bytes or by what is no run of bytes. -/
theorem failsBy_of_walkFrom
    {caller : Caller} {reading : List Event} {buffer : LineBuffer}
    {chunks : List Chunk}
    (failed :
      (walkFrom caller taker reading seen buffer chunks).ending =
        .failed fault) :
    FailsBy taker seen
      (walkFrom caller taker reading seen buffer chunks).events fault := by
  induction chunks generalizing seen buffer with
  | nil =>
    cases waiting : caller.hasCancelled seen with
    | true =>
      rw [walkFrom_of_cancelled waiting] at failed
      cases failed
    | false =>
      rw [walkFrom_nil waiting] at failed ⊢
      exact (failsBy_of_walkEnd failed).after reading
  | cons chunk rest ih =>
    cases waiting : caller.hasCancelled seen with
    | true =>
      rw [walkFrom_of_cancelled waiting] at failed
      cases failed
    | false =>
      rcases taken : takePiece taker (seen.afterAll reading) buffer chunk with
        ⟨events, ending | after⟩
      · rw [walkFrom_cons_of_error waiting taken] at failed ⊢
        cases failed
        exact (failsBy_of_takePiece taken).after reading
      · rw [walkFrom_cons_of_ok waiting taken] at failed ⊢
        exact (ih failed).after (reading ++ events)

end Faults

/-! ## Events of records -/

/-- Whether an event is what becomes of a line. -/
def Event.isOfLine : Event → Bool
  | .record _ | .error _ | .skipped _ => true
  | _ => false

theorem eq_of_mem_report
    {caller : Caller} {seen : Seen} {fault : Fault} {event : Event}
    (member : event ∈ (caller.report seen fault).events) :
    event = .error fault ∧
      (caller.report seen fault).events = [.error fault] := by
  rw [Caller.report] at member ⊢
  split at member
  · next takes =>
    rw [if_pos takes]
    exact ⟨List.mem_singleton.1 member, rfl⟩
  · cases member

theorem isOfLine_of_mem_report
    {caller : Caller} {seen : Seen} {fault : Fault} {event : Event}
    (member : event ∈ (caller.report seen fault).events) :
    event.isOfLine = true := by
  rcases eq_of_mem_report member with ⟨rfl, -⟩
  rfl

theorem isOfLine_of_mem_takeRecord
    (caller : Caller) (seen : Seen) (line : String) :
    ∀ event ∈ (takeRecord caller seen line).events,
      event.isOfLine = true := by
  intro event member
  rw [takeRecord] at member
  split at member
  · rw [Caller.deliver, List.mem_singleton] at member
    exact member ▸ rfl
  · dsimp only at member
    split at member
    · exact isOfLine_of_mem_report member
    · rw [Passage.quiet, List.mem_singleton] at member
      exact member ▸ rfl
  · cases member

theorem isOfLine_of_takePiece
    {caller : Caller} {seen : Seen} {buffer : LineBuffer} {chunk : Chunk}
    {events : List Event} {next : Except Ending LineBuffer}
    (taken :
      takePiece (takeRecord caller) seen buffer chunk = (events, next)) :
    ∀ event ∈ events, event.isOfLine = true :=
  forall_mem_takePiece (isOfLine_of_mem_takeRecord caller) taken

theorem isOfLine_of_mem_walkEnd
    {caller : Caller} {seen : Seen} {buffer : LineBuffer} {event : Event}
    (member : event ∈ (walkEnd (takeRecord caller) seen buffer).events) :
    event.isOfLine = true :=
  forall_mem_walkEnd (isOfLine_of_mem_takeRecord caller) seen buffer event
    member

/-! ## What is concluded -/

/--
What is reported before a stream is closed: a failure to transport that has
come out of the walk.
-/
def reportsBefore (caller : Caller) (seen : Seen) : Ending → List Event
  | .failed fault =>
    if fault.isTransport then (caller.report seen fault).events else []
  | _ => []

/-- What is reported behind the closing: the end, or the failure of a read. -/
def reportsBehind (caller : Caller) (seen : Seen) : Ending → List Event
  | .ended | .cancelled => completion caller seen
  | .broken message => (caller.report seen (.readFailed message)).events
  | .failed _ => []

section Conclusion

variable {caller : Caller} {seen : Seen} {ending : Ending} {event : Event}

/-- A stream is closed in one place of what is concluded. -/
theorem events_conclude
    (caller : Caller) (source : Source) (seen : Seen) (ending : Ending) :
    (conclude caller source seen ending).events =
      reportsBefore caller seen ending ++ source.closing ++
        reportsBehind caller seen ending := by
  cases ending with
  | ended => rfl
  | cancelled => rfl
  | broken message => rfl
  | failed fault =>
    rw [conclude, reportsBefore, reportsBehind, List.append_nil]
    split
    · rfl
    · rfl

/-- Nothing else is reported before the closing than one failure to transport. -/
theorem eq_of_mem_reportsBefore
    (member : event ∈ reportsBefore caller seen ending) :
    ∃ fault, event = .error fault ∧ ending = .failed fault ∧
      fault.isTransport = true ∧
      reportsBefore caller seen ending = [.error fault] := by
  cases ending with
  | failed fault =>
    rw [reportsBefore] at member ⊢
    split at member
    · next transport =>
      rw [if_pos transport]
      rcases eq_of_mem_report member with ⟨same, reported⟩
      exact ⟨fault, same, rfl, transport, reported⟩
    · cases member
  | _ => cases member

theorem eq_of_mem_reportsBehind
    (member : event ∈ reportsBehind caller seen ending) :
    event = .complete ∨ ∃ message, event = .error (.readFailed message) := by
  have completed (member : event ∈ completion caller seen) :
      event = .complete := by
    rw [completion, Caller.finish] at member
    split at member
    · cases member
    · split at member
      · exact List.mem_singleton.1 member
      · cases member
  cases ending with
  | ended => exact Or.inl (completed member)
  | cancelled => exact Or.inl (completed member)
  | broken message => exact Or.inr ⟨message, (eq_of_mem_report member).1⟩
  | failed fault => cases member

end Conclusion

/-! ## Pieces that have been read -/

theorem count_read_pos
    {others count : Nat}
    (enough : [Event.read].count .read + others ≤ count) : 0 < count := by
  rw [List.count_singleton_self] at enough
  exact Nat.lt_of_lt_of_le (Nat.lt_add_right others Nat.zero_lt_one) enough

theorem exists_cons_of_take_eq
    {α : Type} {item : α} {rest others : List α} {count : Nat}
    (pos : 0 < count) (same : others.take count = (item :: rest).take count) :
    ∃ behind,
      others = item :: behind ∧
        behind.take (count - 1) = rest.take (count - 1) := by
  cases count with
  | zero => exact (Nat.lt_irrefl 0 pos).elim
  | succ count =>
    cases others with
    | nil => cases same
    | cons other behind =>
      rw [List.take_succ_cons, List.take_succ_cons] at same
      rcases List.cons.inj same with ⟨rfl, below⟩
      exact ⟨behind, rfl, below⟩

/-- A walk depends on no more pieces than it reads. -/
theorem walkFrom_eq_of_take_eq
    {caller : Caller} {taker : LineTaker} {seen : Seen} {buffer : LineBuffer}
    {chunks others : List Chunk} {count : Nat}
    (enough :
      (walkFrom caller taker [.read] seen buffer chunks).events.count .read ≤
        count)
    (same : others.take count = chunks.take count) :
    walkFrom caller taker [.read] seen buffer others =
      walkFrom caller taker [.read] seen buffer chunks := by
  induction chunks generalizing seen buffer others count with
  | nil =>
    cases waiting : caller.hasCancelled seen with
    | true =>
      rw [walkFrom_of_cancelled waiting, walkFrom_of_cancelled waiting]
    | false =>
      rw [walkFrom_nil waiting, Walked.after, List.count_append] at enough
      rw [List.take_nil, List.take_eq_nil_iff] at same
      rcases same with none | none
      · exact (Nat.ne_of_gt (count_read_pos enough) none).elim
      · rw [none]
  | cons chunk rest ih =>
    cases waiting : caller.hasCancelled seen with
    | true =>
      rw [walkFrom_of_cancelled waiting, walkFrom_of_cancelled waiting]
    | false =>
      rcases taken : takePiece taker (seen.afterAll [.read]) buffer chunk with
        ⟨events, ending | after⟩
      · rw [walkFrom_cons_of_error waiting taken, List.count_append] at enough
        rcases exists_cons_of_take_eq (count_read_pos enough) same with
          ⟨others, rfl, -⟩
        rw [walkFrom_cons_of_error waiting taken,
          walkFrom_cons_of_error waiting taken]
      · rw [walkFrom_cons_of_ok waiting taken, Walked.after,
          List.append_assoc, List.count_append, List.count_append] at enough
        rcases exists_cons_of_take_eq (count_read_pos enough) same with
          ⟨others, rfl, below⟩
        rw [walkFrom_cons_of_ok waiting taken,
          walkFrom_cons_of_ok waiting taken, ih ?_ below]
        rw [List.count_singleton_self] at enough
        omega

theorem consume_eq_of_take_eq
    {caller : Caller} {source : Source} (hasReads : source.kind ≠ .plain)
    {others : List Chunk} {count : Nat}
    (enough : (consume caller source).events.count .read ≤ count)
    (same : others.take count = source.chunks.take count) :
    consume caller { source with chunks := others } =
      consume caller source := by
  have reading : source.reading = [.read] := if_neg hasReads
  have walkedEq :
      walk caller (takeRecord caller) { source with chunks := others } =
        walk caller (takeRecord caller) source := by
    rw [consume, Passage.after, List.count_append, walk, reading] at enough
    have otherReading :
        { source with chunks := others : Source }.reading = [.read] :=
      reading
    rw [walk, walk, reading, otherReading]
    exact walkFrom_eq_of_take_eq (Nat.le_of_add_right_le enough) same
  rw [consume, consume, walkedEq]
  rfl

/-! ## Lists of pieces -/

/-- Whether an event is seen where the stream is read, not by the caller. -/
def Event.isOfReader : Event → Bool
  | .read | .closed => true
  | _ => false

/-- The events that are not seen where the stream is read. -/
def withoutReader (events : List Event) : List Event :=
  events.filter fun event => !event.isOfReader

theorem withoutReader_append (front behind : List Event) :
    withoutReader (front ++ behind) =
      withoutReader front ++ withoutReader behind :=
  List.filter_append front behind

theorem withoutReader_of_isOfLine
    {events : List Event}
    (ofLines : ∀ event ∈ events, event.isOfLine = true) :
    withoutReader events = events := by
  rw [withoutReader, List.filter_eq_self]
  intro event member
  have ofLine := ofLines event member
  cases event <;> first | rfl | cases ofLine

section Lists

variable {caller : Caller} {seen : Seen} {buffer : LineBuffer}

/-- Reads are counted, and nothing else depends on them. -/
theorem afterAll_withReads
    (seen : Seen) (count : Nat) (events : List Event) :
    ∃ later,
      Seen.afterAll { seen with reads := count } events =
        { seen.afterAll events with reads := later } := by
  induction events generalizing seen count with
  | nil => exact ⟨count, rfl⟩
  | cons event rest ih =>
    cases event with
    | read => exact ih { seen with reads := seen.reads + 1 } (count + 1)
    | record value => exact ih (seen.after (.record value)) count
    | error fault => exact ih (seen.after (.error fault)) count
    | _ => exact ih seen count

theorem handOut_withReads
    (caller : Caller) (seen : Seen) (count : Nat) (lines : List String) :
    handOut (takeRecord caller) { seen with reads := count } lines =
      handOut (takeRecord caller) seen lines := by
  induction lines generalizing seen count with
  | nil => rfl
  | cons line rest ih =>
    have taken :
        takeRecord caller { seen with reads := count } line =
          takeRecord caller seen line :=
      rfl
    rw [handOut, handOut, taken]
    rcases afterAll_withReads seen count (takeRecord caller seen line).events
      with ⟨later, seenEq⟩
    simp only [seenEq, ih]

theorem takePiece_withReads
    (caller : Caller) (seen : Seen) (count : Nat) (buffer : LineBuffer)
    (chunk : Chunk) :
    takePiece (takeRecord caller) { seen with reads := count } buffer chunk =
      takePiece (takeRecord caller) seen buffer chunk := by
  cases chunk with
  | bytes content => simp only [takePiece, handOut_withReads]
  | _ => rfl

theorem walkEnd_withReads
    (caller : Caller) (seen : Seen) (count : Nat) (buffer : LineBuffer) :
    walkEnd (takeRecord caller) { seen with reads := count } buffer =
      walkEnd (takeRecord caller) seen buffer := by
  simp only [walkEnd, handOut_withReads]

/-- A moment that is no read does not depend on reads. -/
theorem hasCancelled_withReads
    (noRead : ∀ ordinal, caller.cancelAt ≠ some (.read ordinal))
    (seen : Seen) (count : Nat) :
    caller.hasCancelled { seen with reads := count } =
      caller.hasCancelled seen := by
  rw [Caller.hasCancelled, Caller.hasCancelled]
  cases asked : caller.cancelAt with
  | none => rfl
  | some moment =>
    cases moment with
    | read ordinal => exact (noRead ordinal asked).elim
    | _ => rfl

/-- Pieces of a list are walked over as those that are read one by one. -/
theorem walkFrom_plain
    (noRead : ∀ ordinal, caller.cancelAt ≠ some (.read ordinal))
    {walked : Walked} (count : Nat) {chunks : List Chunk}
    (walks :
      walkFrom caller (takeRecord caller) [.read]
        { seen with reads := count } buffer chunks = walked) :
    walkFrom caller (takeRecord caller) [] seen buffer chunks =
      ⟨withoutReader walked.events, walked.ending⟩ := by
  subst walks
  have waitingEq := hasCancelled_withReads noRead seen count
  induction chunks generalizing seen count buffer with
  | nil =>
    cases waiting : caller.hasCancelled seen with
    | true =>
      rw [walkFrom_of_cancelled waiting,
        walkFrom_of_cancelled (waitingEq.trans waiting)]
      rfl
    | false =>
      have same :
          walkEnd (takeRecord caller)
              (Seen.afterAll { seen with reads := count } [.read]) buffer =
            walkEnd (takeRecord caller) seen buffer :=
        walkEnd_withReads caller seen (count + 1) buffer
      have ofLines :
          ∀ event ∈ (walkEnd (takeRecord caller) seen buffer).events,
            event.isOfLine = true :=
        fun _ => isOfLine_of_mem_walkEnd
      rw [walkFrom_nil waiting, walkFrom_nil (waitingEq.trans waiting), same,
        Walked.after, Walked.after, withoutReader_append,
        withoutReader_of_isOfLine ofLines]
      rfl
  | cons chunk rest ih =>
    cases waiting : caller.hasCancelled seen with
    | true =>
      rw [walkFrom_of_cancelled waiting,
        walkFrom_of_cancelled (waitingEq.trans waiting)]
      rfl
    | false =>
      have same :
          takePiece (takeRecord caller)
              (Seen.afterAll { seen with reads := count } [.read]) buffer
              chunk =
            takePiece (takeRecord caller) seen buffer chunk :=
        takePiece_withReads caller seen (count + 1) buffer chunk
      rcases taken : takePiece (takeRecord caller) seen buffer chunk with
        ⟨events, ending | after⟩
      · rw [walkFrom_cons_of_error waiting taken,
          walkFrom_cons_of_error (waitingEq.trans waiting)
            (same.trans taken),
          withoutReader_append,
          withoutReader_of_isOfLine (isOfLine_of_takePiece taken)]
        rfl
      · rcases afterAll_withReads seen (count + 1) events with
          ⟨later, seenEq⟩
        have seenAfter :
            Seen.afterAll { seen with reads := count } ([.read] ++ events) =
              { seen.afterAll events with reads := later } :=
          seenEq
        rw [walkFrom_cons_of_ok waiting taken,
          walkFrom_cons_of_ok (waitingEq.trans waiting) (same.trans taken),
          seenAfter, List.nil_append, ih later
            (hasCancelled_withReads noRead _ later),
          Walked.after, Walked.after, withoutReader_append,
          withoutReader_append,
          withoutReader_of_isOfLine (isOfLine_of_takePiece taken)]
        rfl

theorem afterAll_withoutReader
    (seen : Seen) (events : List Event) :
    ∃ later,
      seen.afterAll (withoutReader events) =
        { seen.afterAll events with reads := later } := by
  induction events generalizing seen with
  | nil => exact ⟨seen.reads, rfl⟩
  | cons event rest ih =>
    cases event with
    | read =>
      rcases ih seen with ⟨later, withoutEq⟩
      rcases afterAll_withReads seen (seen.reads + 1) rest with
        ⟨counted, seenEq⟩
      have readEq :
          seen.afterAll (.read :: rest) =
            { seen.afterAll rest with reads := counted } :=
        seenEq
      rw [readEq]
      exact ⟨later, withoutEq⟩
    | record value => exact ih (seen.after (.record value))
    | error fault => exact ih (seen.after (.error fault))
    | _ => exact ih seen

/-- What follows the walk over a list is what follows that over a reader. -/
theorem conclude_plain
    (noRead : ∀ ordinal, caller.cancelAt ≠ some (.read ordinal))
    (seen : Seen) (count : Nat) (chunks : List Chunk) (ending : Ending) :
    conclude caller ⟨.plain, chunks⟩ { seen with reads := count } ending =
      { conclude caller ⟨.asynchronous, chunks⟩ seen ending with
        events :=
          withoutReader
            (conclude caller ⟨.asynchronous, chunks⟩ seen ending).events } := by
  have completionEq :
      completion caller { seen with reads := count } =
        withoutReader (completion caller seen) := by
    rw [completion, completion, hasCancelled_withReads noRead, Caller.finish]
    split
    · rfl
    · split <;> rfl
  have reportEq (fault : Fault) :
      withoutReader (caller.report seen fault).events =
        (caller.report seen fault).events :=
    withoutReader_of_isOfLine fun _ => isOfLine_of_mem_report
  have ended :
      Passage.quiet
          (Source.closing ⟨.plain, chunks⟩ ++
            completion caller { seen with reads := count }) =
        Passage.quiet
          (withoutReader
            (Source.closing ⟨.asynchronous, chunks⟩ ++
              completion caller seen)) := by
    rw [completionEq, withoutReader_append]
    rfl
  cases ending with
  | ended => exact ended
  | cancelled => exact ended
  | broken message =>
    simp only [conclude, Passage.after, withoutReader_append, reportEq]
    rfl
  | failed fault =>
    rw [conclude, conclude]
    split
    · simp only [Passage.before, withoutReader_append, reportEq]
      rfl
    · rfl

/-- A list is consumed as what is read one by one, without its reads. -/
theorem consume_plain
    (noRead : ∀ ordinal, caller.cancelAt ≠ some (.read ordinal))
    (chunks : List Chunk) :
    consume caller ⟨.plain, chunks⟩ =
      { consume caller ⟨.asynchronous, chunks⟩ with
        events :=
          withoutReader (consume caller ⟨.asynchronous, chunks⟩).events } := by
  have walkedEq :
      walk caller (takeRecord caller) ⟨.plain, chunks⟩ =
        ⟨withoutReader
            (walk caller (takeRecord caller) ⟨.asynchronous, chunks⟩).events,
          (walk caller (takeRecord caller) ⟨.asynchronous, chunks⟩).ending⟩ :=
    walkFrom_plain noRead 0 rfl
  rcases afterAll_withoutReader .none
      (walk caller (takeRecord caller) ⟨.asynchronous, chunks⟩).events with
    ⟨later, seenEq⟩
  rw [consume, consume, walkedEq]
  simp only [seenEq, conclude_plain noRead, Passage.after,
    withoutReader_append]

end Lists

end ApiAtlas.Stream
