import ApiAtlas.Proofs.Json.Reader
import ApiAtlas.Proofs.Stream.Calls
import ApiAtlas.Proofs.Stream.Pieces

/-!
# Cancellation of streams

A caller asks for cancellation at some moment: before the call, as a read
begins, or while a record or a fault is handed to it.  The run goes on as if
nothing had happened until the next read would begin, and ends there.

Hence a cancelled run is a front of the run that is not cancelled, it depends
on nothing but the pieces whose reads began before the moment, and neither a
read nor the report of the end comes after the moment.
-/

namespace ApiAtlas.Stream

/-- The caller that asks for cancellation at a moment. -/
def Caller.cancelling (caller : Caller) (moment : Moment) : Caller :=
  { caller with cancelAt := some moment }

/-- The caller that never asks for cancellation. -/
def Caller.patient (caller : Caller) : Caller :=
  { caller with cancelAt := none }

theorem takeRecord_cancelling (caller : Caller) (moment : Moment) :
    takeRecord (caller.cancelling moment) = takeRecord caller.patient :=
  rfl

theorem isCounted_mono
    {ordinal count more : Nat} (counted : isCounted ordinal count = true)
    (le : count ≤ more) : isCounted ordinal more = true := by
  rw [isCounted, Bool.and_eq_true, decide_eq_true_eq, decide_eq_true_eq]
    at counted ⊢
  exact ⟨counted.1, Nat.le_trans counted.2 le⟩

/-- A moment that has come stays behind. -/
theorem Moment.isReached_after
    {moment : Moment} {seen : Seen} (reached : moment.isReached seen = true)
    (event : Event) : moment.isReached (seen.after event) = true := by
  cases moment with
  | start => rfl
  | read ordinal =>
    refine isCounted_mono reached ?_
    cases event <;> simp [Seen.after]
  | record ordinal =>
    refine isCounted_mono reached ?_
    cases event <;> simp [Seen.after]
  | error ordinal =>
    refine isCounted_mono reached ?_
    cases event <;> simp [Seen.after]

/-! ## A front of the free run -/

theorem hasCancelled_patient (caller : Caller) (seen : Seen) :
    caller.patient.hasCancelled seen = false :=
  rfl

theorem Moment.isReached_afterAll
    {moment : Moment} {seen : Seen} (reached : moment.isReached seen = true)
    (events : List Event) : moment.isReached (seen.afterAll events) = true := by
  induction events generalizing seen with
  | nil => exact reached
  | cons event rest ih => exact ih (isReached_after reached event)

/--
A walk that is cancelled is a front of the walk that is not, up to where the
moment has come; a walk that is not cancelled is that walk.
-/
theorem walkFrom_cancelling
    (caller : Caller) (moment : Moment) (taker : LineTaker)
    (reading : List Event) (seen : Seen) (buffer : LineBuffer)
    (chunks : List Chunk) :
    walkFrom (caller.cancelling moment) taker reading seen buffer chunks =
        walkFrom caller.patient taker reading seen buffer chunks ∨
      ∃ front behind ending,
        moment.isReached (seen.afterAll front) = true ∧
          walkFrom (caller.cancelling moment) taker reading seen buffer
              chunks = ⟨front ++ [.cancelled], .cancelled⟩ ∧
          walkFrom caller.patient taker reading seen buffer chunks =
            ⟨front ++ behind, ending⟩ := by
  induction chunks generalizing seen buffer with
  | nil =>
    cases waiting : (caller.cancelling moment).hasCancelled seen with
    | true =>
      exact Or.inr ⟨[], _, _, waiting, walkFrom_of_cancelled waiting _, rfl⟩
    | false =>
      rw [walkFrom_nil waiting, walkFrom_nil (hasCancelled_patient caller seen)]
      exact Or.inl rfl
  | cons chunk rest ih =>
    cases waiting : (caller.cancelling moment).hasCancelled seen with
    | true =>
      exact Or.inr ⟨[], _, _, waiting, walkFrom_of_cancelled waiting _, rfl⟩
    | false =>
      have free := hasCancelled_patient caller seen
      rcases taken : takePiece taker (seen.afterAll reading) buffer chunk with
        ⟨events, ending | after⟩
      · rw [walkFrom_cons_of_error waiting taken,
          walkFrom_cons_of_error free taken]
        exact Or.inl rfl
      · rw [walkFrom_cons_of_ok waiting taken, walkFrom_cons_of_ok free taken]
        rcases ih (seen.afterAll (reading ++ events)) after with
          same | ⟨front, behind, ending, reached, cancelled, free⟩
        · rw [same]
          exact Or.inl rfl
        · rw [cancelled, free]
          refine
            Or.inr ⟨reading ++ events ++ front, behind, ending, ?_, ?_, ?_⟩
          · rw [Seen.afterAll_append]
            exact reached
          · rw [Walked.after, List.append_assoc _ front]
          · rw [Walked.after, List.append_assoc _ front]

/-- Whether an event hands a record or a fault to the caller. -/
def Event.isDispatch : Event → Bool
  | .record _ | .error _ => true
  | _ => false

/-- The records and faults that are handed to the caller, in order. -/
def dispatchesOf (events : List Event) : List Event :=
  events.filter Event.isDispatch

theorem dispatchesOf_append (front behind : List Event) :
    dispatchesOf (front ++ behind) =
      dispatchesOf front ++ dispatchesOf behind :=
  List.filter_append front behind

theorem dispatchesOf_closing (source : Source) :
    dispatchesOf source.closing = [] := by
  rw [Source.closing]
  split <;> rfl

theorem dispatchesOf_completion (caller : Caller) (seen : Seen) :
    dispatchesOf (completion caller seen) = [] := by
  rw [completion, Caller.finish]
  split
  · rfl
  · split <;> rfl

/-- Whether the end is reported or not, what is handed over is the same. -/
theorem dispatchesOf_conclude
    (caller : Caller) (moment : Moment) (source : Source) (seen : Seen)
    (ending : Ending) :
    dispatchesOf
        (conclude (caller.cancelling moment) source seen ending).events =
      dispatchesOf (conclude caller.patient source seen ending).events := by
  cases ending with
  | ended =>
    simp only [conclude, Passage.quiet, dispatchesOf_append,
      dispatchesOf_completion]
  | cancelled =>
    simp only [conclude, Passage.quiet, dispatchesOf_append,
      dispatchesOf_completion]
  | broken message => rfl
  | failed fault => rfl

theorem dispatchesOf_conclude_cancelled
    (caller : Caller) (source : Source) (seen : Seen) :
    dispatchesOf (conclude caller source seen .cancelled).events = [] := by
  rw [conclude, Passage.quiet, dispatchesOf_append, dispatchesOf_closing,
    dispatchesOf_completion]
  rfl

/-- What a cancelled run hands over is a front of what the free run does. -/
theorem dispatchesOf_consume_cancelling
    (caller : Caller) (moment : Moment) (source : Source) :
    dispatchesOf (consume (caller.cancelling moment) source).events <+:
      dispatchesOf (consume caller.patient source).events := by
  rw [consume, consume, walk, walk, takeRecord_cancelling]
  rcases walkFrom_cancelling caller moment (takeRecord caller.patient)
      source.reading .none (.start .utf8) source.chunks with
    same | ⟨front, behind, ending, -, cancelled, free⟩
  · rw [same]
    simp only [Passage.after, dispatchesOf_append, dispatchesOf_conclude]
    exact List.prefix_rfl
  · rw [cancelled, free]
    have noticed : dispatchesOf [.cancelled] = [] := rfl
    simp only [Passage.after, dispatchesOf_append,
      dispatchesOf_conclude_cancelled, noticed, List.append_nil,
      List.append_assoc]
    exact List.prefix_append (dispatchesOf front) _

/-- The end of a run whose moment has not come is that of the free run. -/
theorem conclude_of_not_isReached
    {caller : Caller} {moment : Moment} {seen : Seen} (source : Source)
    (waiting : moment.isReached seen = false) (ending : Ending) :
    conclude (caller.cancelling moment) source seen ending =
      conclude caller.patient source seen ending := by
  have completionEq :
      completion (caller.cancelling moment) seen =
        completion caller.patient seen := by
    have hasNot : (caller.cancelling moment).hasCancelled seen = false :=
      waiting
    rw [completion, completion, hasNot, hasCancelled_patient]
    rfl
  cases ending with
  | ended => rw [conclude, conclude, completionEq]
  | cancelled => rw [conclude, conclude, completionEq]
  | broken message => rfl
  | failed fault => rfl

/-- A run whose moment does not come is the free run. -/
theorem consume_of_not_isReached
    {caller : Caller} {moment : Moment} {source : Source}
    (waiting :
      moment.isReached
          (Seen.none.afterAll
            (consume (caller.cancelling moment) source).events) = false) :
    consume (caller.cancelling moment) source =
      consume caller.patient source := by
  have notWithin (front behind : List Event)
      (split :
        (consume (caller.cancelling moment) source).events =
          front ++ behind) :
      moment.isReached (Seen.none.afterAll front) = false := by
    rw [Bool.eq_false_iff]
    intro reached
    have later := Moment.isReached_afterAll reached behind
    rw [← Seen.afterAll_append, ← split, waiting] at later
    cases later
  rw [consume, Passage.after, walk, takeRecord_cancelling] at notWithin
  rw [consume, consume, walk, walk, takeRecord_cancelling]
  rcases walkFrom_cancelling caller moment (takeRecord caller.patient)
      source.reading .none (.start .utf8) source.chunks with
    same | ⟨front, behind, ending, reached, cancelled, -⟩
  · rw [conclude_of_not_isReached source (notWithin _ _ rfl), same]
  · rw [cancelled] at notWithin
    have waitingFront := notWithin front _ (List.append_assoc ..)
    cases reached.symm.trans waitingFront

/-! ## Nothing begins after the moment -/

/-- Events among which no read and no report of the end follows a moment. -/
def Heeds (moment : Moment) : Seen → List Event → Prop
  | _, [] => True
  | seen, event :: rest =>
    (moment.isReached seen = true → event ≠ .read ∧ event ≠ .complete) ∧
      Heeds moment (seen.after event) rest

section Heeds

variable {moment : Moment} {seen : Seen} {front behind events : List Event}

theorem heeds_append :
    Heeds moment seen (front ++ behind) ↔
      Heeds moment seen front ∧
        Heeds moment (seen.afterAll front) behind := by
  induction front generalizing seen with
  | nil => exact ⟨fun heeds => ⟨trivial, heeds⟩, And.right⟩
  | cons event rest ih =>
    rw [List.cons_append, Heeds, Heeds, ih, and_assoc]
    exact Iff.rfl

/-- Once the moment has come there are no more reads, nor is the end reported. -/
theorem Heeds.forall_of_isReached
    (heeds : Heeds moment seen events)
    (reached : moment.isReached seen = true) :
    ∀ event ∈ events, event ≠ .read ∧ event ≠ .complete := by
  induction events generalizing seen with
  | nil => exact List.forall_mem_nil _
  | cons event rest ih =>
    rw [List.forall_mem_cons]
    exact ⟨heeds.1 reached, ih heeds.2 (Moment.isReached_after reached event)⟩

theorem heeds_of_forall
    (others : ∀ event ∈ events, event ≠ .read ∧ event ≠ .complete) :
    Heeds moment seen events := by
  induction events generalizing seen with
  | nil => trivial
  | cons event rest ih =>
    rw [List.forall_mem_cons] at others
    exact ⟨fun _ => others.1, ih others.2⟩

end Heeds

theorem heeds_of_isOfLine
    {moment : Moment} {seen : Seen} {events : List Event}
    (ofLines : ∀ event ∈ events, event.isOfLine = true) :
    Heeds moment seen events := by
  apply heeds_of_forall
  intro event member
  constructor
  · rintro rfl
    cases ofLines _ member
  · rintro rfl
    cases ofLines _ member

/-- A read may begin as long as the moment has not come. -/
theorem heeds_reading
    {moment : Moment} {seen : Seen} (source : Source)
    (waiting : moment.isReached seen = false) :
    Heeds moment seen source.reading := by
  rw [Source.reading]
  split
  · trivial
  · refine ⟨fun reached => ?_, trivial⟩
    cases waiting.symm.trans reached

theorem heeds_walkFrom
    {caller : Caller} {moment : Moment} (source : Source) (seen : Seen)
    (buffer : LineBuffer) (chunks : List Chunk) :
    Heeds moment seen
      (walkFrom (caller.cancelling moment) (takeRecord caller) source.reading
        seen buffer chunks).events := by
  induction chunks generalizing seen buffer with
  | nil =>
    cases waiting : (caller.cancelling moment).hasCancelled seen with
    | true =>
      rw [walkFrom_of_cancelled waiting]
      exact heeds_of_forall (by simp)
    | false =>
      rw [walkFrom_nil waiting, Walked.after, heeds_append]
      exact
        ⟨heeds_reading source waiting,
          heeds_of_isOfLine fun _ => isOfLine_of_mem_walkEnd⟩
  | cons chunk rest ih =>
    cases waiting : (caller.cancelling moment).hasCancelled seen with
    | true =>
      rw [walkFrom_of_cancelled waiting]
      exact heeds_of_forall (by simp)
    | false =>
      rcases taken :
          takePiece (takeRecord caller) (seen.afterAll source.reading) buffer
            chunk with
        ⟨events, ending | after⟩
      · rw [walkFrom_cons_of_error waiting taken, heeds_append]
        exact
          ⟨heeds_reading source waiting,
            heeds_of_isOfLine (isOfLine_of_takePiece taken)⟩
      · rw [walkFrom_cons_of_ok waiting taken, Walked.after, heeds_append,
          heeds_append]
        exact
          ⟨⟨heeds_reading source waiting,
              heeds_of_isOfLine (isOfLine_of_takePiece taken)⟩,
            ih _ after⟩

theorem heeds_closing
    {moment : Moment} {seen : Seen} (source : Source) :
    Heeds moment seen source.closing := by
  apply heeds_of_forall
  rw [Source.closing]
  split <;> simp

theorem afterAll_closing (source : Source) (seen : Seen) :
    seen.afterAll source.closing = seen := by
  rw [Source.closing]
  split <;> rfl

/-- The end is reported as long as the moment has not come. -/
theorem heeds_completion
    {caller : Caller} {moment : Moment} {seen : Seen} :
    Heeds moment seen (completion (caller.cancelling moment) seen) := by
  cases waiting : (caller.cancelling moment).hasCancelled seen with
  | true =>
    rw [completion, if_pos waiting]
    trivial
  | false =>
    rw [completion, waiting, if_neg Bool.false_ne_true, Caller.finish]
    split
    · refine ⟨fun reached => ?_, trivial⟩
      cases waiting.symm.trans reached
    · trivial

theorem heeds_conclude
    {caller : Caller} {moment : Moment} {seen : Seen} (source : Source)
    (ending : Ending) :
    Heeds moment seen
      (conclude (caller.cancelling moment) source seen ending).events := by
  have ended :
      Heeds moment seen
        (source.closing ++ completion (caller.cancelling moment) seen) := by
    rw [heeds_append, afterAll_closing]
    exact ⟨heeds_closing source, heeds_completion⟩
  cases ending with
  | ended => exact ended
  | cancelled => exact ended
  | broken message =>
    exact
      heeds_append.2
        ⟨heeds_closing source,
          heeds_of_isOfLine fun _ => isOfLine_of_mem_report⟩
  | failed fault =>
    rw [conclude]
    split
    · exact
        heeds_append.2
          ⟨heeds_of_isOfLine fun _ => isOfLine_of_mem_report,
            heeds_closing source⟩
    · exact heeds_closing source

theorem heeds_consume
    (caller : Caller) (moment : Moment) (source : Source) :
    Heeds moment .none (consume (caller.cancelling moment) source).events := by
  rw [consume, Passage.after, heeds_append]
  exact
    ⟨heeds_walkFrom source .none (.start .utf8) source.chunks,
      heeds_conclude source _⟩

/-! ## Cancelled runs -/

/--
A cancelled run hands over a front of what the free run does, and it is the
free run as long as the moment does not come.  Once the moment has come no read
begins and the end is not reported, and all that follows is the same for every
stream that agrees in the pieces whose reads have begun.  The pieces of a list,
whose reads are not seen, are handed over in the same way as those of a reader.
-/
theorem consume_cancelling
    (caller : Caller) (moment : Moment) (source : Source) :
    dispatchesOf (consume (caller.cancelling moment) source).events <+:
        dispatchesOf (consume caller.patient source).events ∧
      (moment.isReached
            (Seen.none.afterAll
              (consume (caller.cancelling moment) source).events) = false →
        consume (caller.cancelling moment) source =
          consume caller.patient source) ∧
      (∀ front behind,
        (consume (caller.cancelling moment) source).events =
            front ++ behind →
          moment.isReached (Seen.none.afterAll front) = true →
            (∀ event ∈ behind, event ≠ .read ∧ event ≠ .complete) ∧
              (source.kind ≠ .plain → ∀ others,
                others.take (Seen.none.afterAll front).reads =
                    source.chunks.take (Seen.none.afterAll front).reads →
                  consume (caller.cancelling moment)
                      { source with chunks := others } =
                    consume (caller.cancelling moment) source)) ∧
      ((∀ ordinal, moment ≠ .read ordinal) → ∀ chunks,
        consume (caller.cancelling moment) ⟨.plain, chunks⟩ =
          { consume (caller.cancelling moment) ⟨.asynchronous, chunks⟩ with
            events :=
              withoutReader
                (consume (caller.cancelling moment)
                  ⟨.asynchronous, chunks⟩).events }) := by
  refine
    ⟨dispatchesOf_consume_cancelling caller moment source,
      consume_of_not_isReached, ?_, ?_⟩
  · intro front behind split reached
    have heeds := heeds_consume caller moment source
    rw [split, heeds_append] at heeds
    have quiet := heeds.2.forall_of_isReached reached
    refine ⟨quiet, ?_⟩
    intro hasReads others same
    refine consume_eq_of_take_eq hasReads ?_ same
    have noReads : behind.count .read = 0 := by
      rw [List.count_eq_zero]
      intro member
      exact (quiet _ member).1 rfl
    rw [split, List.count_append, noReads, Seen.reads_afterAll]
    exact Nat.le_add_left _ _
  · intro noRead chunks
    apply consume_plain
    intro ordinal same
    exact noRead ordinal (Option.some.inj same)

/-- A piece of two lines, each of which is an empty record. -/
def twoRecords : Chunk := .bytes [0x7B, 0x7D, 0x0A, 0x7B, 0x7D, 0x0A]

/-- Cancelling in the first record leaves all pieces behind its own unread. -/
theorem consume_cancelling_twoRecords :
    (consume (attentive.cancelling (.record 1))
        ⟨.asynchronous, [twoRecords, twoRecords]⟩).events =
        [.read, .record (.map []), .record (.map []), .cancelled, .closed] ∧
      ∀ others,
        consume (attentive.cancelling (.record 1))
            ⟨.asynchronous, twoRecords :: others⟩ =
          consume (attentive.cancelling (.record 1))
            ⟨.asynchronous, [twoRecords, twoRecords]⟩ := by
  have fed :
      (LineBuffer.start .utf8).feed [0x7B, 0x7D, 0x0A, 0x7B, 0x7D, 0x0A] =
        .ok (LineBuffer.start .utf8, ["{}", "{}"]) := by
    decide +kernel
  have taken :
      takePiece (takeRecord (attentive.cancelling (.record 1)))
          (Seen.none.afterAll [.read]) (.start .utf8) twoRecords =
        ([.record (.map []), .record (.map [])],
          .ok (LineBuffer.start .utf8)) := by
    simp only [twoRecords, takePiece, fed, handOut, takeRecord,
      Json.read_braces]
    rfl
  have run :
      (consume (attentive.cancelling (.record 1))
          ⟨.asynchronous, [twoRecords, twoRecords]⟩).events =
        [.read, .record (.map []), .record (.map []), .cancelled,
          .closed] := by
    have walked :
        walk (attentive.cancelling (.record 1))
            (takeRecord (attentive.cancelling (.record 1)))
            ⟨.asynchronous, [twoRecords, twoRecords]⟩ =
          ⟨[.read, .record (.map []), .record (.map []), .cancelled],
            .cancelled⟩ := by
      have waiting :
          (attentive.cancelling (.record 1)).hasCancelled .none = false :=
        rfl
      refine (walkFrom_cons_of_ok waiting taken [twoRecords]).trans ?_
      rw [walkFrom_of_cancelled rfl]
      rfl
    rw [consume, walked]
    rfl
  refine ⟨run, ?_⟩
  intro others
  exact
    ((consume_cancelling attentive (.record 1)
          ⟨.asynchronous, [twoRecords, twoRecords]⟩).2.2.1
      [.read, .record (.map [])]
      [.record (.map []), .cancelled, .closed] run rfl).2 (by decide)
        (twoRecords :: others) rfl

end ApiAtlas.Stream
