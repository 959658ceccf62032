import ApiAtlas.Proofs.Stream.Cancellation
import ApiAtlas.Proofs.Stream.Delivery

/-!
# The open line of a cancelled stream

A stream that comes to its end gives up its open line, the text behind the
last line end.  A walk that is cancelled keeps it back, and only the lines that
were closed are told of.

Cancellation is looked for before each read.  So what counts is whether the
moment has come before the read begins that finds the end of the stream.  A
moment that comes as this read begins comes too late: the read finds the end,
and the open line is told of as if nobody had cancelled.
-/

namespace ApiAtlas.Stream

/-! ## All pieces of a walk -/

/--
What the pieces of a stream add to a walk that nobody cancels: the events
before the read that finds the end, and an earlier end of the walk or the buffer
that is left.
-/
def takePieces (taker : LineTaker) (reading : List Event) :
    Seen → LineBuffer → List Chunk → List Event × Except Ending LineBuffer
  | _, buffer, [] => ([], .ok buffer)
  | seen, buffer, chunk :: rest =>
    match takePiece taker (seen.afterAll reading) buffer chunk with
    | (events, .error ending) => (reading ++ events, .error ending)
    | (events, .ok after) =>
      let behind :=
        takePieces taker reading (seen.afterAll (reading ++ events)) after rest
      (reading ++ events ++ behind.1, behind.2)

section Pieces

variable {caller : Caller} {moment : Moment} {taker : LineTaker}
  {reading : List Event} {seen : Seen} {buffer after : LineBuffer}
  {chunk : Chunk} {chunks : List Chunk} {events : List Event}
  {ending : Ending}

theorem takePiece_ne_ended
    (taken : takePiece taker seen buffer chunk = (events, .error ending)) :
    ending ≠ .ended := by
  cases chunk with
  | failure message =>
    cases taken
    exact Ending.noConfusion
  | foreign =>
    cases taken
    exact Ending.noConfusion
  | bytes content =>
    rw [takePiece] at taken
    split at taken
    · cases taken
      exact Ending.noConfusion
    · dsimp only at taken
      split at taken
      · cases taken
        exact Ending.noConfusion
      · cases taken

theorem takePieces_cons_of_error
    (taken :
      takePiece taker (seen.afterAll reading) buffer chunk =
        (events, .error ending))
    (rest : List Chunk) :
    takePieces taker reading seen buffer (chunk :: rest) =
      (reading ++ events, .error ending) := by
  rw [takePieces, taken]

theorem takePieces_cons_of_ok
    (taken :
      takePiece taker (seen.afterAll reading) buffer chunk =
        (events, .ok after))
    (rest : List Chunk) :
    takePieces taker reading seen buffer (chunk :: rest) =
      (reading ++ events ++
          (takePieces taker reading (seen.afterAll (reading ++ events)) after
            rest).1,
        (takePieces taker reading (seen.afterAll (reading ++ events)) after
          rest).2) := by
  rw [takePieces, taken]

/-- No piece is the end of a stream. -/
theorem takePieces_ne_ended
    (taken :
      takePieces taker reading seen buffer chunks = (events, .error ending)) :
    ending ≠ .ended := by
  induction chunks generalizing seen buffer events with
  | nil => cases taken
  | cons chunk rest ih =>
    rcases piece : takePiece taker (seen.afterAll reading) buffer chunk with
      ⟨told, early | after⟩
    · rw [takePieces_cons_of_error piece] at taken
      cases taken
      exact takePiece_ne_ended piece
    · rw [takePieces_cons_of_ok piece, Prod.mk.injEq] at taken
      exact ih (Prod.ext rfl taken.2)

/--
Once the moment comes before the end is found, the walk stays within the
pieces, and does not come to the end.
-/
theorem walkFrom_of_isReached
    (caller : Caller)
    (reached :
      moment.isReached
          (seen.afterAll (takePieces taker reading seen buffer chunks).1) =
        true) :
    ∃ front,
      front <+: (takePieces taker reading seen buffer chunks).1 ∧
        ((walkFrom (caller.cancelling moment) taker reading seen buffer
              chunks).events = front ∨
          (walkFrom (caller.cancelling moment) taker reading seen buffer
              chunks).events = front ++ [.cancelled]) := by
  induction chunks generalizing seen buffer with
  | nil =>
    have cancelled : (caller.cancelling moment).hasCancelled seen = true :=
      reached
    rw [walkFrom_of_cancelled cancelled]
    exact ⟨[], List.nil_prefix, Or.inr rfl⟩
  | cons chunk rest ih =>
    cases waiting : (caller.cancelling moment).hasCancelled seen with
    | true =>
      rw [walkFrom_of_cancelled waiting]
      exact ⟨[], List.nil_prefix, Or.inr rfl⟩
    | false =>
      rcases taken : takePiece taker (seen.afterAll reading) buffer chunk with
        ⟨events, ending | after⟩
      · rw [takePieces_cons_of_error taken,
          walkFrom_cons_of_error waiting taken]
        exact ⟨_, List.prefix_rfl, Or.inl rfl⟩
      · rw [takePieces_cons_of_ok taken, Seen.afterAll_append] at reached
        rcases ih reached with ⟨front, within, outcome⟩
        rw [takePieces_cons_of_ok taken, walkFrom_cons_of_ok waiting taken]
        refine
          ⟨reading ++ events ++ front,
            (List.prefix_append_right_inj _).2 within, ?_⟩
        rcases outcome with same | same
        · left
          rw [Walked.after, same]
        · right
          rw [Walked.after, same, List.append_assoc _ front]

/-- As long as the moment does not come before the end is found, nothing changes. -/
theorem walkFrom_of_not_isReached
    (waiting :
      moment.isReached
          (seen.afterAll (takePieces taker reading seen buffer chunks).1) =
        false) :
    walkFrom (caller.cancelling moment) taker reading seen buffer chunks =
      walkFrom caller.patient taker reading seen buffer chunks := by
  have free := hasCancelled_patient caller seen
  have notYet : (caller.cancelling moment).hasCancelled seen = false := by
    rw [Bool.eq_false_iff]
    intro reached
    cases waiting.symm.trans (Moment.isReached_afterAll reached _)
  induction chunks generalizing seen buffer with
  | nil => rw [walkFrom_nil notYet, walkFrom_nil free]
  | cons chunk rest ih =>
    rcases taken : takePiece taker (seen.afterAll reading) buffer chunk with
      ⟨events, ending | after⟩
    · rw [walkFrom_cons_of_error notYet taken, walkFrom_cons_of_error free taken]
    · rw [takePieces_cons_of_ok taken, Seen.afterAll_append] at waiting
      rw [walkFrom_cons_of_ok notYet taken, walkFrom_cons_of_ok free taken,
        ih waiting (hasCancelled_patient caller _) ?_]
      rw [Bool.eq_false_iff]
      intro reached
      cases waiting.symm.trans (Moment.isReached_afterAll reached _)

/-- A walk that nobody cancels takes all pieces, and then the end. -/
theorem walkFrom_patient
    (caller : Caller) (taker : LineTaker) (reading : List Event) (seen : Seen)
    (buffer : LineBuffer) (chunks : List Chunk) :
    walkFrom caller.patient taker reading seen buffer chunks =
      match takePieces taker reading seen buffer chunks with
      | (events, .error ending) => ⟨events, ending⟩
      | (events, .ok after) =>
        (walkEnd taker (seen.afterAll (events ++ reading)) after).after
          (events ++ reading) := by
  induction chunks generalizing seen buffer with
  | nil => exact walkFrom_nil (hasCancelled_patient caller seen)
  | cons chunk rest ih =>
    have free := hasCancelled_patient caller seen
    rcases taken : takePiece taker (seen.afterAll reading) buffer chunk with
      ⟨events, ending | after⟩
    · rw [takePieces_cons_of_error taken, walkFrom_cons_of_error free taken]
    · rw [takePieces_cons_of_ok taken, walkFrom_cons_of_ok free taken, ih]
      rcases takePieces taker reading (seen.afterAll (reading ++ events)) after
          rest with
        ⟨behind, ending | last⟩
      · rfl
      · simp only [Walked.after, Seen.afterAll_append, List.append_assoc]

end Pieces

/-! ## What is told of lines -/

/-- Whether an event tells of a line that was handed out. -/
def Event.tellsLine : Event → Bool
  | .line _ | .record _ | .error (.undecodableLine ..) | .skipped _ => true
  | _ => false

/-- A failure to transport tells of no line. -/
theorem tellsLine_of_isTransport
    {fault : Fault} (transport : fault.isTransport = true) :
    (Event.error fault).tellsLine = false := by
  cases fault with
  | undecodableLine line cause => cases transport
  | _ => rfl

/-- What is told of lines among some events, in order. -/
def lineNewsOf (events : List Event) : List Event :=
  events.filter Event.tellsLine

theorem lineNewsOf_append (front behind : List Event) :
    lineNewsOf (front ++ behind) = lineNewsOf front ++ lineNewsOf behind :=
  List.filter_append front behind

theorem lineNewsOf_reading (source : Source) :
    lineNewsOf source.reading = [] := by
  rw [Source.reading]
  split <;> rfl

theorem lineNewsOf_closing (source : Source) :
    lineNewsOf source.closing = [] := by
  rw [Source.closing]
  split <;> rfl

/--
What a taker tells of a line: its news, or a front of them when a fault comes
out.
-/
structure Tells (taker : LineTaker) (news : String → List Event) : Prop where
  ofLine : ∀ line, lineNewsOf (news line) = news line
  front : ∀ seen line, (taker seen line).events <+: news line
  whole :
    ∀ seen line,
      (taker seen line).fault = none → (taker seen line).events = news line

theorem tells_takeLine : Tells takeLine fun line => [.line line] :=
  { ofLine := fun _ => rfl
    front := fun _ _ => List.prefix_rfl
    whole := fun _ _ _ => rfl }

theorem tells_takeRecord (caller : Caller) :
    Tells (takeRecord caller) (lineEvents caller) := by
  have front (seen : Seen) (line : String) :
      (takeRecord caller seen line).events <+: lineEvents caller line ∧
        ((takeRecord caller seen line).fault = none →
          (takeRecord caller seen line).events = lineEvents caller line) := by
    rw [takeRecord, lineEvents]
    cases Json.read line with
    | ok value => exact ⟨List.prefix_rfl, fun _ => rfl⟩
    | error cause =>
      cases cause with
      | malformed problem position =>
        dsimp only
        rw [Caller.report]
        split
        · exact ⟨List.prefix_rfl, fun _ => rfl⟩
        · exact ⟨List.prefix_rfl, fun _ => rfl⟩
      | tooManyDigits count =>
        refine ⟨List.nil_prefix, fun passed => ?_⟩
        cases passed
  refine ⟨fun line => ?_, fun seen line => (front seen line).1,
    fun seen line => (front seen line).2⟩
  rw [lineEvents]
  cases Json.read line with
  | ok value => rfl
  | error cause =>
    dsimp only
    split <;> rfl

section News

variable {taker : LineTaker} {news : String → List Event}

theorem Tells.handOut
    (tells : Tells taker news) (seen : Seen) (lines : List String) :
    (Stream.handOut taker seen lines).events <+: lines.flatMap news ∧
      ((Stream.handOut taker seen lines).fault = none →
        (Stream.handOut taker seen lines).events = lines.flatMap news) := by
  induction lines generalizing seen with
  | nil => exact ⟨List.nil_prefix, fun _ => rfl⟩
  | cons line rest ih =>
    rw [Stream.handOut, List.flatMap_cons]
    cases first : (taker seen line).fault with
    | some fault =>
      refine
        ⟨(tells.front seen line).trans (List.prefix_append _ _),
          fun passed => ?_⟩
      cases first.symm.trans passed
    | none =>
      rw [Passage.after, tells.whole seen line first]
      rcases ih (seen.afterAll (news line)) with ⟨front, whole⟩
      refine ⟨(List.prefix_append_right_inj _).2 front, fun passed => ?_⟩
      exact congrArg (news line ++ ·) (whole passed)

theorem Tells.lineNewsOf_flatMap
    (tells : Tells taker news) (lines : List String) :
    lineNewsOf (lines.flatMap news) = lines.flatMap news := by
  induction lines with
  | nil => rfl
  | cons line rest ih =>
    rw [List.flatMap_cons, lineNewsOf_append, tells.ofLine, ih]

/-- All news of lines that are told in part are news of lines. -/
theorem Tells.lineNewsOf_of_prefix
    (tells : Tells taker news) {events : List Event} {lines : List String}
    (front : events <+: lines.flatMap news) : lineNewsOf events = events := by
  rw [lineNewsOf, List.filter_eq_self]
  intro event member
  have within := front.subset member
  rw [← tells.lineNewsOf_flatMap] at within
  exact (List.mem_filter.1 within).2

/-! ## What is told of the text of a stream -/

/-- The bytes that a piece holds. -/
def Chunk.held : Chunk → List UInt8
  | .bytes content => content
  | .failure _ | .foreign => []

/-- The bytes of all pieces of a stream, put together. -/
def Source.content (source : Source) : List UInt8 :=
  source.chunks.flatMap Chunk.held

variable {reading : List Event} {buffer : LineBuffer} {bytes : List UInt8}
  {text : List Char} {decoded : Text.Decoded}

/-- A piece tells of the lines that it closes. -/
theorem Tells.takePiece
    (tells : Tells taker news) (holds : buffer.Holds bytes text)
    {chunk : Chunk}
    (success :
      (buffer.encoding.decode (bytes ++ chunk.held)).toOption = some decoded)
    {seen : Seen} {events : List Event} {next : Except Ending LineBuffer}
    (taken : Stream.takePiece taker seen buffer chunk = (events, next)) :
    ∃ closed,
      closedLines decoded.characters = closedLines text ++ closed ∧
        events <+: (visibleLines closed).flatMap news ∧
        ∀ after, next = .ok after →
          events = (visibleLines closed).flatMap news ∧
            after.encoding = buffer.encoding ∧
            after.Holds (bytes ++ chunk.held) decoded.characters := by
  cases chunk with
  | failure message =>
    cases taken
    rw [Chunk.held, List.append_nil, holds.decoded, Option.some.injEq]
      at success
    subst success
    exact ⟨[], (List.append_nil _).symm, List.nil_prefix, by simp⟩
  | foreign =>
    cases taken
    rw [Chunk.held, List.append_nil, holds.decoded, Option.some.injEq]
      at success
    subst success
    exact ⟨[], (List.append_nil _).symm, List.nil_prefix, by simp⟩
  | bytes content =>
    rw [Chunk.held] at success ⊢
    rcases holds.feed success with
      ⟨after, closed, fed, closes, sameEncoding, nextHolds⟩
    rw [Stream.takePiece, fed] at taken
    rcases tells.handOut seen (visibleLines closed) with ⟨front, whole⟩
    refine ⟨closed, closes, ?_⟩
    cases outcome :
        (Stream.handOut taker seen (visibleLines closed)).fault with
    | some fault =>
      simp only [outcome] at taken
      cases taken
      exact ⟨front, by simp⟩
    | none =>
      simp only [outcome] at taken
      cases taken
      refine ⟨front, ?_⟩
      rintro _ ⟨⟩
      exact ⟨whole outcome, sameEncoding, nextHolds⟩

/--
The pieces of a stream tell of no more than the lines that its text closes, and
of all of them when they leave a buffer, which holds the open line.
-/
theorem Tells.takePieces
    (tells : Tells taker news) (silent : lineNewsOf reading = [])
    (holds : buffer.Holds bytes text) {chunks : List Chunk}
    (success :
      (buffer.encoding.decode
        (bytes ++ chunks.flatMap Chunk.held)).toOption = some decoded)
    {closed : List (List Char)}
    (closes : closedLines decoded.characters = closedLines text ++ closed)
    (seen : Seen) :
    lineNewsOf (Stream.takePieces taker reading seen buffer chunks).1 <+:
        (visibleLines closed).flatMap news ∧
      ∀ after,
        (Stream.takePieces taker reading seen buffer chunks).2 = .ok after →
          lineNewsOf
                (Stream.takePieces taker reading seen buffer chunks).1 =
              (visibleLines closed).flatMap news ∧
            after.encoding = buffer.encoding ∧
            after.Holds (bytes ++ chunks.flatMap Chunk.held)
              decoded.characters := by
  induction chunks generalizing seen buffer bytes text closed with
  | nil =>
    rw [List.flatMap_nil, List.append_nil] at success ⊢
    rw [holds.decoded, Option.some.injEq] at success
    subst success
    rw [List.self_eq_append_right] at closes
    subst closes
    refine ⟨List.nil_prefix, ?_⟩
    rintro _ ⟨⟩
    exact ⟨rfl, rfl, holds⟩
  | cons chunk rest ih =>
    rw [List.flatMap_cons, ← List.append_assoc] at success ⊢
    rcases exists_decoded_front success closes with
      ⟨middle, last, pieceSuccess, behind, divides⟩
    rcases taken :
        Stream.takePiece taker (seen.afterAll reading) buffer chunk with
      ⟨events, next⟩
    rcases tells.takePiece holds pieceSuccess taken with
      ⟨first, firstCloses, front, whole⟩
    have news := tells.lineNewsOf_of_prefix front
    rw [divides first firstCloses, visibleLines_append, List.flatMap_append]
    cases next with
    | error ending =>
      rw [takePieces_cons_of_error taken, lineNewsOf_append, silent, news]
      exact ⟨front.trans (List.prefix_append _ _), by simp⟩
    | ok after =>
      rcases whole after rfl with ⟨all, sameEncoding, nextHolds⟩
      rw [← sameEncoding] at success
      rcases ih nextHolds success behind
          (seen.afterAll (reading ++ events)) with
        ⟨later, complete⟩
      rw [takePieces_cons_of_ok taken, lineNewsOf_append, lineNewsOf_append,
        silent, news, List.nil_append, ← all]
      refine ⟨(List.prefix_append_right_inj _).2 later, ?_⟩
      intro final left
      rcases complete final left with ⟨same, lastEncoding, lastHolds⟩
      exact
        ⟨congrArg (events ++ ·) same, lastEncoding.trans sameEncoding,
          lastHolds⟩

/-- The end of a walk that is come to tells of the open line. -/
theorem Tells.walkEnd
    (tells : Tells taker news) (holds : buffer.Holds bytes text) {seen : Seen}
    (ended : (Stream.walkEnd taker seen buffer).ending = .ended) :
    (Stream.walkEnd taker seen buffer).events =
      (visibleLines [openLine text]).flatMap news := by
  rw [Stream.walkEnd] at ended ⊢
  cases finished : buffer.finish with
  | error fault => simp [finished] at ended
  | ok result =>
    have whole := holds.finish (holds.complete_of_finish finished)
    rw [finished, Except.ok.injEq] at whole
    subst whole
    cases outcome :
        (Stream.handOut taker seen (visibleLines [openLine text])).fault with
    | some fault => simp [finished, outcome] at ended
    | none =>
      simp only [outcome]
      exact (tells.handOut seen _).2 outcome

end News

/-! ## Whole walks -/

/--
What is observed of a stream that nobody cancels before the read begins that
finds its end.
-/
def beforeEnd (taker : LineTaker) (source : Source) : List Event :=
  (takePieces taker source.reading .none (.start .utf8) source.chunks).1

/-- Whether a moment comes before the read begins that finds the end. -/
def Moment.isInTime
    (moment : Moment) (taker : LineTaker) (source : Source) : Bool :=
  moment.isReached (Seen.none.afterAll (beforeEnd taker source))

section Walks

variable {taker : LineTaker} {news : String → List Event} {source : Source}
  {text : String}

theorem decode_content
    (whole : source.content = Text.utf8Bytes text) :
    (Text.Encoding.utf8.decode
      ([] ++ source.chunks.flatMap Chunk.held)).toOption =
        some ⟨text.toList, []⟩ :=
  Text.decodeUtf8_eq_iff.2 whole

theorem lineNewsOf_beforeEnd
    (tells : Tells taker news) (whole : source.content = Text.utf8Bytes text) :
    lineNewsOf (beforeEnd taker source) <+:
      (visibleLines (closedLines text.toList)).flatMap news :=
  (tells.takePieces (lineNewsOf_reading source)
    (LineBuffer.start_holds .utf8) (decode_content whole)
    (List.nil_append _).symm .none).1

/-- A walk that is cancelled in time tells of closed lines only. -/
theorem lineNewsOf_walk_of_isReached
    (tells : Tells taker news) (whole : source.content = Text.utf8Bytes text)
    {moment : Moment} (inTime : moment.isInTime taker source = true)
    (caller : Caller) :
    lineNewsOf (walk (caller.cancelling moment) taker source).events <+:
      (visibleLines (closedLines text.toList)).flatMap news := by
  have closed := lineNewsOf_beforeEnd tells whole
  rcases walkFrom_of_isReached caller inTime with
    ⟨front, within, same | same⟩
  · rw [walk, same]
    exact (within.filter Event.tellsLine).trans closed
  · have noticed : lineNewsOf [.cancelled] = [] := rfl
    rw [walk, same, lineNewsOf_append, noticed, List.append_nil]
    exact (within.filter Event.tellsLine).trans closed

/-- A walk that comes to the end of its stream tells of all lines. -/
theorem lineNewsOf_walk_of_ended
    (tells : Tells taker news) (whole : source.content = Text.utf8Bytes text)
    {caller : Caller}
    (ended : (walk caller.patient taker source).ending = .ended) :
    lineNewsOf (walk caller.patient taker source).events =
      (visibleLines (linesOf text.toList)).flatMap news := by
  have silent := lineNewsOf_reading source
  have told :=
    (tells.takePieces silent (LineBuffer.start_holds .utf8)
      (decode_content whole) (List.nil_append _).symm .none).2
  rw [walk, walkFrom_patient] at ended ⊢
  rcases pieces :
      takePieces taker source.reading .none (.start .utf8) source.chunks with
    ⟨events, ending | after⟩
  · rw [pieces] at ended
    exact (takePieces_ne_ended pieces ended).elim
  · rw [pieces] at told ended
    rcases told after rfl with ⟨all, -, holds⟩
    have rest := tells.walkEnd holds ended
    simp only [Walked.after, lineNewsOf_append, all, silent, List.append_nil,
      rest, tells.lineNewsOf_flatMap]
    rw [linesOf_eq_closed_append, visibleLines_append, List.flatMap_append]

end Walks

/-! ## Consuming and collecting -/

theorem lineNewsOf_conclude
    (caller : Caller) (source : Source) (seen : Seen) (ending : Ending) :
    lineNewsOf (conclude caller source seen ending).events = [] := by
  have early : lineNewsOf (reportsBefore caller seen ending) = [] := by
    refine List.filter_eq_nil_iff.2 fun event member told => ?_
    rcases eq_of_mem_reportsBefore member with
      ⟨fault, rfl, -, transport, -⟩
    rw [tellsLine_of_isTransport transport] at told
    cases told
  have late : lineNewsOf (reportsBehind caller seen ending) = [] := by
    refine List.filter_eq_nil_iff.2 fun event member told => ?_
    rcases eq_of_mem_reportsBehind member with rfl | ⟨message, rfl⟩
    · cases told
    · cases told
  rw [events_conclude, lineNewsOf_append, lineNewsOf_append, early,
    lineNewsOf_closing, late]
  rfl

theorem lineNewsOf_consume (caller : Caller) (source : Source) :
    lineNewsOf (consume caller source).events =
      lineNewsOf (walk caller (takeRecord caller) source).events := by
  rw [consume, Passage.after, lineNewsOf_append, lineNewsOf_conclude,
    List.append_nil]

/-- Lines are handed out as what is told of them. -/
theorem handedOut_lineNewsOf (events : List Event) :
    handedOut (lineNewsOf events) = handedOut events := by
  rw [handedOut, handedOut, lineNewsOf, List.filterMap_filter]
  congr 1
  funext event
  cases event with
  | error fault => cases fault <;> rfl
  | _ => rfl

theorem handedOut_flatMap_line (lines : List String) :
    handedOut (lines.flatMap fun line => [.line line]) = lines := by
  induction lines with
  | nil => rfl
  | cons line rest ih => exact congrArg (line :: ·) ih

theorem handedOut_collect (caller : Caller) (source : Source) :
    handedOut (collect caller source).events =
      handedOut (lineNewsOf (walk caller takeLine source).events) := by
  rw [collect, ← handedOut_lineNewsOf, lineNewsOf_append, lineNewsOf_closing,
    List.append_nil]

/--
Whatever is told of lines after cancelling in time is told of lines that were
closed, whether records are delivered or lines are collected.  In time is
before the read begins that finds the end of the stream: later cancelling
changes nothing, and then the open line is told of if the end is come to.
-/
theorem cancelled_withholds_openLine
    (caller : Caller) (moment : Moment) {source : Source} {text : String}
    (whole : source.content = Text.utf8Bytes text) :
    (moment.isInTime (takeRecord caller) source = true →
        lineNewsOf (consume (caller.cancelling moment) source).events <+:
          (visibleLines (closedLines text.toList)).flatMap
            (lineEvents caller)) ∧
      (moment.isInTime (takeRecord caller) source = false →
        lineNewsOf (consume (caller.cancelling moment) source).events =
            lineNewsOf (consume caller.patient source).events ∧
          ((walk caller.patient (takeRecord caller) source).ending = .ended →
            lineNewsOf (consume (caller.cancelling moment) source).events =
              (visibleLines (linesOf text.toList)).flatMap
                (lineEvents caller))) ∧
      (moment.isInTime takeLine source = true →
        handedOut (collect (caller.cancelling moment) source).events <+:
          visibleLines (closedLines text.toList)) ∧
      (moment.isInTime takeLine source = false →
        collect (caller.cancelling moment) source =
            collect caller.patient source ∧
          ((walk caller.patient takeLine source).ending = .ended →
            handedOut (collect (caller.cancelling moment) source).events =
              visibleLines (linesOf text.toList))) := by
  have tells := tells_takeRecord caller
  refine ⟨?_, ?_, ?_, ?_⟩
  · intro inTime
    rw [lineNewsOf_consume]
    exact lineNewsOf_walk_of_isReached tells whole inTime caller
  · intro late
    have same :
        walk (caller.cancelling moment) (takeRecord caller) source =
          walk caller.patient (takeRecord caller) source :=
      walkFrom_of_not_isReached late
    have consumed :
        lineNewsOf (consume (caller.cancelling moment) source).events =
          lineNewsOf
            (walk caller.patient (takeRecord caller) source).events := by
      rw [lineNewsOf_consume, takeRecord_cancelling]
      exact congrArg (lineNewsOf ·.events) same
    refine ⟨consumed.trans (lineNewsOf_consume caller.patient source).symm, ?_⟩
    intro ended
    rw [consumed]
    exact lineNewsOf_walk_of_ended tells whole ended
  · intro inTime
    have closed :=
      lineNewsOf_walk_of_isReached tells_takeLine whole inTime caller
    rw [handedOut_collect,
      ← handedOut_flatMap_line (visibleLines (closedLines text.toList))]
    exact closed.filterMap _
  · intro late
    have same :
        collect (caller.cancelling moment) source =
          collect caller.patient source := by
      rw [collect, collect, walk, walk, walkFrom_of_not_isReached late]
    refine ⟨same, ?_⟩
    intro ended
    rw [same, handedOut_collect,
      lineNewsOf_walk_of_ended tells_takeLine whole ended,
      handedOut_flatMap_line]

/-- A stream of one piece that holds a record and behind it an open line. -/
def openRecord : Source := ⟨.asynchronous, [.bytes [0x7B, 0x7D, 0x0A, 0x78]]⟩

theorem content_openRecord :
    openRecord.content = Text.utf8Bytes "{}\nx" := by
  decide

/--
Cancelling in the record keeps the open line back, and so does cancelling as
the first read begins; cancelling as the second one begins does not.
-/
theorem cancelled_withholds_openLine_openRecord :
    lineNewsOf (consume (attentive.cancelling (.record 1)) openRecord).events <+:
        [.record (.map [])] ∧
      handedOut (collect (attentive.cancelling (.read 1)) openRecord).events <+:
        ["{}"] ∧
      handedOut (collect (attentive.cancelling (.read 2)) openRecord).events =
        ["{}", "x"] := by
  have fed :
      (LineBuffer.start .utf8).feed [0x7B, 0x7D, 0x0A, 0x78] =
        .ok (⟨.utf8, [], ['x']⟩, ["{}"]) := by
    decide +kernel
  have inTime :
      Moment.isInTime (.record 1) (takeRecord attentive) openRecord = true := by
    simp only [Moment.isInTime, beforeEnd, openRecord, takePieces, takePiece,
      fed, handOut, takeRecord, Json.read_braces]
    rfl
  have lines :
      visibleLines (closedLines "{}\nx".toList) = ["{}"] := by
    decide
  have news : lineEvents attentive "{}" = [.record (.map [])] := by
    simp only [lineEvents, Json.read_braces]
  have consumed :=
    (cancelled_withholds_openLine attentive (.record 1)
      content_openRecord).1 inTime
  have collected (moment : Moment) :=
    (cancelled_withholds_openLine attentive moment content_openRecord).2.2
  rw [lines, List.flatMap_singleton, news] at consumed
  rw [lines] at collected
  refine ⟨consumed, (collected (.read 1)).1 (by decide +kernel), ?_⟩
  exact
    ((collected (.read 2)).2 (by decide +kernel)).2 (by decide +kernel)

/-- Cancelling as the read begins that finds the end does not keep a line back. -/
theorem not_forall_cancelled_withholds_openLine :
    ¬ ∀ (caller : Caller) (moment : Moment) (source : Source) (text : String),
      source.content = Text.utf8Bytes text →
        (moment.isReached
              (Seen.none.afterAll
                (beforeEnd (takeRecord caller) source ++ source.reading)) =
            true →
          lineNewsOf (consume (caller.cancelling moment) source).events <+:
            (visibleLines (closedLines text.toList)).flatMap
              (lineEvents caller)) ∧
        (moment.isReached
              (Seen.none.afterAll
                (beforeEnd takeLine source ++ source.reading)) = true →
          handedOut (collect (caller.cancelling moment) source).events <+:
            visibleLines (closedLines text.toList)) := by
  intro withheld
  have kept :=
    (withheld attentive (.read 2) ⟨.asynchronous, [.bytes [0x78]]⟩ "x"
      (by decide)).2
  revert kept
  decide +kernel

end ApiAtlas.Stream
