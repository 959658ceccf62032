import ApiAtlas.Proofs.Stream.Calls
import ApiAtlas.Proofs.Stream.Lines
import ApiAtlas.Proofs.Stream.Pieces

/-!
# What a caller learns of a stream of records

For a calm caller a walk over bytes is determined by the text that the bytes
decode to: each line that the text closes is called out once, in order, and the
way in which the bytes were cut into pieces cannot be seen.

Two kinds of content end a walk by a fault: bytes that are no UTF-8, and a
line whose number has too many digits.  There are no others, so a walk over
anything else comes to the end of the stream.
-/

namespace ApiAtlas.Stream

/-! ## One line -/

/-- A line that is a record or malformed, which no other fault can come of. -/
def IsReadable (line : String) : Prop :=
  ∀ count, Json.read line ≠ .error (.tooManyDigits count)

/-- The events of a line for a caller. -/
def lineEvents (caller : Caller) (line : String) : List Event :=
  match Json.read line with
  | .ok value => [.record value]
  | .error cause =>
    if caller.takesErrors then [.error (.undecodableLine line cause)]
    else [.skipped cause]

/-- The call of a line: its record, or the report that it holds none. -/
def lineCall (line : String) : Event :=
  match Json.read line with
  | .ok value => .record value
  | .error cause => .error (.undecodableLine line cause)

/-- A caller that takes faults is called once for each line. -/
theorem callsOf_lineEvents
    {caller : Caller} (takesErrors : caller.takesErrors = true)
    (lines : List String) :
    callsOf (lines.flatMap (lineEvents caller)) = lines.map lineCall := by
  induction lines with
  | nil => rfl
  | cons line rest ih =>
    rw [List.flatMap_cons, callsOf_append, ih, List.map_cons]
    simp only [lineEvents, lineCall, takesErrors, if_true]
    cases Json.read line <;> rfl

theorem takeRecord_of_readable
    {caller : Caller} (calm : caller.IsCalm) {line : String}
    (readable : IsReadable line) (seen : Seen) :
    takeRecord caller seen line = .quiet (lineEvents caller line) := by
  rw [takeRecord, lineEvents]
  cases outcome : Json.read line with
  | ok value =>
    simp only [Caller.deliver, calm.recordsPass]
    rfl
  | error cause =>
    cases cause with
    | malformed problem position =>
      simp only [Caller.report, calm.errorsPass]
      split <;> rfl
    | tooManyDigits count => exact (readable count outcome).elim

theorem takeRecord_of_tooManyDigits
    {line : String} {count : Nat}
    (refused : Json.read line = .error (.tooManyDigits count))
    (caller : Caller) (seen : Seen) :
    takeRecord caller seen line = ⟨[], some (.json (.tooManyDigits count))⟩ := by
  rw [takeRecord, refused]

/-! ## Lines handed out together -/

theorem handOut_of_readable
    {caller : Caller} (calm : caller.IsCalm) {lines : List String}
    (readable : ∀ line ∈ lines, IsReadable line) (seen : Seen) :
    handOut (takeRecord caller) seen lines =
      .quiet (lines.flatMap (lineEvents caller)) := by
  induction lines generalizing seen with
  | nil => rfl
  | cons line rest ih =>
    rw [List.forall_mem_cons] at readable
    rw [handOut, takeRecord_of_readable calm readable.1]
    simp only [Passage.quiet, ih readable.2, List.flatMap_cons]
    rfl

/-- Nothing comes out of the handing out only if every line is readable. -/
theorem readable_of_handOut
    {caller : Caller} {seen : Seen} {lines : List String}
    (passed : (handOut (takeRecord caller) seen lines).fault = none) :
    ∀ line ∈ lines, IsReadable line := by
  induction lines generalizing seen with
  | nil => simp
  | cons line rest ih =>
    rw [handOut] at passed
    rw [List.forall_mem_cons]
    cases first : (takeRecord caller seen line).fault with
    | some fault => simp [first] at passed
    | none =>
      simp only [first] at passed
      refine ⟨fun count refused => ?_, ih passed⟩
      rw [takeRecord_of_tooManyDigits refused] at first
      cases first

/-- A fault that the content of a stream can end a walk with. -/
def IsContentFault (fault : Fault) : Prop :=
  (∃ cause, fault = .encoding cause) ∨
    ∃ count, fault = .json (.tooManyDigits count)

theorem isContentFault_of_takeRecord
    {caller : Caller} (calm : caller.IsCalm) {seen : Seen} {line : String}
    {fault : Fault} (failed : (takeRecord caller seen line).fault = some fault) :
    IsContentFault fault := by
  by_cases readable : IsReadable line
  · rw [takeRecord_of_readable calm readable] at failed
    cases failed
  · simp only [IsReadable, not_forall, not_not] at readable
    rcases readable with ⟨count, refused⟩
    rw [takeRecord_of_tooManyDigits refused] at failed
    exact Or.inr ⟨count, (Option.some.inj failed).symm⟩

theorem isContentFault_of_handOut
    {caller : Caller} (calm : caller.IsCalm) {seen : Seen}
    {lines : List String} {fault : Fault}
    (failed : (handOut (takeRecord caller) seen lines).fault = some fault) :
    IsContentFault fault := by
  rcases exists_line_of_handOut failed with ⟨front, line, -, raised⟩
  exact isContentFault_of_takeRecord calm raised

/-! ## Walks of a calm caller -/

section Walks

variable {caller : Caller} {reading : List Event} {buffer : LineBuffer}
  {bytes : List UInt8} {text : List Char}

/-- One piece of a walk: what it adds can be decoded and all is readable. -/
theorem walkFrom_piece
    (reading : List Event) (calm : caller.IsCalm) {after : LineBuffer}
    {lines : List String} {piece : List UInt8}
    (fed : buffer.feed piece = .ok (after, lines))
    (readable : ∀ line ∈ lines, IsReadable line)
    (seen : Seen) (others : List Chunk) :
    ∃ later,
      walkFrom caller (takeRecord caller) reading seen buffer
          (.bytes piece :: others) =
        (walkFrom caller (takeRecord caller) reading later after others).after
          (reading ++ lines.flatMap (lineEvents caller)) := by
  rw [walkFrom, calm.neverCancels]
  simp only [Bool.false_eq_true, if_false, fed,
    handOut_of_readable calm readable, Passage.quiet]
  exact ⟨_, rfl⟩

/--
A walk over bytes that decode to readable lines hands out the lines that are
closed, and goes on with a buffer that holds the bytes.
-/
theorem walkFrom_of_readable
    (calm : caller.IsCalm) (silent : callsOf reading = [])
    (holds : buffer.Holds bytes text) (pieces : List (List UInt8))
    {decoded : Text.Decoded} {closed : List (List Char)}
    (success :
      (buffer.encoding.decode (bytes ++ pieces.flatten)).toOption =
        some decoded)
    (closes : closedLines decoded.characters = closedLines text ++ closed)
    (readable : ∀ line ∈ visibleLines closed, IsReadable line)
    (seen : Seen) (others : List Chunk) :
    ∃ events later after,
      walkFrom caller (takeRecord caller) reading seen buffer
          (pieces.map .bytes ++ others) =
        (walkFrom caller (takeRecord caller) reading later after others).after
          events ∧
        callsOf events =
          callsOf ((visibleLines closed).flatMap (lineEvents caller)) ∧
        after.encoding = buffer.encoding ∧
        after.Holds (bytes ++ pieces.flatten) decoded.characters := by
  induction pieces generalizing buffer bytes text closed seen with
  | nil =>
    rw [List.flatten_nil, List.append_nil] at success ⊢
    rw [holds.decoded, Option.some.injEq] at success
    subst success
    rw [List.self_eq_append_right] at closes
    subst closes
    exact ⟨[], seen, buffer, rfl, rfl, rfl, holds⟩
  | cons piece pieces ih =>
    rw [List.flatten_cons, ← List.append_assoc] at success ⊢
    rcases exists_decoded_front success closes with
      ⟨middle, rest, pieceSuccess, behind, divides⟩
    rcases holds.feed pieceSuccess with
      ⟨next, first, fed, firstCloses, sameEncoding, nextHolds⟩
    rw [divides first firstCloses, visibleLines_append] at readable ⊢
    rw [List.forall_mem_append] at readable
    obtain ⟨later, step⟩ :=
      walkFrom_piece reading calm fed readable.1 seen
        (pieces.map .bytes ++ others)
    rw [← sameEncoding] at success
    rcases ih nextHolds success behind readable.2 later with
      ⟨events, last, after, walked, called, lastEncoding, lastHolds⟩
    refine
      ⟨reading ++ (visibleLines first).flatMap (lineEvents caller) ++ events,
        last, after, ?_, ?_, lastEncoding.trans sameEncoding, lastHolds⟩
    · rw [List.map_cons, List.cons_append, step, walked]
      simp only [Walked.after, List.append_assoc]
    · rw [List.flatMap_append, callsOf_append, callsOf_append, callsOf_append,
        silent, called, List.nil_append]

/-- The end of a walk gives up the open line when no byte is unfinished. -/
theorem walkEnd_of_readable
    (calm : caller.IsCalm) (holds : buffer.Holds bytes text)
    (complete : buffer.unfinished = [])
    (readable : ∀ line ∈ visibleLines [openLine text], IsReadable line)
    (seen : Seen) :
    walkEnd (takeRecord caller) seen buffer =
      ⟨(visibleLines [openLine text]).flatMap (lineEvents caller),
        .ended⟩ := by
  rw [walkEnd, holds.finish complete]
  simp only [handOut_of_readable calm readable, Passage.quiet]

theorem readable_of_walkEnd
    (holds : buffer.Holds bytes text) {seen : Seen}
    (ended : (walkEnd (takeRecord caller) seen buffer).ending = .ended) :
    buffer.unfinished = [] ∧
      ∀ line ∈ visibleLines [openLine text], IsReadable line := by
  rw [walkEnd] at ended
  cases finished : buffer.finish with
  | error fault => simp [finished] at ended
  | ok result =>
    have complete := holds.complete_of_finish finished
    rw [holds.finish complete] at ended
    refine ⟨complete, ?_⟩
    cases outcome :
        (handOut (takeRecord caller) seen
          (visibleLines [openLine text])).fault with
    | some fault => simp [outcome] at ended
    | none => exact readable_of_handOut outcome

/-- A walk comes to the end of bytes only if they decode to readable lines. -/
theorem readable_of_walkFrom
    (holds : buffer.Holds bytes text)
    (pieces : List (List UInt8)) {seen : Seen}
    (ended :
      (walkFrom caller (takeRecord caller) reading seen buffer
        (pieces.map .bytes)).ending = .ended) :
    ∃ decoded closed,
      (buffer.encoding.decode (bytes ++ pieces.flatten)).toOption =
          some decoded ∧
        decoded.unfinished = [] ∧
        closedLines decoded.characters = closedLines text ++ closed ∧
        ∀ line ∈ visibleLines (closed ++ [openLine decoded.characters]),
          IsReadable line := by
  induction pieces generalizing buffer bytes text seen with
  | nil =>
    rw [List.map_nil, walkFrom] at ended
    split at ended
    · cases ended
    · rcases readable_of_walkEnd holds ended with ⟨complete, readable⟩
      rw [List.flatten_nil, List.append_nil]
      exact
        ⟨_, [], holds.decoded, complete, (List.append_nil _).symm, readable⟩
  | cons piece pieces ih =>
    rw [List.map_cons, walkFrom] at ended
    split at ended
    · cases ended
    · cases fed : buffer.feed piece with
      | error fault => simp [fed] at ended
      | ok result =>
        rcases result with ⟨next, lines⟩
        rcases holds.decode_of_feed fed with ⟨middle, pieceSuccess⟩
        rcases holds.feed pieceSuccess with
          ⟨same, first, fedAgain, firstCloses, sameEncoding, nextHolds⟩
        rw [fed, Except.ok.injEq, Prod.mk.injEq] at fedAgain
        rcases fedAgain with ⟨rfl, rfl⟩
        cases outcome :
            (handOut (takeRecord caller) (seen.afterAll reading)
              (visibleLines first)).fault with
        | some fault => simp [fed, outcome] at ended
        | none =>
          simp only [fed, outcome, Walked.after] at ended
          rcases ih nextHolds ended with
            ⟨decoded, closed, success, complete, closes, readable⟩
          rw [List.flatten_cons, ← List.append_assoc, ← sameEncoding]
          refine ⟨decoded, first ++ closed, success, complete, ?_, ?_⟩
          · rw [closes, firstCloses, List.append_assoc]
          · rw [List.append_assoc, visibleLines_append,
              List.forall_mem_append]
            exact ⟨readable_of_handOut outcome, readable⟩

/-- A walk over bytes ends at the end of the stream or by its content. -/
theorem ending_of_walkFrom
    (calm : caller.IsCalm) (pieces : List (List UInt8)) (seen : Seen) :
    (walkFrom caller (takeRecord caller) reading seen buffer
        (pieces.map .bytes)).ending = .ended ∨
      ∃ fault,
        (walkFrom caller (takeRecord caller) reading seen buffer
            (pieces.map .bytes)).ending = .failed fault ∧
          IsContentFault fault := by
  induction pieces generalizing buffer seen with
  | nil =>
    rw [List.map_nil, walkFrom, calm.neverCancels]
    simp only [Bool.false_eq_true, if_false, Walked.after, walkEnd]
    cases buffer.finish with
    | error cause => exact Or.inr ⟨_, rfl, Or.inl ⟨cause, rfl⟩⟩
    | ok result =>
      cases outcome :
          (handOut (takeRecord caller) (seen.afterAll reading)
            result.2).fault with
      | none => exact Or.inl (by simp [outcome])
      | some fault =>
        exact
          Or.inr
            ⟨fault, by simp [outcome],
              isContentFault_of_handOut calm outcome⟩
  | cons piece pieces ih =>
    rw [List.map_cons, walkFrom, calm.neverCancels]
    simp only [Bool.false_eq_true, if_false]
    cases buffer.feed piece with
    | error cause => exact Or.inr ⟨_, rfl, Or.inl ⟨cause, rfl⟩⟩
    | ok result =>
      rcases result with ⟨next, lines⟩
      cases outcome :
          (handOut (takeRecord caller) (seen.afterAll reading) lines).fault with
      | none =>
        simp only [outcome, Walked.after]
        exact ih _
      | some fault =>
        exact
          Or.inr
            ⟨fault, by simp [outcome],
              isContentFault_of_handOut calm outcome⟩

end Walks

/-! ## The end of a stream is reported last -/

/-- No walk reports the end of its stream. -/
theorem complete_notMem_walkFrom
    (caller : Caller) {reading : List Event}
    (silent : Event.complete ∉ reading) (seen : Seen) (buffer : LineBuffer)
    (chunks : List Chunk) :
    Event.complete ∉
      (walkFrom caller (takeRecord caller) reading seen buffer
        chunks).events := by
  have ofLines (seen : Seen) (line : String) :
      ∀ event ∈ (takeRecord caller seen line).events,
        event ≠ .complete := by
    rintro event member rfl
    cases isOfLine_of_mem_takeRecord caller seen line _ member
  have ofReading : ∀ event ∈ reading, event ≠ .complete := by
    rintro event member rfl
    exact silent member
  intro member
  exact
    forall_mem_walkFrom ofLines ofReading Event.noConfusion caller seen buffer
      chunks _ member rfl

end ApiAtlas.Stream
