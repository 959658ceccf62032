import ApiAtlas.Proofs.Json.Reader
import ApiAtlas.Proofs.Stream.Delivery

/-!
# Streams of records

A calm caller that takes faults and the end is called once for each line of a
text that arrives, and then once for the end.  When a read fails, the lines
that were closed by then are called out, then the failure, and nothing more.

Bytes that are no text, and numbers with too many digits, are the two kinds of
content for which a fault comes out of the consuming instead.
-/

namespace ApiAtlas.Stream

/-- The calls of a caller for some lines. -/
def lineCalls (lines : List (List Char)) : List Event :=
  (visibleLines lines).map lineCall

section Walks

variable {caller : Caller} {text : List Char} {pieces : List (List UInt8)}

/-- A walk over all bytes of a text comes to the end of the stream. -/
theorem walk_of_readable
    (calm : caller.IsCalm) (whole : pieces.flatten = Text.utf8Of text)
    (readable : ∀ line ∈ visibleLines (linesOf text), IsReadable line)
    (kind : StreamKind) :
    ∃ events,
      walk caller (takeRecord caller) ⟨kind, pieces.map .bytes⟩ =
          ⟨events, .ended⟩ ∧
        callsOf events =
          callsOf ((visibleLines (linesOf text)).flatMap
            (lineEvents caller)) := by
  have silent := callsOf_reading ⟨kind, pieces.map .bytes⟩
  have success :
      (Text.Encoding.utf8.decode ([] ++ pieces.flatten)).toOption =
        some ⟨text, []⟩ :=
    Text.decodeUtf8_eq_iff.2 whole
  rw [linesOf_eq_closed_append, visibleLines_append] at readable ⊢
  rw [List.forall_mem_append] at readable
  obtain ⟨events, later, after, walked, called, sameEncoding, holds⟩ :=
    walkFrom_of_readable calm silent (LineBuffer.start_holds .utf8) pieces
      success (List.nil_append _).symm readable.1 .none []
  have complete : after.unfinished = [] := by
    have decoded := holds.decoded
    rw [sameEncoding] at decoded
    exact
      (congrArg Text.Decoded.unfinished
        (Option.some.inj (success.symm.trans decoded))).symm
  rw [List.append_nil, walkFrom, calm.neverCancels,
    walkEnd_of_readable calm holds complete readable.2] at walked
  simp only [Bool.false_eq_true, if_false, Walked.after] at walked
  refine ⟨_, walked, ?_⟩
  rw [callsOf_append, called, callsOf_append, silent, List.nil_append,
    List.flatMap_append, callsOf_append]

/--
A walk whose read fails has handed out the lines closed by then, which the line
feeds among the bytes count.
-/
theorem walk_of_broken
    (calm : caller.IsCalm) {missing : List (List UInt8)}
    (whole : (pieces ++ missing).flatten = Text.utf8Of text)
    (readable : ∀ line ∈ visibleLines (linesOf text), IsReadable line)
    (kind : StreamKind) (message : String) (unread : List Chunk) :
    ∃ events,
      walk caller (takeRecord caller)
            ⟨kind, pieces.map .bytes ++ .failure message :: unread⟩ =
          ⟨events, .broken message⟩ ∧
        callsOf events =
          callsOf
            ((visibleLines
              ((linesOf text).take (pieces.flatten.count 0x0A))).flatMap
                (lineEvents caller)) := by
  have silent :=
    callsOf_reading
      ⟨kind, pieces.map .bytes ++ .failure message :: unread⟩
  have success :
      (Text.Encoding.utf8.decode (pieces ++ missing).flatten).toOption =
        some ⟨text, []⟩ :=
    Text.decodeUtf8_eq_iff.2 whole
  rw [List.flatten_append, Text.Encoding.decode_append,
    Option.bind_eq_some_iff] at success
  rcases success with ⟨arrived, success, rest⟩
  rcases Option.map_eq_some_iff.1 rest with ⟨below, -, textEq⟩
  have textCut : arrived.characters ++ below.characters = text :=
    congrArg Text.Decoded.characters textEq
  have linesCut := linesOf_append arrived.characters below.characters
  rw [textCut] at linesCut
  have taken :
      (linesOf text).take (pieces.flatten.count 0x0A) =
        closedLines arrived.characters := by
    rw [Text.count_newline_of_decodeUtf8 success, ← length_closedLines,
      linesCut, List.take_left]
  rw [linesCut, visibleLines_append, List.forall_mem_append] at readable
  obtain ⟨events, later, after, walked, called, -, -⟩ :=
    walkFrom_of_readable calm silent (LineBuffer.start_holds .utf8) pieces
      success (List.nil_append _).symm readable.1 .none
      (.failure message :: unread)
  rw [walkFrom, calm.neverCancels] at walked
  simp only [Bool.false_eq_true, if_false, Walked.after] at walked
  refine ⟨_, walked, ?_⟩
  rw [callsOf_append, called, silent, List.append_nil, taken]

end Walks

/-! ## Consuming -/

section Consuming

variable {caller : Caller} {source : Source} {events : List Event}

theorem consume_of_ended
    (calm : caller.IsCalm)
    (walked : walk caller (takeRecord caller) source = ⟨events, .ended⟩) :
    (consume caller source).fault = none ∧
      (consume caller source).calls = callsOf events ++ caller.finish := by
  rw [consume, walked]
  refine ⟨rfl, ?_⟩
  simp only [conclude, completion, calm.neverCancels, Passage.calls,
    Passage.after, Passage.quiet, callsOf_append, callsOf_closing,
    callsOf_finish, Bool.false_eq_true, if_false, List.nil_append]

/-- The failure of a read is reported behind all lines. -/
theorem consume_of_broken
    {message : String}
    (walked :
      walk caller (takeRecord caller) source = ⟨events, .broken message⟩) :
    ∃ seen,
      (consume caller source).fault =
          (caller.report seen (.readFailed message)).fault ∧
        (consume caller source).calls =
          callsOf events ++
            (caller.report seen (.readFailed message)).calls := by
  rw [consume, walked]
  refine ⟨_, rfl, ?_⟩
  simp only [conclude, Passage.calls, Passage.after, callsOf_append,
    callsOf_closing, List.nil_append]

/-- A fault of the content comes out after the stream has been closed. -/
theorem consume_of_failed
    {fault : Fault} (content : IsContentFault fault)
    (failed :
      (walk caller (takeRecord caller) source).ending = .failed fault) :
    consume caller source =
      ⟨(walk caller (takeRecord caller) source).events ++ source.closing,
        some fault⟩ := by
  have noTransport : fault.isTransport = false := by
    rcases content with ⟨cause, rfl⟩ | ⟨count, rfl⟩ <;> rfl
  rw [consume, failed]
  simp only [conclude, noTransport, Bool.false_eq_true, if_false]
  rfl

/-- A walk comes to the end of pieces only if they make readable text. -/
theorem readable_of_walk
    {pieces : List (List UInt8)} {kind : StreamKind}
    (ended :
      (walk caller (takeRecord caller)
        ⟨kind, pieces.map .bytes⟩).ending = .ended) :
    ∃ text : String,
      pieces.flatten = Text.utf8Bytes text ∧
        ∀ line ∈ visibleLines (linesOf text.toList), IsReadable line := by
  rcases readable_of_walkFrom (LineBuffer.start_holds .utf8) pieces ended with
    ⟨decoded, closed, success, complete, closes, readable⟩
  refine ⟨String.ofList decoded.characters, ?_, ?_⟩
  · rcases decoded with ⟨characters, unfinished⟩
    subst complete
    rw [Text.utf8Bytes, String.toList_ofList]
    exact Text.decodeUtf8_eq_iff.1 success
  · rw [String.toList_ofList, linesOf_eq_closed_append, closes]
    exact readable

/-- Nothing but the content ends a walk over pieces before their end. -/
theorem ended_or_consume_fails
    (calm : caller.IsCalm) (kind : StreamKind) (pieces : List (List UInt8)) :
    (walk caller (takeRecord caller)
        ⟨kind, pieces.map .bytes⟩).ending = .ended ∨
      ∃ events fault,
        consume caller ⟨kind, pieces.map .bytes⟩ = ⟨events, some fault⟩ ∧
          IsContentFault fault ∧ Event.complete ∉ events := by
  rcases ending_of_walkFrom calm pieces .none with
    ended | ⟨fault, failed, content⟩
  · exact Or.inl ended
  · refine
      Or.inr ⟨_, fault, consume_of_failed content failed, content, ?_⟩
    rw [List.mem_append, not_or]
    constructor
    · apply complete_notMem_walkFrom
      rw [Source.reading]
      split <;> simp
    · rw [Source.closing]
      split <;> simp

/-- All lines of a readable text are called out, and then its end. -/
theorem consume_of_text
    (calm : caller.IsCalm) (takesErrors : caller.takesErrors = true)
    (takesEnd : caller.takesEnd = true)
    {text : String} {pieces : List (List UInt8)}
    (whole : pieces.flatten = Text.utf8Bytes text)
    (readable :
      ∀ line ∈ visibleLines (linesOf text.toList), IsReadable line)
    (kind : StreamKind) :
    (consume caller ⟨kind, pieces.map .bytes⟩).fault = none ∧
      (consume caller ⟨kind, pieces.map .bytes⟩).calls =
        lineCalls (linesOf text.toList) ++ [.complete] := by
  rcases walk_of_readable calm whole readable kind with
    ⟨events, walked, called⟩
  rw [callsOf_lineEvents takesErrors] at called
  have ended := consume_of_ended calm walked
  rwa [called, Caller.finish, if_pos takesEnd] at ended

end Consuming

/-! ## What a caller learns -/

/--
A stream of readable text is delivered line by line, and then its end.  If a
read fails instead, the lines closed by then are delivered, and then the
failure.  How the text was cut into pieces cannot be told from the calls.
-/
theorem consume_of_readable
    {caller : Caller} (calm : caller.IsCalm)
    (takesErrors : caller.takesErrors = true)
    (takesEnd : caller.takesEnd = true)
    {text : String} {pieces : List (List UInt8)}
    (whole : pieces.flatten = Text.utf8Bytes text)
    (readable :
      ∀ line ∈ visibleLines (linesOf text.toList), IsReadable line) :
    (∀ kind : StreamKind,
      (consume caller ⟨kind, pieces.map .bytes⟩).fault = none ∧
        (consume caller ⟨kind, pieces.map .bytes⟩).calls =
          lineCalls (linesOf text.toList) ++ [.complete]) ∧
      (∀ (kind : StreamKind) (arrived missing : List (List UInt8))
          (message : String) (unread : List Chunk),
        pieces = arrived ++ missing →
          let source : Source :=
            ⟨kind, arrived.map .bytes ++ .failure message :: unread⟩
          (consume caller source).fault = none ∧
            (consume caller source).calls =
              lineCalls
                  ((linesOf text.toList).take (arrived.flatten.count 0x0A)) ++
                [.error (.readFailed message)]) ∧
      ∀ (kind otherKind : StreamKind) (others : List (List UInt8)),
        others.flatten = pieces.flatten →
          (consume caller ⟨otherKind, others.map .bytes⟩).calls =
            (consume caller ⟨kind, pieces.map .bytes⟩).calls := by
  refine
    ⟨consume_of_text calm takesErrors takesEnd whole readable, ?_, ?_⟩
  · intro kind arrived missing message unread cut
    rw [cut] at whole
    rcases walk_of_broken calm whole readable kind message unread with
      ⟨events, walked, called⟩
    rw [callsOf_lineEvents takesErrors] at called
    rcases consume_of_broken walked with ⟨seen, faultEq, callsEq⟩
    rw [Caller.report_of_takesErrors calm takesErrors] at faultEq callsEq
    rw [called] at callsEq
    exact ⟨faultEq, callsEq⟩
  · intro kind otherKind others sameBytes
    have delivered :=
      consume_of_text calm takesErrors takesEnd whole readable kind
    have alsoDelivered :=
      consume_of_text calm takesErrors takesEnd (sameBytes.trans whole)
        readable otherKind
    rw [alsoDelivered.2, delivered.2]

/--
A record and a line that holds none, the bytes being cut between the return
and the line feed and inside of the last character.
-/
theorem consume_of_readable_in_pieces :
    (consume attentive
        ⟨.plain,
          [[0x7B, 0x7D, 0x0D], [], [0x0A, 0xC3], [0xBC]].map .bytes⟩).calls =
      [.record (.map []),
        .error (.undecodableLine "ü" (.malformed .expectedValue ⟨1, 1, 0⟩)),
        .complete] := by
  have noRecord :
      Json.read "ü" = .error (.malformed .expectedValue ⟨1, 1, 0⟩) :=
    Json.readCharacters_singleton 'ü' (by decide) (by decide) (by decide)
  have lines :
      visibleLines (linesOf "{}\r\nü".toList) = ["{}", "ü"] := by
    decide
  have readable :
      ∀ line ∈ visibleLines (linesOf "{}\r\nü".toList),
        IsReadable line := by
    rw [lines]
    simp [IsReadable, Json.read_braces, noRecord]
  have whole :
      [[0x7B, 0x7D, 0x0D], [], [0x0A, 0xC3], [0xBC]].flatten =
        Text.utf8Bytes "{}\r\nü" := by
    decide
  have delivered :=
    (consume_of_readable attentive_isCalm rfl rfl whole readable).1 .plain
  rw [delivered.2, lineCalls, lines]
  simp [lineCall, Json.read_braces, noRecord]

/--
Pieces of bytes are consumed without a fault if and only if they make a text
of readable lines.  Then each line is called out once and the end last;
otherwise the content is at fault and no end is reported.
-/
theorem consume_passes_iff
    {caller : Caller} (calm : caller.IsCalm)
    (takesErrors : caller.takesErrors = true)
    (takesEnd : caller.takesEnd = true)
    (kind : StreamKind) (pieces : List (List UInt8)) :
    let passage := consume caller ⟨kind, pieces.map .bytes⟩
    (passage.fault = none ↔
      ∃ text : String,
        pieces.flatten = Text.utf8Bytes text ∧
          ∀ line ∈ visibleLines (linesOf text.toList), IsReadable line) ∧
      (∀ text : String,
        pieces.flatten = Text.utf8Bytes text →
          (∀ line ∈ visibleLines (linesOf text.toList), IsReadable line) →
            passage.calls =
              lineCalls (linesOf text.toList) ++ [.complete]) ∧
      ∀ fault, passage.fault = some fault →
        IsContentFault fault ∧ Event.complete ∉ passage.events := by
  intro passage
  have ends :
      (walk caller (takeRecord caller)
          ⟨kind, pieces.map .bytes⟩).ending = .ended ∨
        ∃ events fault,
          passage = ⟨events, some fault⟩ ∧
            IsContentFault fault ∧ Event.complete ∉ events :=
    ended_or_consume_fails calm kind pieces
  refine ⟨⟨?_, ?_⟩, ?_, ?_⟩
  · intro passed
    rcases ends with ended | ⟨events, fault, failed, -, -⟩
    · exact readable_of_walk ended
    · rw [failed] at passed
      cases passed
  · rintro ⟨text, whole, readable⟩
    exact
      (consume_of_text calm takesErrors takesEnd whole readable kind).1
  · intro text whole readable
    exact
      (consume_of_text calm takesErrors takesEnd whole readable kind).2
  · intro fault failed
    rcases ends with ended | ⟨events, other, same, content, noEnd⟩
    · rcases readable_of_walk ended with ⟨text, whole, readable⟩
      have passed :=
        (consume_of_text calm takesErrors takesEnd whole readable kind).1
      cases passed.symm.trans failed
    · rw [same] at failed ⊢
      cases failed
      exact ⟨content, noEnd⟩

/-- At a byte that no text holds, the consuming fails and reports no end. -/
theorem consume_passes_iff_stray_byte :
    let passage := consume attentive ⟨.plain, [[0xFF, 0x0A]].map .bytes⟩
    passage.fault =
        some (.encoding ⟨.utf8, 0xFF, 0, 1, .invalidStart⟩) ∧
      Event.complete ∉ passage.events := by
  have failed :
      (consume attentive ⟨.plain, [[0xFF, 0x0A]].map .bytes⟩).fault =
        some (.encoding ⟨.utf8, 0xFF, 0, 1, .invalidStart⟩) := by
    decide +kernel
  have fails :=
    (consume_passes_iff attentive_isCalm rfl rfl .plain [[0xFF, 0x0A]]).2.2
  exact ⟨failed, (fails _ failed).2⟩

/-- A caller that takes faults is not told of every line that holds no record. -/
theorem not_forall_consume_passes :
    ¬ ∀ caller : Caller, caller.IsCalm →
      caller.takesErrors = true → caller.takesEnd = true →
        ∀ (kind : StreamKind) (pieces : List (List UInt8)),
          (consume caller ⟨kind, pieces.map .bytes⟩).fault = none := by
  intro passes
  have passed :=
    passes attentive attentive_isCalm rfl rfl .plain [[0xFF, 0x0A]]
  revert passed
  decide +kernel

end ApiAtlas.Stream
