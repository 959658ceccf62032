import ApiAtlas.Proofs.Outcome
import ApiAtlas.Proofs.Stream.Lines
import ApiAtlas.Stream.BufferCalls
import Mathlib.Data.List.Induction

/-!
# Line buffers after any calls

Decoding is the only step of a call that may fail, and it fails before it has
changed anything.  So a buffer stands where the calls that did not fail have
brought it: it holds the open line of the text that the bytes since the last
end of the input decode to, and has given back the closed lines of that text.
Each line is given back by the call that brings its line feed.
-/

namespace ApiAtlas.Stream.LineBuffer

variable {encoding : Text.Encoding} {buffer : LineBuffer} {call : Call}
  {calls : List Call} {taken more : List UInt8} {text : List Char}

/-! ## Steps -/

namespace OnBuffer

/-- Steps behind others work on what those have left, unless they failed. -/
theorem on_bind
    {α β : Type} (first : OnBuffer α) (next : α → OnBuffer β)
    (buffer : LineBuffer) :
    (first >>= next).on buffer =
      match first.on buffer with
      | (.ok value, after) => (next value).on after
      | (.error fault, after) => (.error fault, after) := by
  have asked :
      (first >>= next).on buffer =
        ((ExceptT.bindCont next (first.on buffer).1).run
          (first.on buffer).2).run :=
    rfl
  rw [asked]
  rcases first.on buffer with ⟨fault | value, after⟩ <;> rfl

theorem on_decodeMore (bytes : List UInt8) (buffer : LineBuffer) :
    (decodeMore bytes).on buffer =
      match buffer.encoding.decode (buffer.unfinished ++ bytes) with
      | .ok decoded =>
        (.ok decoded.characters,
          { buffer with unfinished := decoded.unfinished })
      | .error fault => (.error fault, buffer) := by
  have asked :
      (decodeMore bytes).on buffer =
        (takeOver
          (buffer.encoding.decode (buffer.unfinished ++ bytes))).on buffer :=
    rfl
  rw [asked]
  cases buffer.encoding.decode (buffer.unfinished ++ bytes) <;> rfl

theorem on_decodeLast (buffer : LineBuffer) :
    decodeLast.on buffer =
      match buffer.encoding.decodeAll buffer.unfinished with
      | .ok arrived => (.ok arrived, { buffer with unfinished := [] })
      | .error fault => (.error fault, buffer) := by
  have asked :
      decodeLast.on buffer =
        (takeOver ((buffer.encoding.decodeAll buffer.unfinished).map
          (⟨·, []⟩))).on buffer :=
    rfl
  rw [asked]
  cases buffer.encoding.decodeAll buffer.unfinished <;> rfl

end OnBuffer

/-! ## One call -/

namespace Call

theorem perform_feed (bytes : List UInt8) (buffer : LineBuffer) :
    (feed bytes).perform buffer =
      match buffer.feed bytes with
      | .ok (after, lines) => (.ok lines, after)
      | .error fault => (.error fault, buffer) := by
  rw [perform, steps, OnBuffer.on_bind, OnBuffer.on_decodeMore,
    LineBuffer.feed]
  cases buffer.encoding.decode (buffer.unfinished ++ bytes) <;> rfl

/-- A call that fails has changed nothing. -/
theorem perform_of_error
    {fault : Text.DecodeFault}
    (failed : (call.perform buffer).1 = .error fault) :
    (call.perform buffer).2 = buffer := by
  cases call with
  | feed bytes =>
    rw [perform_feed] at failed ⊢
    cases outcome : buffer.feed bytes with
    | ok result =>
      rw [outcome] at failed
      cases failed
    | error fault => rfl
  | finish =>
    rw [perform, steps, OnBuffer.on_bind, OnBuffer.on_decodeLast] at failed ⊢
    cases outcome : buffer.encoding.decodeAll buffer.unfinished with
    | ok arrived =>
      rw [outcome] at failed
      cases failed
    | error fault => rfl

end Call

/-- Bytes that cannot be decoded behind those before are refused. -/
theorem Holds.perform_feed_of_none
    (holds : buffer.Holds taken text)
    (failure : (buffer.encoding.decode (taken ++ more)).toOption = none) :
    ∃ fault, (Call.feed more).perform buffer = (.error fault, buffer) := by
  rw [Call.perform_feed]
  cases outcome : buffer.feed more with
  | error fault => exact ⟨fault, rfl⟩
  | ok result =>
    rcases holds.decode_of_feed outcome with ⟨decoded, success⟩
    rw [failure] at success
    cases success

/-- At the end no text arrives, for what is unfinished holds no character. -/
theorem Holds.perform_finish_eq (holds : buffer.Holds taken text) :
    Call.finish.perform buffer =
      match buffer.finish with
      | .ok (after, lines) => (.ok lines, after)
      | .error fault => (.error fault, buffer) := by
  rw [Call.perform, Call.steps, OnBuffer.on_bind, OnBuffer.on_decodeLast,
    LineBuffer.finish]
  cases outcome : buffer.encoding.decodeAll buffer.unfinished with
  | error fault => rfl
  | ok arrived =>
    have whole :=
      Text.Encoding.decodeAll_eq buffer.encoding buffer.unfinished
    rw [Text.Encoding.decode_unfinished holds.decoded, outcome] at whole
    rcases Option.ite_none_right_eq_some.1 whole.symm with ⟨-, same⟩
    cases same
    simp only [bind, Except.bind, List.append_nil]
    rfl

/-- Without unfinished bytes the end gives the open line and a new buffer. -/
theorem Holds.perform_finish
    (holds : buffer.Holds taken text) (complete : buffer.unfinished = []) :
    Call.finish.perform buffer =
      (.ok (visibleLines [openLine text]), start buffer.encoding) := by
  rw [holds.perform_finish_eq, holds.finish complete]

/-- While bytes are unfinished the end is refused. -/
theorem Holds.perform_finish_of_unfinished
    (holds : buffer.Holds taken text) (unfinished : buffer.unfinished ≠ []) :
    ∃ fault, Call.finish.perform buffer = (.error fault, buffer) := by
  rw [holds.perform_finish_eq]
  cases outcome : buffer.finish with
  | error fault => exact ⟨fault, rfl⟩
  | ok result => exact (unfinished (holds.complete_of_finish outcome)).elim

/-! ## Calls one after the other -/

theorem after_append (buffer : LineBuffer) (earlier later : List Call) :
    buffer.after (earlier ++ later) = (buffer.after earlier).after later :=
  List.foldl_append

theorem outcomes_append (buffer : LineBuffer) (earlier later : List Call) :
    buffer.outcomes (earlier ++ later) =
      buffer.outcomes earlier ++ (buffer.after earlier).outcomes later := by
  induction earlier generalizing buffer with
  | nil => rfl
  | cons call rest ih =>
    rw [List.cons_append, outcomes, outcomes, ih, List.cons_append]
    rfl

theorem length_outcomes (buffer : LineBuffer) (calls : List Call) :
    (buffer.outcomes calls).length = calls.length := by
  induction calls generalizing buffer with
  | nil => rfl
  | cons call rest ih => rw [outcomes, List.length_cons, ih, List.length_cons]

/-- What the calls since the last end of the input have come to. -/
structure Progress where
  /-- The bytes that were taken. -/
  taken : List UInt8
  /-- The lines that were given back. -/
  given : List String

namespace Progress

/-- Nothing has been taken yet. -/
def start : Progress := ⟨[], []⟩

/-- A call that fails adds nothing, and the end of the input starts anew. -/
def next (progress : Progress) :
    Call × Except Text.DecodeFault (List String) → Progress
  | (.feed bytes, .ok lines) =>
    ⟨progress.taken ++ bytes, progress.given ++ lines⟩
  | (.finish, .ok _) => start
  | (_, .error _) => progress

/-- What some calls on a new buffer have come to. -/
def after (encoding : Text.Encoding) (calls : List Call) : Progress :=
  (calls.zip ((LineBuffer.start encoding).outcomes calls)).foldl next start

theorem after_concat
    (encoding : Text.Encoding) (calls : List Call) (call : Call) :
    after encoding (calls ++ [call]) =
      (after encoding calls).next
        (call, (call.perform ((LineBuffer.start encoding).after calls)).1) := by
  rw [after, outcomes_append,
    List.zip_append (length_outcomes _ calls).symm, List.foldl_append]
  rfl

end Progress

/-- A buffer that stands where calls have brought it since the last end. -/
structure Follows (encoding : Text.Encoding) (progress : Progress)
    (buffer : LineBuffer) (text : List Char) : Prop where
  encoding_eq : buffer.encoding = encoding
  holds : buffer.Holds progress.taken text
  given : progress.given = visibleLines (closedLines text)

/-- After one more call the buffer stands as before, further on or afresh. -/
theorem Follows.next
    {progress : Progress} (before : Follows encoding progress buffer text)
    (call : Call) :
    ∃ text,
      Follows encoding (progress.next (call, (call.perform buffer).1))
        (call.perform buffer).2 text := by
  have afresh : Follows encoding .start (start encoding) [] :=
    ⟨rfl, start_holds encoding, rfl⟩
  cases call with
  | finish =>
    by_cases complete : buffer.unfinished = []
    · rw [before.holds.perform_finish complete, before.encoding_eq]
      exact ⟨[], afresh⟩
    · rcases before.holds.perform_finish_of_unfinished complete with
        ⟨fault, refused⟩
      rw [refused]
      exact ⟨text, before⟩
  | feed bytes =>
    cases success :
        (buffer.encoding.decode (progress.taken ++ bytes)).toOption with
    | none =>
      rcases before.holds.perform_feed_of_none success with ⟨fault, refused⟩
      rw [refused]
      exact ⟨text, before⟩
    | some decoded =>
      rcases before.holds.feed success with
        ⟨after, closed, fed, grown, encodingEq, holds⟩
      rw [Call.perform_feed, fed]
      refine
        ⟨decoded.characters, encodingEq.trans before.encoding_eq, holds, ?_⟩
      rw [grown, visibleLines_append, ← before.given]
      rfl

theorem follows_after (encoding : Text.Encoding) (calls : List Call) :
    ∃ text,
      Follows encoding (.after encoding calls)
        ((start encoding).after calls) text := by
  induction calls using List.reverseRecOn with
  | nil => exact ⟨[], rfl, start_holds encoding, rfl⟩
  | append_singleton calls call ih =>
    rcases ih with ⟨text, before⟩
    rw [Progress.after_concat, after_append]
    exact before.next call

/-! ## What a buffer holds and how it answers -/

/--
The text of the bytes since the last end of the input: its closed lines have
been given back, and its open line is held.
-/
structure IsCurrent (encoding : Text.Encoding) (progress : Progress)
    (buffer : LineBuffer) (text : List Char) : Prop where
  decoded :
    (encoding.decode progress.taken).toOption = some ⟨text, buffer.unfinished⟩
  written : progress.taken = encoding.bytesOf text ++ buffer.unfinished
  given : progress.given = visibleLines (closedLines text)
  closed : (closedLines text).length = progress.taken.count 0x0A
  rest : buffer.rest = openLine text
  newline_notMem_rest : '\n' ∉ buffer.rest

/-- How a buffer that holds the open line of a text answers the next call. -/
structure Answers (encoding : Text.Encoding) (progress : Progress)
    (buffer : LineBuffer) (text : List Char) : Prop where
  /-- Bytes give the lines that they close, one for each of their line feeds. -/
  feed : ∀ more decoded,
    (encoding.decode (progress.taken ++ more)).toOption = some decoded →
      ∃ closed,
        closedLines decoded.characters = closedLines text ++ closed ∧
          closed.length = more.count 0x0A ∧
          ((Call.feed more).perform buffer).1 = .ok (visibleLines closed)
  feed_refused : ∀ more,
    (encoding.decode (progress.taken ++ more)).toOption = none →
      ∃ fault, (Call.feed more).perform buffer = (.error fault, buffer)
  finish : buffer.unfinished = [] →
    Call.finish.perform buffer =
      (.ok (visibleLines [openLine text]), start encoding)
  finish_refused : buffer.unfinished ≠ [] →
    ∃ fault, Call.finish.perform buffer = (.error fault, buffer)

variable {progress : Progress}

theorem Follows.isCurrent
    (follows : Follows encoding progress buffer text) :
    IsCurrent encoding progress buffer text := by
  have decoded := follows.holds.decoded
  rw [follows.encoding_eq] at decoded
  refine
    ⟨decoded, Text.Encoding.eq_of_decode decoded, follows.given, ?_,
      follows.holds.rest, ?_⟩
  · rw [length_closedLines, Text.Encoding.count_newline_of_decode decoded]
  · rw [follows.holds.rest]
    exact newline_notMem_openLine text

theorem Follows.answers
    (follows : Follows encoding progress buffer text) :
    Answers encoding progress buffer text := by
  have holds := follows.holds
  have before := follows.isCurrent.closed
  rcases follows.encoding_eq with rfl
  refine
    ⟨?_, fun more => holds.perform_feed_of_none, holds.perform_finish,
      holds.perform_finish_of_unfinished⟩
  intro more decoded success
  rcases holds.feed success with ⟨after, closed, fed, grown, -⟩
  refine ⟨closed, grown, ?_, ?_⟩
  · have whole := Text.Encoding.count_newline_of_decode success
    have count := congrArg List.length grown
    rw [List.count_append] at whole
    rw [List.length_append, length_closedLines, ← whole, before] at count
    exact (Nat.add_left_cancel count).symm
  · rw [Call.perform_feed, fed]

/--
After any calls on a new buffer the bytes since the last end of the input, those
of failed calls left aside, decode to a text whose closed lines have been given
back and whose open line is held, and the next call is answered accordingly.  A
call that fails leaves the buffer as it was, and the calls after it have the
outcomes that they have without it.
-/
theorem lineBuffer_after (encoding : Text.Encoding) (calls : List Call) :
    (∃ text,
        IsCurrent encoding (.after encoding calls)
            ((start encoding).after calls) text ∧
          Answers encoding (.after encoding calls)
            ((start encoding).after calls) text) ∧
      ∀ call fault,
        (call.perform ((start encoding).after calls)).1 = .error fault →
          (call.perform ((start encoding).after calls)).2 =
              (start encoding).after calls ∧
            ∀ later,
              (start encoding).after (calls ++ call :: later) =
                  (start encoding).after (calls ++ later) ∧
                ∃ others,
                  (start encoding).outcomes (calls ++ later) =
                      (start encoding).outcomes calls ++ others ∧
                    (start encoding).outcomes (calls ++ call :: later) =
                      (start encoding).outcomes calls ++
                        .error fault :: others := by
  constructor
  · rcases follows_after encoding calls with ⟨text, follows⟩
    exact ⟨text, follows.isCurrent, follows.answers⟩
  · intro call fault failed
    have unchanged := Call.perform_of_error failed
    refine ⟨unchanged, fun later => ⟨?_, _, outcomes_append _ calls later, ?_⟩⟩
    · rw [after_append, after_append, after, List.foldl_cons, unchanged]
      rfl
    · rw [outcomes_append, outcomes, failed, unchanged]

/--
The bytes of one character arrive in two calls, between which the end is
refused, and the return and the feed of one line end in two others.
-/
example :
    ((start .utf8).outcomes
        [.feed [0x61, 0xC3], .finish, .feed [0xA9, 0x0D], .feed [0x0A, 0x62],
          .finish]).map Except.toOption =
      [some [], none, some [], some ["aé"], some ["b"]] := by
  decide +kernel

end ApiAtlas.Stream.LineBuffer
