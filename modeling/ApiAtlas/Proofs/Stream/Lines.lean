import ApiAtlas.Proofs.Text.Parts
import ApiAtlas.Proofs.Text.Utf8
import ApiAtlas.Stream.LineBuffer

/-!
# The lines of a text and of a line buffer

`linesOf` cuts a text at its line ends, a carriage return before a line feed
being part of the line end.  All lines but the last are closed; the last one
is open, and a text that grows changes nothing but the open line.

A line buffer that has taken some bytes holds the open line of the text that
the bytes decode to, and the bytes of a character that is not complete.  Each
feed gives back the lines that it closes, whatever the pieces are into which
the bytes were cut.
-/

namespace ApiAtlas.Stream

/-! ## Lines of a text -/

/-- The lines of a text: it is cut at each line feed and the return before it. -/
def linesOf : List Char → List (List Char)
  | [] => [[]]
  | '\r' :: '\n' :: rest => [] :: linesOf rest
  | '\n' :: rest => [] :: linesOf rest
  | c :: rest => (linesOf rest).modifyHead (c :: ·)

/-- The lines of a text that a line end follows. -/
def closedLines (text : List Char) : List (List Char) :=
  (linesOf text).dropLast

/-- The text behind the last line end. -/
def openLine (text : List Char) : List Char := (linesOf text).getLastD []

theorem dropReturn_cons_cons (c next : Char) (line : List Char) :
    dropReturn (c :: next :: line) = c :: dropReturn (next :: line) := by
  simp only [dropReturn, List.getLast?_cons_cons]
  split <;> rfl

/-- A text whose first part is empty and not its last one begins with the mark. -/
theorem exists_cons_of_splitAt_eq
    {mark : Char} {text last : List Char} {others : List (List Char)}
    (equal : Text.splitAt mark text = [] :: others ++ [last]) :
    ∃ behind, text = mark :: behind := by
  cases text with
  | nil => simp [Text.splitAt] at equal
  | cons c rest =>
    by_cases same : c = mark
    · exact ⟨rest, by rw [same]⟩
    · rw [Text.splitAt_cons_of_ne same] at equal
      cases parts : Text.splitAt mark rest with
      | nil => exact (Text.splitAt_ne_nil mark rest parts).elim
      | cons part others => simp [parts] at equal

/-- Cutting at line ends is cutting at line feeds and dropping returns. -/
theorem linesOf_eq (text : List Char) :
    linesOf text =
      (Text.splitAt '\n' text).dropLast.map dropReturn ++
        [Text.lastPart '\n' text] := by
  fun_induction linesOf text with
  | case1 => rfl
  | case2 rest ih =>
    have parts := Text.splitAt_eq_dropLast_append '\n' rest
    have whole :
        Text.splitAt '\n' ('\r' :: '\n' :: rest) =
          (['\r'] :: (Text.splitAt '\n' rest).dropLast) ++
            [Text.lastPart '\n' rest] := by
      rw [Text.splitAt_cons_of_ne (by decide), Text.splitAt_mark_cons,
        List.cons_append, ← parts]
      rfl
    rcases Text.lastPart_eq_of_splitAt_eq whole with ⟨frontEq, lastEq⟩
    rw [frontEq, lastEq, ih]
    rfl
  | case3 rest ih =>
    have parts := Text.splitAt_eq_dropLast_append '\n' rest
    have whole :
        Text.splitAt '\n' ('\n' :: rest) =
          ([] :: (Text.splitAt '\n' rest).dropLast) ++
            [Text.lastPart '\n' rest] := by
      rw [Text.splitAt_mark_cons, List.cons_append, ← parts]
    rcases Text.lastPart_eq_of_splitAt_eq whole with ⟨frontEq, lastEq⟩
    rw [frontEq, lastEq, ih]
    rfl
  | case4 c rest noReturn noFeed ih =>
    have other : c ≠ '\n' := fun same => noFeed same
    have parts := Text.splitAt_eq_dropLast_append '\n' rest
    have cut := Text.splitAt_cons_of_ne other rest
    cases front : (Text.splitAt '\n' rest).dropLast with
    | nil =>
      rw [front, List.nil_append] at parts
      have whole :
          Text.splitAt '\n' (c :: rest) =
            [] ++ [c :: Text.lastPart '\n' rest] := by
        rw [cut, parts]
        rfl
      rcases Text.lastPart_eq_of_splitAt_eq whole with ⟨frontEq, lastEq⟩
      rw [frontEq, lastEq, ih, front]
      rfl
    | cons part others =>
      rw [front] at parts
      have whole :
          Text.splitAt '\n' (c :: rest) =
            ((c :: part) :: others) ++ [Text.lastPart '\n' rest] := by
        rw [cut, parts]
        rfl
      rcases Text.lastPart_eq_of_splitAt_eq whole with ⟨frontEq, lastEq⟩
      have dropped : dropReturn (c :: part) = c :: dropReturn part := by
        cases part with
        | cons next line => exact dropReturn_cons_cons c next line
        | nil =>
          obtain ⟨behind, rfl⟩ : ∃ behind, rest = '\n' :: behind :=
            exists_cons_of_splitAt_eq parts
          have noMark : c ≠ '\r' := fun same => noReturn behind same rfl
          simp [dropReturn, noMark]
      rw [frontEq, lastEq, ih, front, List.map_cons, List.map_cons, dropped]
      rfl

theorem closedLines_eq (text : List Char) :
    closedLines text =
      (Text.splitAt '\n' text).dropLast.map dropReturn := by
  rw [closedLines, linesOf_eq, List.dropLast_concat]

theorem openLine_eq (text : List Char) :
    openLine text = Text.lastPart '\n' text := by
  rw [openLine, linesOf_eq, List.getLastD_concat]

theorem linesOf_eq_closed_append (text : List Char) :
    linesOf text = closedLines text ++ [openLine text] := by
  rw [closedLines_eq, openLine_eq, linesOf_eq]

theorem newline_notMem_openLine (text : List Char) :
    '\n' ∉ openLine text := by
  rw [openLine_eq]
  exact Text.not_mem_lastPart '\n' text

/-- Text that arrives later is cut together with the open line. -/
theorem linesOf_append (first second : List Char) :
    linesOf (first ++ second) =
      closedLines first ++ linesOf (openLine first ++ second) := by
  have parts := Text.splitAt_append '\n' first second
  have behind :=
    Text.splitAt_eq_dropLast_append '\n'
      (Text.lastPart '\n' first ++ second)
  have whole :
      Text.splitAt '\n' (first ++ second) =
        ((Text.splitAt '\n' first).dropLast ++
            (Text.splitAt '\n'
              (Text.lastPart '\n' first ++ second)).dropLast) ++
          [Text.lastPart '\n' (Text.lastPart '\n' first ++ second)] := by
    rw [parts, List.append_assoc, ← behind]
  rcases Text.lastPart_eq_of_splitAt_eq whole with ⟨frontEq, lastEq⟩
  rw [linesOf_eq (first ++ second), linesOf_eq (openLine first ++ second),
    frontEq, lastEq, closedLines_eq, openLine_eq, List.map_append,
    List.append_assoc]

theorem closedLines_append (first second : List Char) :
    closedLines (first ++ second) =
      closedLines first ++ closedLines (openLine first ++ second) := by
  rw [closedLines, linesOf_append, linesOf_eq_closed_append (openLine _ ++ _),
    ← List.append_assoc, List.dropLast_concat]

theorem openLine_append (first second : List Char) :
    openLine (first ++ second) = openLine (openLine first ++ second) := by
  rw [openLine, linesOf_append, linesOf_eq_closed_append (openLine _ ++ _),
    ← List.append_assoc, List.getLastD_concat]

/-- Every line feed closes one line. -/
theorem length_closedLines (text : List Char) :
    (closedLines text).length = text.count '\n' := by
  rw [closedLines_eq, List.length_map, List.length_dropLast,
    Text.length_splitAt, Nat.add_sub_cancel]

theorem visibleLines_append (front behind : List (List Char)) :
    visibleLines (front ++ behind) =
      visibleLines front ++ visibleLines behind := by
  rw [visibleLines, List.filter_append, List.map_append]
  rfl

/-! ## Lines of a buffer -/

/-- The buffer cuts text as `linesOf` does, from its open line on. -/
theorem splitLines_eq
    {pending : List Char} (absent : '\n' ∉ pending) (text : List Char) :
    splitLines pending text =
      (closedLines (pending.reverse ++ text),
        (openLine (pending.reverse ++ text)).reverse) := by
  have front : '\n' ∉ pending.reverse := by
    rwa [List.mem_reverse]
  have joined := Text.splitAt_append_of_not_mem front text
  rw [closedLines_eq, openLine_eq, splitLines]
  split
  · next first next parts cut =>
    have behind :
        next :: parts =
          (next :: parts).dropLast ++ [(next :: parts).getLastD []] := by
      rw [List.getLastD_eq_getLast?,
        List.getLast?_eq_some_getLast (List.cons_ne_nil next parts),
        Option.getD_some, List.dropLast_append_getLast]
    have whole :
        Text.splitAt '\n' (pending.reverse ++ text) =
          ((pending.reverse ++ first) :: (next :: parts).dropLast) ++
            [(next :: parts).getLastD []] := by
      rw [joined, cut, List.modifyHead_cons, List.cons_append, ← behind]
    rcases Text.lastPart_eq_of_splitAt_eq whole with ⟨frontEq, lastEq⟩
    rw [frontEq, lastEq, List.getLastD_eq_getLast?]
  · next parts other =>
    cases cut : Text.splitAt '\n' text with
    | nil => exact (Text.splitAt_ne_nil '\n' text cut).elim
    | cons only others =>
      cases others with
      | cons next others => exact (other only next others cut).elim
      | nil =>
        have whole :
            Text.splitAt '\n' (pending.reverse ++ text) =
              [] ++ [pending.reverse ++ only] := by
          rw [joined, cut]
          rfl
        rcases Text.lastPart_eq_of_splitAt_eq whole with ⟨frontEq, lastEq⟩
        rw [frontEq, lastEq]
        simp

/--
The front of what can be decoded can be decoded, and it divides the lines that
are closed behind a text.
-/
theorem exists_decoded_front
    {encoding : Text.Encoding} {front behind : List UInt8}
    {decoded : Text.Decoded} {text : List Char} {closed : List (List Char)}
    (success :
      (encoding.decode (front ++ behind)).toOption = some decoded)
    (closes : closedLines decoded.characters = closedLines text ++ closed) :
    ∃ middle rest,
      (encoding.decode front).toOption = some middle ∧
        closedLines decoded.characters =
          closedLines middle.characters ++ rest ∧
        ∀ first,
          closedLines middle.characters = closedLines text ++ first →
            closed = first ++ rest := by
  rw [Text.Encoding.decode_append, Option.bind_eq_some_iff] at success
  rcases success with ⟨middle, frontSuccess, later⟩
  rcases Option.map_eq_some_iff.1 later with ⟨below, -, rfl⟩
  have divided := closedLines_append middle.characters below.characters
  refine ⟨middle, _, frontSuccess, divided, fun first firstCloses => ?_⟩
  rw [Text.Decoded.after, divided, firstCloses, List.append_assoc] at closes
  exact (List.append_cancel_left closes).symm

namespace LineBuffer

/-- A buffer that has taken bytes which decode to a text so far. -/
structure Holds (buffer : LineBuffer) (bytes : List UInt8)
    (text : List Char) : Prop where
  decoded :
    (buffer.encoding.decode bytes).toOption =
      some ⟨text, buffer.unfinished⟩
  rest : buffer.rest = openLine text

/-- The empty buffer has taken nothing. -/
theorem start_holds (encoding : Text.Encoding) :
    (start encoding).Holds [] [] :=
  { decoded := by rw [start, Text.Encoding.decode_nil]; rfl
    rest := rfl }

variable {buffer after : LineBuffer} {bytes more : List UInt8}
  {text : List Char} {decoded : Text.Decoded} {lines : List String}

theorem Holds.decode_more
    (holds : buffer.Holds bytes text) (more : List UInt8) :
    (buffer.encoding.decode (bytes ++ more)).toOption =
      (buffer.encoding.decode (buffer.unfinished ++ more)).toOption.map
        (Text.Decoded.after text) := by
  rw [Text.Encoding.decode_append, holds.decoded]
  rfl

/--
Bytes that can be decoded behind those before are taken, and the lines that
they close are given back.
-/
theorem Holds.feed
    (holds : buffer.Holds bytes text)
    (success :
      (buffer.encoding.decode (bytes ++ more)).toOption = some decoded) :
    ∃ after closed,
      buffer.feed more = .ok (after, visibleLines closed) ∧
        closedLines decoded.characters = closedLines text ++ closed ∧
        after.encoding = buffer.encoding ∧
        after.Holds (bytes ++ more) decoded.characters := by
  rw [holds.decode_more, Option.map_eq_some_iff] at success
  rcases success with ⟨arrived, success, rfl⟩
  have absent : '\n' ∉ buffer.pending := by
    have openAbsent := newline_notMem_openLine text
    rwa [← holds.rest, LineBuffer.rest, List.mem_reverse] at openAbsent
  have cut := splitLines_eq absent arrived.characters
  rw [← LineBuffer.rest, holds.rest] at cut
  cases outcome : buffer.encoding.decode (buffer.unfinished ++ more) with
  | error fault => simp [outcome, Except.toOption] at success
  | ok found =>
    simp only [outcome, Except.toOption, Option.some.injEq] at success
    subst success
    refine ⟨⟨buffer.encoding, found.unfinished,
      (openLine (openLine text ++ found.characters)).reverse⟩,
      closedLines (openLine text ++ found.characters), ?_, ?_, rfl, ?_, ?_⟩
    · rw [LineBuffer.feed, outcome]
      simp only [bind, Except.bind, cut]
      rfl
    · exact closedLines_append text found.characters
    · dsimp only
      rw [holds.decode_more, outcome]
      rfl
    · rw [LineBuffer.rest, List.reverse_reverse]
      exact (openLine_append text found.characters).symm

/-- A buffer takes only bytes that can be decoded behind those before. -/
theorem Holds.decode_of_feed
    (holds : buffer.Holds bytes text)
    (success : buffer.feed more = .ok (after, lines)) :
    ∃ decoded,
      (buffer.encoding.decode (bytes ++ more)).toOption = some decoded := by
  rcases exists_of_bind_eq_ok success with ⟨arrived, decodes, -⟩
  refine ⟨arrived.after text, ?_⟩
  rw [holds.decode_more, decodes]
  rfl

/-- Without unfinished bytes the open line is given back at the end. -/
theorem Holds.finish
    (holds : buffer.Holds bytes text) (complete : buffer.unfinished = []) :
    buffer.finish =
      .ok (start buffer.encoding, visibleLines [openLine text]) := by
  rw [LineBuffer.finish, complete, Text.Encoding.decodeAll,
    Text.Encoding.decode_nil, ← holds.rest]
  simp [bind, Except.bind, Text.endFault?, pure, Except.pure]

/-- The end is refused while bytes are unfinished. -/
theorem Holds.complete_of_finish
    (holds : buffer.Holds bytes text)
    (success : buffer.finish = .ok (after, lines)) :
    buffer.unfinished = [] := by
  rcases exists_of_bind_eq_ok success with ⟨characters, decodes, -⟩
  have whole :=
    Text.Encoding.decodeAll_eq buffer.encoding buffer.unfinished
  rw [Text.Encoding.decode_unfinished holds.decoded, decodes] at whole
  by_contra unfinished
  simp [unfinished, Except.toOption] at whole

end LineBuffer

end ApiAtlas.Stream
