import ApiAtlas.Text.Blank
import ApiAtlas.Text.Encoding
import ApiAtlas.Text.Parts

/-!
# Line buffers

A line buffer takes bytes as they arrive and gives back the lines that they
complete.  A character may be spread over several pieces: its first bytes are
kept until the rest arrives, and the text after the last line end is kept
until its own line end arrives.  A line ends in a line feed, before which one
carriage return is dropped; blank lines are not given back.

Feeding bytes that cannot be decoded gives a fault and no new buffer, so the
caller's buffer is what it was.
-/

namespace ApiAtlas.Stream

/-- A line without the carriage return at its end. -/
def dropReturn (line : List Char) : List Char :=
  if line.getLast? = some '\r' then line.dropLast else line

/--
The complete lines of a text after a part of its first line, and what follows
the last line end.  That part is given from its end, and so is what follows.
-/
def splitLines (pending text : List Char) : List (List Char) × List Char :=
  match Text.splitAt '\n' text with
  | first :: next :: parts =>
    let lines := (pending.reverse ++ first) :: (next :: parts).dropLast
    (lines.map dropReturn, ((next :: parts).getLast?.getD []).reverse)
  | parts => ([], parts.flatten.reverse ++ pending)

/-- The lines that are not blank, as texts. -/
def visibleLines (lines : List (List Char)) : List String :=
  (lines.filter fun line => !line.all Text.isBlank).map String.ofList

/-- A buffer of bytes and text that make no complete line yet. -/
structure LineBuffer where
  encoding : Text.Encoding
  /-- The bytes of a character that is not complete. -/
  unfinished : List UInt8
  /-- The text after the last line end, its last character first. -/
  pending : List Char
deriving DecidableEq, Repr

namespace LineBuffer

/-- The buffer that holds nothing. -/
def start (encoding : Text.Encoding) : LineBuffer := ⟨encoding, [], []⟩

/-- The text after the last line end. -/
def rest (buffer : LineBuffer) : List Char := buffer.pending.reverse

/-- Takes bytes and gives back the lines that they complete. -/
def feed (bytes : List UInt8) (buffer : LineBuffer) :
    Except Text.DecodeFault (LineBuffer × List String) := do
  let decoded ← buffer.encoding.decode (buffer.unfinished ++ bytes)
  let (lines, pending) := splitLines buffer.pending decoded.characters
  return (⟨buffer.encoding, decoded.unfinished, pending⟩, visibleLines lines)

/-- Ends the input and gives back the text that is left as a line. -/
def finish (buffer : LineBuffer) :
    Except Text.DecodeFault (LineBuffer × List String) := do
  let rest ← buffer.encoding.decodeAll buffer.unfinished
  return (start buffer.encoding, visibleLines [buffer.rest ++ rest])

end LineBuffer

end ApiAtlas.Stream
