import ApiAtlas.Stream.LineBuffer

/-!
# Calls on a line buffer

A line buffer is an object that two calls change: one feeds it bytes, the other
ends the input.  Each call decodes first, which changes the unfinished bytes,
and works on the pending text then.  It returns the lines that it completes,
or fails; a failure keeps what the call has changed until then.
-/

namespace ApiAtlas.Stream.LineBuffer

/-- Steps on a line buffer that may fail, without undoing the steps before. -/
abbrev OnBuffer := ExceptT Text.DecodeFault (StateM LineBuffer)

/-- The outcome of steps on a buffer, and the buffer after them. -/
def OnBuffer.on {α : Type} (steps : OnBuffer α) (buffer : LineBuffer) :
    Except Text.DecodeFault α × LineBuffer :=
  (steps.run.run buffer).run

/-- Takes over what is decoded: keeps the unfinished bytes, gives the text. -/
def takeOver (outcome : Except Text.DecodeFault Text.Decoded) :
    OnBuffer (List Char) := do
  let decoded ← MonadExcept.ofExcept outcome
  modify fun buffer => { buffer with unfinished := decoded.unfinished }
  return decoded.characters

/-- Decodes bytes behind the unfinished ones. -/
def decodeMore (bytes : List UInt8) : OnBuffer (List Char) := do
  let buffer ← get
  takeOver (buffer.encoding.decode (buffer.unfinished ++ bytes))

/-- Decodes the unfinished bytes, after which nothing more comes. -/
def decodeLast : OnBuffer (List Char) := do
  let buffer ← get
  takeOver ((buffer.encoding.decodeAll buffer.unfinished).map (⟨·, []⟩))

/-- Puts text behind the pending one and takes out the complete lines. -/
def takeLines (arrived : List Char) : OnBuffer (List (List Char)) := do
  let buffer ← get
  let (lines, pending) := splitLines buffer.pending arrived
  set { buffer with pending }
  return lines

/-- A call on a line buffer. -/
inductive Call where
  | feed (bytes : List UInt8)
  | finish
deriving DecidableEq, Repr

namespace Call

/-- The steps of a call. -/
def steps : Call → OnBuffer (List String)
  | feed bytes => do
    let lines ← takeLines (← decodeMore bytes)
    return visibleLines lines
  | finish => do
    let lines ← takeLines (← decodeLast)
    let buffer ← get
    set { buffer with pending := [] }
    return visibleLines (lines ++ [buffer.rest])

/-- The outcome of a call on a buffer, and the buffer after it. -/
def perform (call : Call) (buffer : LineBuffer) :
    Except Text.DecodeFault (List String) × LineBuffer :=
  OnBuffer.on call.steps buffer

end Call

/-- The buffer after some calls, one after the other. -/
def after (buffer : LineBuffer) (calls : List Call) : LineBuffer :=
  calls.foldl (fun buffer call => (call.perform buffer).2) buffer

/-- The outcomes of some calls, one after the other. -/
def outcomes (buffer : LineBuffer) :
    List Call → List (Except Text.DecodeFault (List String))
  | [] => []
  | call :: rest =>
    (call.perform buffer).1 :: outcomes (call.perform buffer).2 rest

end ApiAtlas.Stream.LineBuffer
