import ApiAtlas.Data.Access
import ApiAtlas.Stream.Event
import ApiAtlas.Stream.LineBuffer

/-!
# Walks over streams

A walk reads a stream piece by piece and hands out its lines as soon as they
are complete.  Cancellation is looked for before each read only, and a walk
that is cancelled leaves the text without a line end where it is.  A stream
that ends on its own gives up that text as its last line.
-/

namespace ApiAtlas.Stream

/-- What a read of a stream gives. -/
inductive Chunk where
  | bytes (content : List UInt8)
  /-- The read fails. -/
  | failure (message : String)
  /-- Something that is no run of bytes. -/
  | foreign
deriving DecidableEq, Repr

/-- The kinds of streams. -/
inductive StreamKind where
  | asynchronous
  | synchronous
  /-- A list of pieces, without reads and without anything to close. -/
  | plain
  /-- The body of a response, which is released on closing. -/
  | response
deriving DecidableEq, Repr

/-- A stream of bytes. -/
structure Source where
  kind : StreamKind
  chunks : List Chunk
deriving DecidableEq, Repr

namespace Source

/-- What is observed as a read begins. -/
def reading (source : Source) : List Event :=
  if source.kind = .plain then [] else [.read]

/-- What is observed as the stream is closed. -/
def closing (source : Source) : List Event :=
  match source.kind with
  | .asynchronous | .synchronous => [.closed]
  | .plain => []
  | .response => [.released]

/-- The word for the kind of a value that cannot be gone through. -/
def scalarKind : Datum → String
  | .int _ => "int"
  | .float _ => "float"
  | .bool _ => "bool"
  | .null => "NoneType"
  | _ => "object"

/-- The stream that a value is when it stands where a stream belongs. -/
def ofDatum (value : Datum) : Source :=
  match value.parts with
  | .ok parts => ⟨.plain, parts.map fun _ => .foreign⟩
  | .error _ =>
    ⟨.plain,
      [.failure ("'" ++ scalarKind value ++ "' object is not iterable")]⟩

end Source

/-- How a walk ends. -/
inductive Ending where
  /-- The stream has come to its end. -/
  | ended
  | cancelled
  /-- A read has failed. -/
  | broken (message : String)
  /-- A fault has come out of the bytes or out of what takes the lines. -/
  | failed (fault : Fault)
deriving DecidableEq, Repr

/-- The events of a walk and its end. -/
structure Walked where
  events : List Event
  ending : Ending
deriving DecidableEq, Repr

/-- A walk after some events. -/
def Walked.after (events : List Event) (walked : Walked) : Walked :=
  { walked with events := events ++ walked.events }

/-- What takes the lines of a walk, by what has been seen before. -/
abbrev LineTaker := Seen → String → Passage

/-- Hands out lines one by one, up to the first fault. -/
def handOut (taker : LineTaker) (seen : Seen) : List String → Passage
  | [] => .quiet []
  | line :: rest =>
    let passage := taker seen line
    match passage.fault with
    | some _ => passage
    | none =>
      (handOut taker (seen.afterAll passage.events) rest).after
        passage.events

/-- The end of a walk: what is left is handed out. -/
def walkEnd (taker : LineTaker) (seen : Seen) (buffer : LineBuffer) :
    Walked :=
  match buffer.finish with
  | .error fault => ⟨[], .failed (.encoding fault)⟩
  | .ok (_, lines) =>
    let passage := handOut taker seen lines
    match passage.fault with
    | some fault => ⟨passage.events, .failed fault⟩
    | none => ⟨passage.events, .ended⟩

/-- The walk of a caller over chunks that are read in the order given. -/
def walkFrom (caller : Caller) (taker : LineTaker) (reading : List Event) :
    Seen → LineBuffer → List Chunk → Walked
  | seen, buffer, [] =>
    if caller.hasCancelled seen then ⟨[.cancelled], .cancelled⟩
    else (walkEnd taker (seen.afterAll reading) buffer).after reading
  | seen, buffer, chunk :: rest =>
    if caller.hasCancelled seen then ⟨[.cancelled], .cancelled⟩
    else
      match chunk with
      | .failure message => ⟨reading, .broken message⟩
      | .foreign => ⟨reading, .failed (.misuse .unsupported)⟩
      | .bytes content =>
        match buffer.feed content with
        | .error fault => ⟨reading, .failed (.encoding fault)⟩
        | .ok (buffer, lines) =>
          let seen := seen.afterAll reading
          let passage := handOut taker seen lines
          let events := reading ++ passage.events
          match passage.fault with
          | some fault => ⟨events, .failed fault⟩
          | none =>
            (walkFrom caller taker reading (seen.afterAll passage.events)
              buffer rest).after events

/-- The walk of a caller over a stream. -/
def walk (caller : Caller) (taker : LineTaker) (source : Source) : Walked :=
  walkFrom caller taker source.reading .none (.start .utf8) source.chunks

end ApiAtlas.Stream
