import ApiAtlas.Json.Reader
import ApiAtlas.Stream.Walk

/-!
# Consuming streams of records

A stream of records has one value on each line.  `consume` delivers the values
to a caller, reports the lines that hold none and the failure of a read, and
says when the stream has ended on its own.  The stream is closed before the
end or the failure of a read is reported.

`collect` hands out the lines themselves.
-/

namespace ApiAtlas.Stream

/-- Delivers the record of a line, or reports that it holds none. -/
def takeRecord (caller : Caller) : LineTaker := fun seen line =>
  match Json.read line with
  | .ok value => caller.deliver seen value
  | .error (.malformed problem position) =>
    let cause := Json.Fault.malformed problem position
    if caller.takesErrors then
      caller.report seen (.undecodableLine line cause)
    else .quiet [.skipped cause]
  | .error cause => ⟨[], some (.json cause)⟩

/-- What a caller learns of the end of a stream; nothing after cancelling. -/
def completion (caller : Caller) (seen : Seen) : List Event :=
  if caller.hasCancelled seen then [] else caller.finish

/-- What follows the walk over a stream of records. -/
def conclude (caller : Caller) (source : Source) (seen : Seen) :
    Ending → Passage
  | .ended | .cancelled =>
    .quiet (source.closing ++ completion caller seen)
  | .broken message =>
    (caller.report seen (.readFailed message)).after source.closing
  | .failed fault =>
    if fault.isTransport then
      (caller.report seen fault).before source.closing
    else ⟨source.closing, some fault⟩

/-- Delivers the records of a stream to a caller. -/
def consume (caller : Caller) (source : Source) : Passage :=
  let walked := walk caller (takeRecord caller) source
  let seen := Seen.none.afterAll walked.events
  (conclude caller source seen walked.ending).after walked.events

/-- Hands out a line as it is. -/
def takeLine : LineTaker := fun _ line => .quiet [.line line]

/-- Hands out the lines of a stream. -/
def collect (caller : Caller) (source : Source) : Passage :=
  let walked := walk caller takeLine source
  let fault :=
    match walked.ending with
    | .ended | .cancelled => none
    | .broken message => some (.readFailed message)
    | .failed fault => some fault
  ⟨walked.events ++ source.closing, fault⟩

/-- The lines that have been handed out. -/
def handedOut (events : List Event) : List String :=
  events.filterMap fun
    | .line text => some text
    | _ => none

end ApiAtlas.Stream
