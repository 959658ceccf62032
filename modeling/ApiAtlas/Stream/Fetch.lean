import ApiAtlas.Endpoint.Model
import ApiAtlas.Stream.Consume

/-!
# Fetching the rows of an endpoint

A call of an endpoint either fails or gives a result: data, the response that
the data comes from, and an answer that refuses the call.  The rows of a
streaming endpoint are the records of its stream; those of any other endpoint
are the items of its list, or its single value.
-/

namespace ApiAtlas.Stream

/-- The data of a result. -/
inductive Payload where
  | value (value : Datum)
  | stream (source : Source) (locked : Bool)
deriving DecidableEq, Repr

/-- What a call is refused with: a value, or a fault. -/
inductive Refusal where
  | value (value : Datum)
  | fault (fault : Fault)
deriving DecidableEq, Repr

/-- The response that data comes from. -/
inductive Response where
  | value (value : Datum)
  /-- A response that has to be released. -/
  | held
deriving DecidableEq, Repr

/-- The result of a call. -/
structure Result where
  data : Payload
  response : Response
  refusal : Refusal
deriving DecidableEq, Repr

namespace Refusal

/-- Whether a call is refused at all. -/
def isTruthy : Refusal → Bool
  | .value datum => datum.isTruthy
  | .fault _ => true

/-- The wording of a refusal. -/
def text : Refusal → String
  | .value datum => datum.plain
  | .fault cause => cause.message

end Refusal

namespace Result

/-- A result without any part. -/
def empty : Result := ⟨.value .null, .value .null, .value .null⟩

/-- Reads the members of a result. -/
def readMembers (entries : Entries) : Checked Result :=
  let part (name : String) :=
    Checked.optional name Datum.null Checked.readAny entries
  (Checked.both (part "data")
    (Checked.both (part "response") (part "error"))).map fun parts =>
      ⟨.value parts.1, .value parts.2.1, .value parts.2.2⟩

/-- Reads a result. -/
def read (value : Datum) : Checked Result :=
  Checked.readModel readMembers value

/-- What is observed as the response is released. -/
def releasing (result : Result) : List Event :=
  match result.response with
  | .held => [.released]
  | .value _ => []

end Result

/-- The stream of a payload, if it can be read. -/
def Payload.source? : Payload → Option Source
  | .value .null => none
  | .value datum => some (.ofDatum datum)
  | .stream source locked => if locked then none else some source

/-- The bytes of a piece that holds some. -/
def Chunk.content? : Chunk → Option Datum
  | .bytes content => some (.bytes content)
  | _ => none

/-- The rows of a payload that is no stream of records. -/
def Payload.rows : Payload → List Datum
  | .value (.list items) => items
  | .value datum => [datum]
  | .stream source _ =>
    if source.kind = .plain then source.chunks.filterMap Chunk.content?
    else [.null]

/-- Delivers rows one by one, up to the first fault. -/
def deliverRows (caller : Caller) (seen : Seen) : List Datum → Passage
  | [] => .quiet caller.finish
  | row :: rest =>
    let passage := caller.deliver seen row
    match passage.fault with
    | some _ => passage
    | none =>
      (deliverRows caller (seen.afterAll passage.events) rest).after
        passage.events

/-- Delivers the rows of a result that is not refused. -/
def deliverResult (caller : Caller) (streaming : Bool) (result : Result) :
    Passage :=
  if streaming then
    let passage :=
      match result.data.source? with
      | some source => consume caller source
      | none => caller.report .none .streamUnavailable
    passage.before result.releasing
  else deliverRows caller .none result.data.rows

/-- Delivers the rows of a call of an endpoint, whatever has come of it. -/
def deliverOutcome (caller : Caller) (endpoint : Endpoint) :
    Except Fault Result → Passage
  | .error fault =>
    caller.report .none (.callFailed endpoint.operationId fault)
  | .ok result =>
    if result.refusal.isTruthy then
      caller.report .none
        (.callRefused endpoint.operationId result.refusal.text)
    else deliverResult caller endpoint.streaming result

/-- Calls an endpoint with options and delivers its rows. -/
def fetch (caller : Caller) (endpoint : Endpoint) (options : Datum)
    (call : Datum → Except Fault Result) : Passage :=
  (deliverOutcome caller endpoint (call options)).after [.called options]

end ApiAtlas.Stream
