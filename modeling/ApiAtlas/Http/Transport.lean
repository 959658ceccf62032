import ApiAtlas.Http.Message
import ApiAtlas.Request.Options
import ApiAtlas.Stream.Fetch
import ApiAtlas.Text.Percent

/-!
# Sending requests

A transport turns the options of a request into a message, sends it and makes
a result of the reply.  The values of the path stand in the address in place
of their names between braces, percent-encoded as a whole, so that no value
can reach beyond its place.

A reply of failure is read as far as it holds anything, and released.  Options
decide whether it is then a refusal or a fault.
-/

namespace ApiAtlas.Http

/-- The other end of the requests of an endpoint. -/
structure Transport where
  /-- The address that paths are put behind. -/
  base : String
  /-- The token that requests carry; none if it is empty. -/
  token : String
deriving DecidableEq, Repr

namespace Transport

/-- A transport to a base address, which loses the slashes at its end. -/
def toBase (base token : String) : Transport :=
  ⟨String.ofList (Text.dropTrailing (· = '/') base.toList), token⟩

/-- The transport of settings. -/
def ofSettings (settings : Settings) : Transport :=
  toBase settings.baseAddress settings.token

end Transport

/-- The place of a name in a path. -/
def placeOf (name : Scalar) : String :=
  "\x7b" ++ (Datum.scalar name).plain ++ "\x7d"

/-- A path with each name replaced by its value, one after the other. -/
def fillPath (path : String) (values : Entries) : String :=
  values.foldl
    (fun path entry =>
      Text.replaceAll (placeOf entry.1)
        (Text.percentEncode entry.2.plain) path)
    path

/-- Options as they are understood when a request is sent. -/
structure Understood where
  values : Entries
  query : Datum
  body : Datum
  streamed : Bool
  throwing : Bool
deriving DecidableEq, Repr

/-- Understands options; unless they say otherwise, faults are thrown. -/
def understand (options : Datum) : Except Fault Understood := do
  let member (name : String) : Except Fault Datum :=
    return (← options.member? name).getD .null
  let values ← (← member Location.path.name).orEmptyMap.entries
  let throwing ← options.member? Request.throwingName
  return {
    values
    query := ← member Location.query.name
    body := ← member Request.bodyName
    streamed := (← member Request.streamingName).isTruthy
    throwing := (throwing.getD (.bool true)).isTruthy }

/-- The request of an endpoint. -/
def Transport.request (transport : Transport) (endpoint : Endpoint)
    (options : Understood) : Request :=
  { method := endpoint.method
    address := transport.base ++ fillPath endpoint.path options.values
    query := options.query
    body := options.body
    streamed := options.streamed
    token := transport.token }

/-- What has come of a request. -/
structure Sent where
  /-- Whether the response has been released. -/
  released : Bool
  outcome : Except Fault Stream.Result

/-- What a failed response is refused with: its value, text or status. -/
def refusal (status : Nat) (content : List UInt8) : Datum :=
  match Response.valueOf content with
  | .ok value => value
  | .error _ =>
    let text := Response.textOf content
    if text = "" then .str ("HTTP " ++ toString status) else .str text

/-- Receives a response of failure. -/
def receiveFailure (throwing : Bool) (address : String)
    (response : Response) : Sent :=
  match response.content with
  | .error fault => ⟨false, .error fault⟩
  | .ok content =>
    if throwing then ⟨true, .error (response.fault address)⟩
    else
      ⟨true, .ok ⟨.value .null, .held,
        .value (refusal response.status content)⟩⟩

/-- The value of a whole body, null for an empty one. -/
def wholeValue (content : List UInt8) : Except Fault Datum :=
  if content.isEmpty then .ok .null else Response.valueOf content

/-- Receives the body of a response as a whole. -/
def receiveWhole (throwing : Bool) (response : Response) :
    Except Fault Stream.Result := do
  let content ← response.content
  match wholeValue content with
  | .ok value => return ⟨.value value, .held, .value .null⟩
  | .error fault =>
    if throwing then throw fault
    else return ⟨.value .null, .held, .fault fault⟩

/-- Whether a fault of an exchange is a failure to reach the other end. -/
def isRequestFailure : Fault → Bool
  | .exchange .unreachable _ | .exchange .timeout _
  | .exchange .badAnswer _ => true
  | _ => false

/-- The number of bytes in a chunk of a stream. -/
def chunkSize : Nat := Settings.standard.chunkSize.toNat

/-- Receives the reply to a request. -/
def receive (options : Understood) (address : String) : Reply → Sent
  | .error fault =>
    if isRequestFailure fault && !options.throwing then
      ⟨false, .ok ⟨.value .null, .value .null, .fault fault⟩⟩
    else ⟨false, .error fault⟩
  | .ok response =>
    if !response.isFine then
      receiveFailure options.throwing address response
    else if options.streamed then
      ⟨false, .ok
        ⟨.stream (response.stream chunkSize) false, .held, .value .null⟩⟩
    else ⟨false, receiveWhole options.throwing response⟩

/-- The events of an exchange and what has come of it. -/
structure Exchanged where
  events : List Event
  outcome : Except Fault Stream.Result

/-- Sends the request of an endpoint with options. -/
def Transport.send (transport : Transport) (endpoint : Endpoint)
    (options : Datum) (reply : Reply) : Exchanged :=
  match understand options with
  | .error fault => ⟨[], .error fault⟩
  | .ok options =>
    let request := transport.request endpoint options
    let sent := receive options request.address reply
    ⟨.sent request :: (if sent.released then [.released] else []),
      sent.outcome⟩

end ApiAtlas.Http
