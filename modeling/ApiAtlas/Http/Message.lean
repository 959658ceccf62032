import ApiAtlas.Json.Reader
import ApiAtlas.Settings
import ApiAtlas.Stream.Walk

/-!
# Messages of an exchange

What is sent to the other end of a connection and what comes back.  The body
of a reply arrives in pieces, each of which may fail to arrive.
-/

namespace ApiAtlas.Http

/-- A request that is sent. -/
structure Request where
  method : String
  address : String
  query : Datum
  /-- The body; null if there is none. -/
  body : Datum
  /-- Whether the body of the reply is left to be read piece by piece. -/
  streamed : Bool
  /-- The token that is carried; none if it is empty. -/
  token : String
deriving DecidableEq, Repr

/-- Something that is observed of an exchange. -/
inductive Event where
  /-- A description is asked for. -/
  | asked (address : String)
  | sent (request : Request)
  /-- The response is released. -/
  | released
deriving DecidableEq, Repr

/-- A response of the other end. -/
structure Response where
  status : Nat
  reason : String
  body : List Stream.Chunk
deriving DecidableEq, Repr

/-- What comes back: a response, or a fault of the exchange. -/
abbrev Reply := Except Fault Response

namespace Response

/-- Whether a response is no failure of the client or the server. -/
def isFine (response : Response) : Bool :=
  response.status < 400 || 600 ≤ response.status

/-- The fault that a failed response stands for. -/
def fault (address : String) (response : Response) : Fault :=
  .badStatus response.status response.reason address

/-- The bytes of pieces, up to the first that fails to arrive. -/
def joinPieces : List Stream.Chunk → Except Fault (List UInt8)
  | [] => .ok []
  | .bytes content :: rest => (joinPieces rest).map (content ++ ·)
  | .failure message :: _ => .error (.exchange .brokenConnection message)
  | .foreign :: _ => misused .unsupported

/-- The body of a response as a whole. -/
def content (response : Response) : Except Fault (List UInt8) :=
  joinPieces response.body

/-- A text of bytes, with a mark in place of each error. -/
def textOf (content : List UInt8) : String :=
  String.ofList (Text.decodeLenient content)

/-- The value that a body holds. -/
def valueOf (content : List UInt8) : Except Fault Datum :=
  (Json.read (textOf content)).mapError Fault.json

/-! ## Bodies read in chunks -/

/-- A run of bytes cut into chunks of at most `size` bytes. -/
def cut (size : Nat) (content : List UInt8) : List (List UInt8) :=
  if size = 0 then []
  else if content.isEmpty then []
  else content.take size :: cut size (content.drop size)
termination_by content.length
decreasing_by
  simp only [List.length_drop]
  have : content.length ≠ 0 := by
    intro zero
    simp_all [List.length_eq_zero_iff]
  omega

/-- The chunks of a piece. -/
def cutPiece (size : Nat) : Stream.Chunk → List Stream.Chunk
  | .bytes content => (cut size content).map .bytes
  | other => [other]

/-- The body of a response as a stream of chunks. -/
def stream (size : Nat) (response : Response) : Stream.Source :=
  ⟨.response, response.body.flatMap (cutPiece size)⟩

end Response

end ApiAtlas.Http
