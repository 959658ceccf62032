import ApiAtlas.Fault
import ApiAtlas.Text.Numeral

/-!
# Settings

What a user may set through the environment.  A variable that is not set
leaves its setting as it is by default.
-/

namespace ApiAtlas

/-- The settings of a session. -/
structure Settings where
  /-- Where the description is found. -/
  descriptionAddress : String
  baseAddress : String
  /-- The token that requests carry; none if it is empty. -/
  token : String
  depthLimit : Int
  chunkSize : Int
  /-- The seconds that a request may take. -/
  timeout : Binary64
deriving DecidableEq, Repr

namespace Settings

/-- The settings of an empty environment. -/
def standard : Settings :=
  { descriptionAddress := "http://127.0.0.1:8000/apidoc/openapi.json"
    baseAddress := "http://127.0.0.1:8000"
    token := ""
    depthLimit := 64
    chunkSize := 8192
    timeout := Binary64.ofInt 30 }

/-- The variables that settings are read from. -/
def variableNames : List String :=
  ["API_OPENAPI_URL", "API_BASE_URL", "API_TOKEN", "API_SCHEMA_MAX_DEPTH",
    "API_STREAM_CHUNK_SIZE", "API_REQUEST_TIMEOUT"]

/-- A setting that is read from a variable if it is set. -/
def readVariable {α : Type} (name : String) (fallback : α)
    (read : String → Except Text.NumeralFault α)
    (environment : String → Option String) : Except Fault α :=
  match environment name with
  | some text => (read text).mapError Fault.numeral
  | none => .ok fallback

/-- The settings of an environment; the first unreadable variable is a fault. -/
def read (environment : String → Option String) : Except Fault Settings := do
  let text (name fallback : String) := (environment name).getD fallback
  let depthLimit ←
    readVariable "API_SCHEMA_MAX_DEPTH" standard.depthLimit Text.readWhole
      environment
  let chunkSize ←
    readVariable "API_STREAM_CHUNK_SIZE" standard.chunkSize Text.readWhole
      environment
  let timeout ←
    readVariable "API_REQUEST_TIMEOUT" standard.timeout Text.readNumber
      environment
  return {
    descriptionAddress :=
      text "API_OPENAPI_URL" standard.descriptionAddress
    baseAddress := text "API_BASE_URL" standard.baseAddress
    token := text "API_TOKEN" standard.token
    depthLimit, chunkSize, timeout }

end Settings

end ApiAtlas
