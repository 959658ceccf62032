import ApiAtlas.Document.Files
import ApiAtlas.Endpoint.Catalog
import ApiAtlas.Http.Message
import ApiAtlas.Yaml.Value

/-!
# Loading descriptions

A description is a map that names the version of its format.  It is read from
a file, in YAML or in JSON where the text is no YAML, or asked for at an
address, in JSON.
-/

namespace ApiAtlas.Document

/-- Whether a value is a description. -/
def isDescription (value : Datum) : Bool :=
  match value with
  | .map entries =>
    Entries.has (.str "openapi") entries ||
      Entries.has (.str "swagger") entries
  | _ => false

/-- The definitions of a description. -/
def definitions (description : Datum) : Except Fault Datum := do
  let components := (← description.member? "components").getD .null
  let schemas := (← components.orEmptyMap.member? "schemas").getD .null
  return schemas.orEmptyMap

/-- The paths of a description. -/
def paths (description : Datum) : Except Fault Datum :=
  return (← description.member? "paths").getD (.map [])

/-- The catalog of a description, or what keeps it from having one. -/
def catalog (description : Datum) : Catalog.Built :=
  match paths description, definitions description with
  | .ok paths, .ok definitions => Catalog.build paths definitions
  | .error fault, _ => ⟨[], .error fault⟩
  | _, .error fault => ⟨[], .error fault⟩

/-- The value of a text in YAML, or in JSON where it is no YAML. -/
def readValue (text : String) : Except Fault Datum :=
  match Yaml.read text with
  | .ok value => .ok value
  | .error .malformed => (Json.read text).mapError Fault.json
  | .error (.fault fault) => .error fault

/-- A value, which has to be a description. -/
def requireDescription (fault : Fault) (value : Datum) :
    Except Fault Datum :=
  if isDescription value then .ok value else .error fault

/-- The description in the file of a path. -/
def loadFile (files : Files) (path : String) : Except Fault Datum := do
  let path := normalPath path
  let value ← readValue (← readText files path)
  requireDescription (.notDescription path) value

/-- The description in the reply to a request for an address. -/
def received (address : String) (reply : Http.Reply) :
    Except Fault Datum := do
  let response ← reply
  if !response.isFine then throw (response.fault address)
  let value ← Http.Response.valueOf (← response.content)
  requireDescription (.noDescriptionAt address) value

/-- What has come of loading, and the exchanges that it took. -/
structure Loaded where
  events : List Http.Event
  outcome : Except Fault Datum

/-- Asks for the description at an address. -/
def fetch (reply : Http.Reply) (address : String) : Loaded :=
  ⟨[.asked address], received address reply⟩

/-- Asks for the description at the address of the settings. -/
def fetchStandard (reply : Http.Reply) : Loaded :=
  fetch reply Settings.standard.descriptionAddress

/-- Whether a source is an address, and not a path. -/
def isAddress (source : String) : Bool :=
  "http://".toList.isPrefixOf source.toList ||
    "https://".toList.isPrefixOf source.toList

/-- Loads a description from a path or an address. -/
def load (files : Files) (reply : Http.Reply) (source : String) : Loaded :=
  if isAddress source then fetch reply source
  else ⟨[], loadFile files source⟩

end ApiAtlas.Document
