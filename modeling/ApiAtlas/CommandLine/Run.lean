import ApiAtlas.CommandLine.Input
import ApiAtlas.CommandLine.Report
import ApiAtlas.Document.Load
import ApiAtlas.Http.Transport
import ApiAtlas.Json.Writer
import ApiAtlas.Request.Variant

/-!
# Runs of the program

Every command loads a description and builds its catalog first.  `run` gives
the report of a run from the words behind the name of the program, the files
in reach and the replies to its requests.
-/

namespace ApiAtlas.CommandLine

/-- What a run of the program is surrounded by. -/
structure Surroundings where
  settings : Settings
  files : Document.Files
  /-- The replies to requests by their ordinals, counted from zero. -/
  reply : Nat → Http.Reply

/-! ## Catalogs -/

/-- Whether a fault is one that loading may end in. -/
def isLoadingFault (fault : Fault) : Bool :=
  fault.isOwn || fault.isUnreadable || fault.isOutside

/-- The catalog of a loaded description. -/
def loadedCatalog (loaded : Document.Loaded) : Catalog.Built :=
  match loaded.outcome with
  | .ok description => Document.catalog description
  | .error fault => ⟨[], .error fault⟩

/-- The report of a command that needs the catalog of a source. -/
def withCatalog (surroundings : Surroundings) (source : String)
    (command : Catalog → Report) : Report :=
  let loaded :=
    Document.load surroundings.files (surroundings.reply 0) source
  let built := loadedCatalog loaded
  let report :=
    match built.outcome with
    | .ok catalog => command catalog
    | .error fault =>
      .ofFault isLoadingFault ("Cannot load " ++ source ++ ": ") fault
  report.after loaded.events built.notices

/-- The report of a command that needs an endpoint of a source. -/
def withEndpoint (surroundings : Surroundings) (source operation : String)
    (command : Endpoint → Report) : Report :=
  withCatalog surroundings source fun catalog =>
    match catalog.find? operation with
    | some endpoint => command endpoint
    | none => .failure ("Unknown operation: " ++ operation)

/-! ## Lists of endpoints -/

/-- The columns of a line. -/
def tabbed (columns : List String) : String :=
  String.intercalate "\t" columns

/-- The line of an endpoint. -/
def endpointLine (endpoint : Endpoint) : String :=
  let mark := if endpoint.streaming then " [stream]" else ""
  tabbed
    [endpoint.operationId, endpoint.method ++ " " ++ endpoint.path ++ mark,
      endpoint.title]

/-- Lists the endpoints of a catalog, and says how many it holds in all. -/
def listEndpoints (tag : Option String) (catalog : Catalog) : Report :=
  let listed :=
    (catalog.map (·.2)).filter fun endpoint =>
      tag.all fun tag => endpoint.tags.contains tag
  .lines
    (listed.map endpointLine ++
      ["Found " ++ toString catalog.length ++ " endpoints."])

/-! ## Inputs of endpoints -/

/-- The first of some examples, as a list. -/
def firstExample (examples : List Datum) : Except Json.Unwritable String :=
  Json.write .line (.list (examples.take 1))

/-- The line of a parameter. -/
def parameterLine (required : List String) (parameter : Parameter) :
    Except Json.Unwritable String := do
  let examples := Fields.get? "examples" parameter.schema
  let flag :=
    if required.contains parameter.name then "required" else "optional"
  return tabbed
    [parameter.location.name, parameter.name, flag,
      ← firstExample ((examples.bind Datum.list?).getD [])]

/-- The line of a field that can be filtered. -/
def fieldLine (field : Filter.Field) : Except Json.Unwritable String :=
  return tabbed
    ["filter", field.path, field.type.getD "None",
      ← firstExample field.examples]

/-- The fault that a value without a written form amounts to. -/
def unwritableFault : Json.Unwritable → Fault
  | .noNotation => .misuse .unsupported
  | .endless => .endlessValue

/-- Shows lines up to the first that cannot be written. -/
def showLines : List (Except Json.Unwritable String) → Report
  | [] => .silent .done
  | .ok line :: rest => (showLines rest).afterLine line
  | .error cause :: _ => .silent (.broken (unwritableFault cause))

/-- Shows the inputs of an endpoint. -/
def showInputs (endpoint : Endpoint) : Report :=
  let inputs := endpoint.inputs
  showLines
    (inputs.parameters.map (parameterLine inputs.required) ++
      inputs.fields.map fieldLine)

/-! ## Example requests -/

/-- Example requests as data. -/
def requestsDatum (requests : List (String × Request.Options)) : Datum :=
  .object (requests.map fun request => (request.1, request.2.toDatum))

/-- Shows the example requests of an endpoint. -/
def showExamples (endpoint : Endpoint) : Report :=
  match Request.exampleRequests endpoint.streaming endpoint.parameters with
  | .error fault => .silent (.broken fault)
  | .ok requests => showLines [Json.write .page (requestsDatum requests)]

/-! ## Calls -/

/-- A caller that takes rows and faults, but no end. -/
def rowCaller : Stream.Caller :=
  { cancelAt := none
    recordFault := fun _ => none
    errorFault := fun _ => none
    takesErrors := true
    takesEnd := false }

/-- The rows of a call, as they are written. -/
def rowLines (events : List Stream.Event) : List String :=
  events.filterMap fun
    | .record value => (Json.write .line value).toOption
    | _ => none

/-- The faults that a call has reported. -/
def reportedFaults (events : List Stream.Event) : List Fault :=
  events.filterMap fun
    | .error fault => some fault
    | _ => none

/-- The releases of the response of a call. -/
def releases (events : List Stream.Event) : List Http.Event :=
  events.filterMap fun
    | .released => some .released
    | _ => none

/-- The report of the rows of a call; faults are shown behind them. -/
def reportRows (passage : Stream.Passage) : Report :=
  let rows :=
    (Report.lines (rowLines passage.events)).after
      (releases passage.events) []
  match passage.fault, reportedFaults passage.events with
  | some fault, _ => { rows with ending := .broken fault }
  | none, [] => rows
  | none, faults =>
    { rows with
      errors := String.join (faults.map fun fault => errorLine fault.message)
      ending := .failed }

/-- The transport to a base address, or to that of the settings. -/
def transportTo (settings : Settings) (base : Option String) :
    Http.Transport :=
  match base with
  | some base => .toBase base settings.token
  | none => .ofSettings settings

/-- Calls an endpoint with options and shows its rows. -/
def callEndpoint (transport : Http.Transport) (reply : Http.Reply)
    (endpoint : Endpoint) (options : Request.Options) : Report :=
  let options := options.toDatum
  let exchanged := transport.send endpoint options reply
  let passage :=
    Stream.fetch rowCaller endpoint options fun _ => exchanged.outcome
  (reportRows passage).after exchanged.events []

/-- Whether a fault is one that building a request may end in. -/
def isRequestFault (fault : Fault) : Bool :=
  fault.isOwn || fault.isUnreadable

/-- Calls an endpoint with parameters and filters as they are written. -/
def queryEndpoint (transport : Http.Transport) (reply : Http.Reply)
    (parameters filters : List String) (endpoint : Endpoint) : Report :=
  let inputs : Except UsageFault (Entries × List Request.Selection) := do
    let values ← parameters.mapM readParameter
    return (valuesOf values, ← filters.mapM readFilter)
  match inputs with
  | .error fault => .ofMistake (.misuse Command.query.form fault)
  | .ok (values, selections) =>
    match Request.build endpoint values selections with
    | .error fault => .ofFault isRequestFault "" fault
    | .ok options => callEndpoint transport reply endpoint options

/-! ## Runs -/

/-- The number of requests that loading a source takes. -/
def loadingRequests (source : String) : Nat :=
  if Document.isAddress source then 1 else 0

/-- Does what is asked for. -/
def perform (surroundings : Surroundings) : Invocation → Report
  | .help text => .lines [text]
  | .endpoints source tag =>
    withCatalog surroundings source (listEndpoints tag)
  | .examples source operation =>
    withEndpoint surroundings source operation showExamples
  | .filters source operation =>
    withEndpoint surroundings source operation showInputs
  | .query source operation parameters filters base =>
    withEndpoint surroundings source operation
      (queryEndpoint (transportTo surroundings.settings base)
        (surroundings.reply (loadingRequests source)) parameters filters)

/-- Runs the program with the words behind its name. -/
def run (surroundings : Surroundings) (words : List String) : Report :=
  match Invocation.read words with
  | .ok invocation => perform surroundings invocation
  | .error mistake => .ofMistake mistake

end ApiAtlas.CommandLine
