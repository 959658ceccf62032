/-!
# Commands

The commands of the program with their arguments and options.  Every command
has an option that shows its help.
-/

namespace ApiAtlas.CommandLine

/-- An option of a command. -/
structure OptionForm where
  /-- Its names; one of a single letter may be joined with others. -/
  names : List String
  /-- Whether it takes a value. -/
  takesValue : Bool
  help : String
deriving DecidableEq, Repr

/-- A command. -/
structure CommandForm where
  /-- The words that call it. -/
  call : String
  purpose : String
  arguments : List String
  options : List OptionForm
  /-- Whether options may stand behind arguments. -/
  mixesOptions : Bool
deriving DecidableEq, Repr

/-- The option that shows the help of a command. -/
def helpOption : OptionForm :=
  ⟨["--help"], false, "Show this message and exit."⟩

/-- The options of a command, with the one that shows its help. -/
def CommandForm.allOptions (form : CommandForm) : List OptionForm :=
  form.options ++ [helpOption]

/-- The name of the program. -/
def programName : String := "api-schema-query"

/-- The argument for a description. -/
def descriptionArgument : String := "DOC"

/-- The argument for the name of an operation. -/
def operationArgument : String := "OPERATION_ID"

/-- The option for a tag. -/
def tagOption : OptionForm :=
  ⟨["--tag"], true, "Only list endpoints with this tag."⟩

/-- The option for the value of a parameter. -/
def parameterOption : OptionForm :=
  ⟨["-p", "--param"], true, "Path or query parameter as NAME=VALUE."⟩

/-- The option for a filter. -/
def filterOption : OptionForm :=
  ⟨["-f", "--filter"], true,
    "Filter as PATH:OP:VALUE, e.g. 'utxos[].amount:Gt:10'."⟩

/-- The option for the address of the server. -/
def baseOption : OptionForm :=
  ⟨["--base-url"], true, "Server base URL (defaults to API_BASE_URL)."⟩

/-- The option for more messages. -/
def verboseOption : OptionForm :=
  ⟨["-v", "--verbose"], false, "Enable debug logging."⟩

/-- What the program can be asked to do. -/
inductive Command where
  | endpoints
  | examples
  | filters
  | query
deriving DecidableEq, Repr

namespace Command

/-- All commands, in the order of the alphabet. -/
def all : List Command := [endpoints, examples, filters, query]

/-- The name of a command. -/
def name : Command → String
  | endpoints => "endpoints"
  | examples => "examples"
  | filters => "filters"
  | query => "query"

/-- The command of a name. -/
def ofName? (text : String) : Option Command :=
  all.find? fun command => command.name == text

/-- What a command is for. -/
def purpose : Command → String
  | endpoints =>
    "List the operations of an OpenAPI document (file path or URL)."
  | examples => "Print example request options for every parameter variant."
  | filters => "Show parameters and filterable fields of an operation."
  | query => "Call an operation and print its rows as JSON lines."

/-- The arguments of a command. -/
def arguments : Command → List String
  | endpoints => [descriptionArgument]
  | _ => [descriptionArgument, operationArgument]

/-- The options of a command. -/
def options : Command → List OptionForm
  | endpoints => [tagOption]
  | query => [parameterOption, filterOption, baseOption]
  | _ => []

/-- The form of a command. -/
def form (command : Command) : CommandForm :=
  { call := programName ++ " " ++ command.name
    purpose := command.purpose
    arguments := command.arguments
    options := command.options
    mixesOptions := true }

end Command

/-- The form of the program itself, whose arguments are a command and its own. -/
def programForm : CommandForm :=
  { call := programName
    purpose := "API Schema Query — inspect and query OpenAPI endpoints."
    arguments := ["COMMAND", "[ARGS]..."]
    options := [verboseOption]
    mixesOptions := false }

end ApiAtlas.CommandLine
