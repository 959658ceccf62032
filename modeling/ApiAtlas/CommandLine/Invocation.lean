import ApiAtlas.CommandLine.Screen

/-!
# Invocations

What the words behind the name of the program ask for, or the mistake in them.
The words up to the name of a command are the program's own; the others belong
to the command.  Asking for help counts before anything that is missing.
-/

namespace ApiAtlas.CommandLine

/-- What is asked of the program. -/
inductive Invocation where
  | help (text : String)
  /-- A list of endpoints, of one tag if a tag is given. -/
  | endpoints (source : String) (tag : Option String)
  | examples (source operation : String)
  | filters (source operation : String)
  /-- A call with parameters and filters as they are written. -/
  | query (source operation : String) (parameters filters : List String)
      (base : Option String)
deriving DecidableEq, Repr

/-- A mistake in the use of the program or of one of its commands. -/
inductive Mistake where
  /-- There are no words at all. -/
  | noWords
  | misuse (form : CommandForm) (fault : UsageFault)
deriving DecidableEq, Repr

/-- A mistake as it is shown. -/
def Mistake.shown : Mistake → String
  | noWords => shownLine programHelp
  | misuse form fault => fault.shown form

/-- The last value of an option; an empty one counts as none. -/
def Arguments.lastValue? (form : OptionForm) (arguments : Arguments) :
    Option String :=
  ((arguments.valuesOf form).getLast?).filter (· ≠ "")

namespace Command

/-- What a command asks for with its arguments. -/
def invocation (command : Command) (arguments : Arguments) :
    Except UsageFault Invocation := do
  let given ← exactArguments command.form arguments
  let source := given.headD ""
  let operation := given.tail.headD ""
  return match command with
    | .endpoints => .endpoints source (arguments.lastValue? tagOption)
    | .examples => .examples source operation
    | .filters => .filters source operation
    | .query =>
      .query source operation (arguments.valuesOf parameterOption)
        (arguments.valuesOf filterOption) (arguments.lastValue? baseOption)

/-- What the words behind a command ask for. -/
def readInvocation (command : Command) (words : List String) :
    Except UsageFault Invocation := do
  let arguments ← readWords command.form words
  if arguments.uses helpOption then return .help (help command.form)
  command.invocation arguments

end Command

namespace Invocation

/-- The source that an invocation needs. -/
def source? : Invocation → Option String
  | .help _ => none
  | .endpoints source _ | .examples source _ | .filters source _
  | .query source _ _ _ _ => some source

/-- What the program's own words leave: an invocation, or words for a command. -/
def readOwn (words : List String) :
    Except UsageFault (Invocation ⊕ List String) := do
  let arguments ← readWords programForm words
  if arguments.uses helpOption then return .inl (.help programHelp)
  return .inr arguments.positional

/--
What words ask for that start with no command.  They are read as the program's
own once more, so that an option behind two dashes is known for one.
-/
def readUnknown (name : String) (words : List String) :
    Except UsageFault Invocation := do
  match ← readOwn words with
  | .inl invocation => return invocation
  | .inr _ =>
    throw (.unknownCommand name
      (Text.resembling (Command.all.map Command.name) name))

/-- What the words behind the program's own ask for. -/
def readRest : List String → Except Mistake Invocation
  | [] => .error (.misuse programForm .commandMissing)
  | name :: rest =>
    match Command.ofName? name with
    | some command =>
      (command.readInvocation rest).mapError (.misuse command.form)
    | none =>
      (readUnknown name (name :: rest)).mapError (.misuse programForm)

/-- What the words behind the name of the program ask for. -/
def read (words : List String) : Except Mistake Invocation :=
  if words.isEmpty then .error .noWords
  else
    match readOwn words with
    | .error fault => .error (.misuse programForm fault)
    | .ok (.inl invocation) => .ok invocation
    | .ok (.inr rest) => readRest rest

end Invocation

end ApiAtlas.CommandLine
