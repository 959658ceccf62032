import ApiAtlas.CommandLine.Command
import ApiAtlas.Text.Parts
import ApiAtlas.Text.Resemblance

/-!
# Arguments

The reading of the words behind the name of a command.  A word that starts
with a dash is an option, two dashes end the options, and everything else is
an argument.  The value of an option is the next word, or it is joined to the
option: behind an equals sign, or right behind a single letter.
-/

namespace ApiAtlas.CommandLine

/-- A mistake in the use of a command. -/
inductive UsageFault where
  | unknownOption (name : String) (resembling : List String)
  /-- An option that takes a value has none. -/
  | valueMissing (name : String)
  /-- An option that takes no value has one. -/
  | valueRefused (name : String)
  | argumentMissing (name : String)
  | argumentsLeft (arguments : List String)
  | unknownCommand (name : String) (resembling : List String)
  | commandMissing
  | badValue (expected given : String)
deriving DecidableEq, Repr

/-- An option as it is used. -/
structure UsedOption where
  form : OptionForm
  /-- Its value; empty if it takes none. -/
  value : String
deriving DecidableEq, Repr

/-- The words behind a command, sorted. -/
structure Arguments where
  options : List UsedOption
  positional : List String
deriving DecidableEq, Repr

namespace Arguments

/-- No words. -/
def none : Arguments := ⟨[], []⟩

/-- An option in front of others. -/
def consOption (option : UsedOption) (arguments : Arguments) : Arguments :=
  { arguments with options := option :: arguments.options }

/-- An argument in front of others. -/
def consPositional (word : String) (arguments : Arguments) : Arguments :=
  { arguments with positional := word :: arguments.positional }

/-- The values of an option, in order. -/
def valuesOf (form : OptionForm) (arguments : Arguments) : List String :=
  (arguments.options.filter fun option => option.form == form).map (·.value)

/-- Whether an option is used. -/
def uses (form : OptionForm) (arguments : Arguments) : Bool :=
  arguments.options.any fun option => option.form == form

end Arguments

/-- An option that waits for its value, under the name that was used. -/
structure Waiting where
  form : OptionForm
  name : String

/-- What an option word gives: options, and perhaps one that waits. -/
structure OptionWord where
  options : List UsedOption
  waiting : Option Waiting

/-- Whether a name is a dash and a single letter. -/
def isShort (name : String) : Bool := name.length == 2

/-- The option of a name. -/
def optionNamed? (form : CommandForm) (name : String) : Option OptionForm :=
  form.allOptions.find? fun option => option.names.contains name

/-- The long names of the options of a command. -/
def longNames (form : CommandForm) : List String :=
  (form.allOptions.flatMap (·.names)).filter (!isShort ·)

/-- The word of an option with a long name. -/
def longOption (option : OptionForm) (name : String) :
    Option String → Except UsageFault OptionWord
  | some value =>
    if option.takesValue then .ok ⟨[⟨option, value⟩], .none⟩
    else .error (.valueRefused name)
  | .none =>
    if option.takesValue then .ok ⟨[], some ⟨option, name⟩⟩
    else .ok ⟨[⟨option, ""⟩], .none⟩

/-- The letters of joined options. -/
def shortOptions (form : CommandForm) :
    List Char → Except UsageFault OptionWord
  | [] => .ok ⟨[], .none⟩
  | letter :: rest =>
    let name := String.ofList ['-', letter]
    match optionNamed? form name with
    | .none => .error (.unknownOption name [])
    | some option =>
      if option.takesValue then
        if rest.isEmpty then .ok ⟨[], some ⟨option, name⟩⟩
        else .ok ⟨[⟨option, String.ofList rest⟩], .none⟩
      else do
        let word ← shortOptions form rest
        return { word with options := ⟨option, ""⟩ :: word.options }

/-- The options of a word that starts with a dash. -/
def readOptionWord (form : CommandForm) (word : String) :
    Except UsageFault OptionWord :=
  let (name, value) := Text.cutAt '=' word
  match (optionNamed? form name).filter fun _ => !isShort name with
  | some option => longOption option name value
  | .none =>
    if "--".toList.isPrefixOf word.toList then
      .error (.unknownOption name (Text.resembling (longNames form) name))
    else shortOptions form word.toList.tail

/-- Whether a word is one of options. -/
def isOptionWord (word : String) : Bool :=
  word.toList.head? == some '-' && word != "-"

/-- Sorts the words behind a command, while an option may wait for its value. -/
def sortWords (form : CommandForm) :
    Option Waiting → List String → Except UsageFault Arguments
  | some waiting, [] => .error (.valueMissing waiting.name)
  | some waiting, word :: rest =>
    (sortWords form .none rest).map
      (Arguments.consOption ⟨waiting.form, word⟩)
  | .none, [] => .ok .none
  | .none, word :: rest =>
    if word = "--" then .ok ⟨[], rest⟩
    else if isOptionWord word then do
      let found ← readOptionWord form word
      let arguments ← sortWords form found.waiting rest
      return { arguments with
        options := found.options ++ arguments.options }
    else if form.mixesOptions then
      (sortWords form .none rest).map (Arguments.consPositional word)
    else .ok ⟨[], word :: rest⟩

/-- The words behind a command. -/
def readWords (form : CommandForm) (words : List String) :
    Except UsageFault Arguments :=
  sortWords form .none words

/-- The arguments of a command, of which there are as many as it names. -/
def exactArguments (form : CommandForm) (arguments : Arguments) :
    Except UsageFault (List String) :=
  let given := arguments.positional
  match form.arguments.drop given.length with
  | missing :: _ => .error (.argumentMissing missing)
  | [] =>
    match given.drop form.arguments.length with
    | [] => .ok given
    | left => .error (.argumentsLeft left)

end ApiAtlas.CommandLine
