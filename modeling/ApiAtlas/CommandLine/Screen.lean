import ApiAtlas.CommandLine.Arguments
import ApiAtlas.Text.Quoted

/-!
# Screens

What a user sees of the use of the program: the help of a command, the line
that shows its use, and mistakes in it.  Sequences that change the style of a
terminal are left out of everything that is shown, and a carriage return before
a line feed is dropped.
-/

namespace ApiAtlas.CommandLine

/-! ## Styles -/

/-- Whether a character is a parameter of a style sequence. -/
def isStyleParameter (c : Char) : Bool := '0' ≤ c && c ≤ '?'

/-- Whether a character may stand behind the parameters of a style sequence. -/
def isStyleIntermediate (c : Char) : Bool := ' ' ≤ c && c ≤ '/'

/-- Whether a character ends a style sequence. -/
def isStyleEnd (c : Char) : Bool := '@' ≤ c && c ≤ '~'

/-- The rest of a text behind the inside of a style sequence. -/
def behindStyle? (text : List Char) : Option (List Char) :=
  match (text.dropWhile isStyleParameter).dropWhile isStyleIntermediate with
  | c :: rest => if isStyleEnd c then some rest else none
  | [] => none

/-- A text without style sequences; `skipped` characters belong to one. -/
def withoutStyleFrom : Nat → List Char → List Char
  | _, [] => []
  | skipped + 1, _ :: rest => withoutStyleFrom skipped rest
  | 0, c :: rest =>
    match rest with
    | '[' :: inside =>
      match (behindStyle? inside).filter fun _ => c.toNat = 27 with
      | some behind => withoutStyleFrom (rest.length - behind.length) rest
      | none => c :: withoutStyleFrom 0 rest
    | _ => c :: withoutStyleFrom 0 rest

/-- A text whose line breaks are single characters. -/
def singleBreaks : List Char → List Char
  | [] => []
  | c :: rest =>
    if c = '\r' ∧ rest.head? = some '\n' then singleBreaks rest
    else c :: singleBreaks rest

/-- A line as it is shown. -/
def shownLine (text : String) : String :=
  String.ofList (singleBreaks (withoutStyleFrom 0 text.toList ++ ['\n']))

/-! ## Help -/

/-- The use of a command. -/
def usage (form : CommandForm) : String :=
  String.intercalate " "
    (["Usage: " ++ form.call, "[OPTIONS]"] ++ form.arguments)

/-- A text filled up with spaces. -/
def padded (width : Nat) (text : String) : String :=
  text ++ String.ofList (List.replicate (width - text.length) ' ')

/-- Lines of two columns, indented. -/
def twoColumns (rows : List (String × String)) : List String :=
  let width := (rows.map (·.1.length)).foldl max 0
  rows.map fun row => "  " ++ padded width row.1 ++ "  " ++ row.2

/-- The names of an option, and the word for its value. -/
def OptionForm.shown (option : OptionForm) : String :=
  String.intercalate ", " option.names ++
    (if option.takesValue then " TEXT" else "")

/-- The help of a command, as lines. -/
def helpLines (form : CommandForm) : List String :=
  [usage form, "", "  " ++ form.purpose, "", "Options:"] ++
    twoColumns (form.allOptions.map fun option => (option.shown, option.help))

/-- The help of a command. -/
def help (form : CommandForm) : String :=
  String.intercalate "\n" (helpLines form)

/-- The help of the program, with its commands. -/
def programHelp : String :=
  String.intercalate "\n"
    (helpLines programForm ++ ["", "Commands:"] ++
      twoColumns (Command.all.map fun command =>
        (command.name, command.purpose)))

/-! ## Mistakes -/

namespace UsageFault

/-- The offer of names that resemble an unknown one. -/
def offer (resembling : List String) : String :=
  match resembling.map Text.quoted with
  | [] => ""
  | [name] => " Did you mean " ++ name ++ "?"
  | names =>
    " (Did you mean one of: " ++ String.intercalate ", " names ++ "?)"

/-- The wording for a name of some kind that is unknown. -/
def unknown (kind name : String) (resembling : List String) : String :=
  "No such " ++ kind ++ " " ++ Text.quoted name ++ "." ++ offer resembling

/-- The wording of a mistake. -/
def message : UsageFault → String
  | unknownOption name resembling => unknown "option" name resembling
  | valueMissing name =>
    "Option " ++ Text.quoted name ++ " requires an argument."
  | valueRefused name =>
    "Option " ++ Text.quoted name ++ " does not take a value."
  | argumentMissing name => "Missing argument '" ++ name ++ "'."
  | argumentsLeft [word] => "Got unexpected extra argument (" ++ word ++ ")"
  | argumentsLeft words =>
    "Got unexpected extra arguments (" ++ String.intercalate " " words ++ ")"
  | unknownCommand name resembling => unknown "command" name resembling
  | commandMissing => "Missing command."
  | badValue expected given =>
    "Invalid value: expected " ++ expected ++ ", got " ++ Text.quoted given

/-- Whether the use of the command is shown with a mistake. -/
def showsUsage : UsageFault → Bool
  | valueMissing _ | valueRefused _ => false
  | _ => true

/-- A mistake as it is shown. -/
def shown (form : CommandForm) (fault : UsageFault) : String :=
  let hint :=
    if fault.showsUsage then
      shownLine (usage form ++ "\nTry '" ++ form.call ++
        " --help' for help.\n")
    else ""
  hint ++ shownLine ("Error: " ++ fault.message)

end UsageFault

end ApiAtlas.CommandLine
