import ApiAtlas.CommandLine.Arguments
import ApiAtlas.Request.Selection

/-!
# Parameters and filters as they are written

A parameter is written as its name and its value with an equals sign between
them; a filter as its path, the name of an operator and its value with colons
between them.  The first marks count, so that a value may hold more of them.
-/

namespace ApiAtlas.CommandLine

/-- The form of a parameter. -/
def parameterForm : String := "NAME=VALUE"

/-- The form of a filter. -/
def filterForm : String :=
  "PATH:OP:VALUE with OP in " ++
    String.intercalate ", " Filter.Operator.names

/-- The name and the value of a written parameter. -/
def parameterOf? (text : String) : Option (String × String) :=
  match Text.cutAt '=' text with
  | (name, some value) => if name = "" then none else some (name, value)
  | (_, none) => none

/-- A filter as it is written. -/
structure WrittenFilter where
  path : String
  operator : Filter.Operator
  value : String
deriving DecidableEq, Repr

/-- The parts of a written filter. -/
def filterOf? (text : String) : Option WrittenFilter := do
  let (path, behindPath) := Text.cutAt ':' text
  let (operator, value) := Text.cutAt ':' (← behindPath)
  return ⟨path, ← (← value.map fun _ => Filter.Operator.ofName? operator),
    ← value⟩

/-- The selection that a written filter stands for. -/
def WrittenFilter.selection (written : WrittenFilter) : Request.Selection :=
  ⟨.str written.path, .str written.operator.name, .str written.value⟩

/-- Reads a written parameter. -/
def readParameter (text : String) : Except UsageFault (String × String) :=
  match parameterOf? text with
  | some parameter => .ok parameter
  | none => .error (.badValue parameterForm text)

/-- Reads a written filter. -/
def readFilter (text : String) : Except UsageFault Request.Selection :=
  match filterOf? text with
  | some written => .ok written.selection
  | none => .error (.badValue filterForm text)

/-- The values of parameters; of two under one name the last one counts. -/
def valuesOf (parameters : List (String × String)) : Entries :=
  parameters.foldl
    (fun values parameter =>
      Entries.put (.str parameter.1) (.str parameter.2) values)
    []

end ApiAtlas.CommandLine
