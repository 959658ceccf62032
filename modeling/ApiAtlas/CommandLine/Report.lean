import ApiAtlas.CommandLine.Invocation
import ApiAtlas.Endpoint.Catalog
import ApiAtlas.Http.Message

/-!
# Reports

What a run of the program shows, what it exchanges with the other end, what it
notices on the way, and how it ends.
-/

namespace ApiAtlas.CommandLine

/-- How a run of the program ends. -/
inductive Ending where
  | done
  | failed
  /-- The program was used in a wrong way. -/
  | misused
  /-- A fault came out that no command expects. -/
  | broken (fault : Fault)
deriving DecidableEq, Repr

/-- The exit code of an ending. -/
def Ending.exitCode : Ending → Nat
  | done => 0
  | failed => 1
  | misused => 2
  | broken _ => 1

/-- The report of a run of the program. -/
structure Report where
  output : String
  errors : String
  exchanges : List Http.Event
  notices : List Notice
  ending : Ending
deriving DecidableEq, Repr

/-- A mark in front of everything that went wrong. -/
def errorLine (text : String) : String := shownLine ("Error: " ++ text)

namespace Report

/-- A report without any text or exchange. -/
def silent (ending : Ending) : Report := ⟨"", "", [], [], ending⟩

/-- A run that shows lines and is done. -/
def lines (texts : List String) : Report :=
  { silent .done with output := String.join (texts.map shownLine) }

/-- A run that ends in a mistake. -/
def ofMistake (mistake : Mistake) : Report :=
  { silent .misused with errors := mistake.shown }

/-- A run that ends in a failure with a text. -/
def failure (text : String) : Report :=
  { silent .failed with errors := errorLine text }

/--
A run that ends in a fault: a failure with its wording behind a text if the
fault is expected.
-/
def ofFault (isExpected : Fault → Bool) (before : String) (fault : Fault) :
    Report :=
  if isExpected fault then failure (before ++ fault.message)
  else silent (.broken fault)

/-- A report after exchanges and notices. -/
def after (exchanges : List Http.Event) (notices : List Notice)
    (report : Report) : Report :=
  { report with
    exchanges := exchanges ++ report.exchanges
    notices := notices ++ report.notices }

/-- A report after a shown line. -/
def afterLine (text : String) (report : Report) : Report :=
  { report with output := shownLine text ++ report.output }

end Report

end ApiAtlas.CommandLine
