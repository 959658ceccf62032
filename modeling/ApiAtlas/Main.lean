import ApiAtlas.CommandLine.Run

/-!
# The program

The outer layer of the command line.  It reads the environment and the file
that the words name, and shows the report of the run.  It has no connection to
any other end, so that every request fails.
-/

namespace ApiAtlas

open CommandLine

/--
The failure that the reading of a file ends in.  A directory can be opened, so
that its name is no longer known when the reading fails.
-/
def failureOf : IO.Error → FileFailure
  | .inappropriateType (some _) .. => .notDirectory
  | .inappropriateType none .. => .isDirectory
  | .permissionDenied .. => .notPermitted
  | .invalidArgument .. => .nameTooLong
  | _ => .notFound

/-- Reads the file of a path. -/
def readContent (path : String) :
    IO (Except FileFailure (List UInt8)) := do
  try
    let content ← IO.FS.readBinFile path
    return .ok content.toList
  catch failure => return .error (failureOf failure)

/-- The files in reach: the one that an invocation names. -/
def filesInReach (words : List String) : IO Document.Files := do
  match Invocation.read words with
  | .ok invocation =>
    match invocation.source? with
    | some source =>
      let path := Document.normalPath source
      let content ← readContent path
      return fun other =>
        if other = path then content else .error .notFound
    | none => return .ofList []
  | .error _ => return .ofList []

/-- The settings of the environment. -/
def readSettings : IO (Except Fault Settings) := do
  let values ← Settings.variableNames.mapM fun name =>
    return (name, ← IO.getEnv name)
  return Settings.read fun name => (values.lookup name).join

/-- The reply of an end that cannot be reached. -/
def noReply : Http.Reply :=
  .error (.exchange .unreachable "There is no connection")

/-- Shows a report. -/
def showReport (report : Report) : IO Unit := do
  for notice in report.notices do
    IO.eprintln ("WARNING: " ++ notice.message)
  IO.print report.output
  IO.eprint report.errors
  match report.ending with
  | .broken fault => IO.eprintln ("Broken off: " ++ fault.message)
  | _ => return

/-- Runs the program in its surroundings, and gives its exit code. -/
def runProgram (words : List String) : IO UInt32 := do
  match ← readSettings with
  | .error fault =>
    IO.eprintln fault.message
    return 1
  | .ok settings =>
    let files ← filesInReach words
    let report := run ⟨settings, files, fun _ => noReply⟩ words
    showReport report
    return UInt32.ofNat report.ending.exitCode

end ApiAtlas

/-- Runs the program with the words behind its name. -/
def main (words : List String) : IO UInt32 :=
  ApiAtlas.runProgram words
