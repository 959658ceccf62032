import ApiAtlas.Data.Shown
import ApiAtlas.Json.Fault
import ApiAtlas.Text.Encoding
import ApiAtlas.Validation.Issue

/-!
# Faults

A fault is a cause; its wording is given by `Fault.message?`.  Three families
of faults are told apart where a caller treats them differently: the library's
own faults (`Fault.isOwn`), values that cannot be read (`Fault.isUnreadable`)
and failures of files and connections (`Fault.isOutside`).  What is left are
values used as something that they are not, and failures of a caller.
-/

namespace ApiAtlas

/-- Why a chain of references is not followed. -/
inductive CycleReason where
  | cycle
  | depthAbove (limit : Int)
deriving DecidableEq, Repr

/-- How a value was used as something that it is not. -/
inductive Misuse where
  /-- The value does not support the operation. -/
  | unsupported
  /-- The value has no members or is not a text. -/
  | noMembers
  /-- A key is absent that has to be present. -/
  | missingKey
  /-- A position is beyond the end. -/
  | missingPosition
  /-- A number is too large to be worked with. -/
  | overflow
deriving DecidableEq, Repr

/-- The kinds of failure of an exchange over a connection. -/
inductive ExchangeFailure where
  | unreachable
  | timeout
  | badAnswer
  | brokenConnection
  | badValue
  | internal
deriving DecidableEq, Repr

/-- Why a file cannot be read. -/
inductive FileFailure where
  | notFound
  | isDirectory
  | notDirectory
  | nameTooLong
  | notPermitted
deriving DecidableEq, Repr

/-- A cause for which an operation fails. -/
inductive Fault where
  /-- A reference that leads to no definition. -/
  | unresolvedReference (reference : String)
  /-- References that lead back to themselves, or that are nested too deeply. -/
  | cyclicReference (chain : List String) (reason : CycleReason)
  | unsupportedMethod (method : String)
  | unsupportedLocation (name location : String)
  /-- An operation whose method allows no body has one. -/
  | bodyNotAllowed (operation method : String)
  | emptyRequestBody (operation : String)
  | emptyResponse (operation status : String)
  /-- A filter field without a path, with the schema it was found in. -/
  | unaddressableField (schema : Datum)
  /-- A schema that is nested too deeply, with the path that was reached. -/
  | nestedTooDeep (path : String)
  | undecodableLine (line : String) (cause : Json.Fault)
  | readFailed (message : String)
  | streamUnavailable
  | callFailed (operation : String) (cause : Fault)
  /-- A call that was answered by an error, with the wording of the answer. -/
  | callRefused (operation answer : String)
  | numeral (cause : Text.NumeralFault)
  | calendar (cause : CalendarFault)
  | json (cause : Json.Fault)
  | encoding (cause : Text.DecodeFault)
  /-- A value that is not a member of a closed set of names. -/
  | notAmong (value : Datum) (set : String)
  | notDescription (source : String)
  | noDescriptionAt (address : String)
  | invalid (issues : List Issue)
  | pathHoldsNul
  /-- A number beyond that of the last character. -/
  | notCharacter
  /-- A value that holds itself where one has to end. -/
  | endlessValue
  | file (failure : FileFailure) (path : String)
  | badStatus (status : Nat) (reason address : String)
  | exchange (failure : ExchangeFailure) (message : String)
  | callback (message : String)
  | misuse (kind : Misuse)
deriving DecidableEq, Repr

/-- The wording of a calendar fault. -/
def CalendarFault.message : CalendarFault → String
  | .year value => "year " ++ toString value ++ " is out of range"
  | .month => "month must be in 1..12"
  | .day => "day is out of range for month"
  | .hour => "hour must be in 0..23"
  | .minute => "minute must be in 0..59"
  | .second => "second must be in 0..59"
  | .offset minutes =>
    "offset must be a timedelta strictly between " ++
      "-timedelta(hours=24) and timedelta(hours=24), not " ++
      shownDuration (minutes * 60) ++ "."

/-- The number and the wording of a failure to read a file. -/
def FileFailure.message : FileFailure → String
  | .notFound => "[Errno 2] No such file or directory"
  | .isDirectory => "[Errno 21] Is a directory"
  | .notDirectory => "[Errno 20] Not a directory"
  | .nameTooLong => "[Errno 36] File name too long"
  | .notPermitted => "[Errno 13] Permission denied"

/-- The wording of the reason of a cycle. -/
def CycleReason.message : CycleReason → String
  | .cycle => "cycle"
  | .depthAbove limit => "depth above " ++ toString limit

/-- The wording of a bad status: below five hundred the client is at fault. -/
def badStatusMessage (status : Nat) (reason address : String) : String :=
  toString status ++
    (if status < 500 then " Client Error: " else " Server Error: ") ++
    reason ++ " for url: " ++ address

/-- The longest part of a line that is shown. -/
def shownLineLength : Nat := 80

namespace Fault

/--
The wording of a fault.  Invalid values have issues instead, and a value used
as something that it is not has a kind only.
-/
def message? : Fault → Option String
  | .unresolvedReference reference => some ("Unresolved $ref " ++ reference)
  | .cyclicReference chain reason =>
    some ("Cyclic $ref (" ++ reason.message ++ "): " ++
      String.intercalate " -> " chain)
  | .unsupportedMethod method =>
    some ("Unsupported HTTP method: " ++ method)
  | .unsupportedLocation name location =>
    some ("Unsupported parameter location for " ++ name ++ ": " ++ location)
  | .bodyNotAllowed operation method =>
    some ("Operation " ++ operation ++ " with method " ++ method ++
      " cannot have a requestBody defined")
  | .emptyRequestBody operation =>
    some ("Request body of " ++ operation ++ " must have content defined")
  | .emptyResponse operation status =>
    some ("Response " ++ status ++ " of " ++ operation ++
      " has empty content")
  | .unaddressableField schema =>
    some ("Filter field with empty path in schema: " ++ schema.shown)
  | .nestedTooDeep path =>
    some ("Schema nesting too deep at " ++ Text.quoted path)
  | .undecodableLine line cause =>
    let shown := String.ofList (line.toList.take shownLineLength)
    some ("Invalid NDJSON line " ++ Text.quoted shown ++ ": " ++
      cause.message)
  | .readFailed message => some ("Stream read failed: " ++ message)
  | .streamUnavailable => some "Data stream locked or not available"
  | .callFailed operation cause =>
    cause.message?.map fun message => operation ++ " failed: " ++ message
  | .callRefused operation answer =>
    some (operation ++ " failed: " ++ answer)
  | .numeral cause => some cause.message
  | .calendar cause => some cause.message
  | .json cause => some cause.message
  | .encoding cause => some cause.message
  | .notAmong value set =>
    some (value.shown ++ " is not a valid " ++ set)
  | .notDescription source =>
    some (source ++ " is not an OpenAPI document")
  | .noDescriptionAt address =>
    some (address ++ " did not return an OpenAPI document")
  | .invalid _ => none
  | .pathHoldsNul => some "embedded null byte"
  | .notCharacter => some "chr() arg not in range(0x110000)"
  | .endlessValue => some "Circular reference detected"
  | .file failure path =>
    some (failure.message ++ ": " ++ Text.quoted path)
  | .badStatus status reason address =>
    some (badStatusMessage status reason address)
  | .exchange _ message => some message
  | .callback message => some message
  | .misuse _ => none

/-- The wording of a fault, empty where it has none. -/
def message (fault : Fault) : String := fault.message?.getD ""

/-- Whether a fault is one of the library's own. -/
def isOwn : Fault → Bool
  | .unresolvedReference _ | .cyclicReference .. | .unsupportedMethod _
  | .unsupportedLocation .. | .bodyNotAllowed .. | .emptyRequestBody _
  | .emptyResponse .. | .unaddressableField _ | .nestedTooDeep _
  | .undecodableLine .. | .readFailed _ | .streamUnavailable
  | .callFailed .. | .callRefused .. => true
  | _ => false

/-- Whether a fault ends the reading of a stream as a failure to transport. -/
def isTransport : Fault → Bool
  | .readFailed _ | .streamUnavailable | .callFailed ..
  | .callRefused .. => true
  | _ => false

/-- Whether a fault says that a value cannot be read. -/
def isUnreadable : Fault → Bool
  | .numeral _ | .calendar _ | .json _ | .encoding _ | .notAmong ..
  | .notDescription _ | .noDescriptionAt _ | .invalid _ | .pathHoldsNul
  | .notCharacter
  | .exchange .badValue _ => true
  | _ => false

/-- Whether a fault is a failure of a file or of a connection. -/
def isOutside : Fault → Bool
  | .file .. | .badStatus .. => true
  | .exchange .badValue _ | .exchange .internal _ => false
  | .exchange .. => true
  | _ => false

end Fault

/-- Gives up because of the way in which a value was used. -/
def misused {α : Type} (kind : Misuse) : Except Fault α :=
  .error (.misuse kind)

end ApiAtlas
