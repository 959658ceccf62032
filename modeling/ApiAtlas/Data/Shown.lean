import ApiAtlas.Data.Datum
import ApiAtlas.Number.Notation
import ApiAtlas.Text.Quoted

/-!
# Values shown in messages

`Datum.shown` writes a value so that its kind can be told from its text: texts
are quoted, days and moments are written as constructions.  `Datum.plain` is
the bare form that stands in running text: a text as it is, a day or a moment
in calendar notation, anything else as shown.
-/

namespace ApiAtlas

/-- An amount of seconds, as whole days and the seconds left over. -/
def shownDuration (seconds : Int) : String :=
  let days := Int.fdiv seconds 86400
  let rest := Int.fmod seconds 86400
  let parts :=
    (if days = 0 then [] else ["days=" ++ toString days]) ++
      (if rest = 0 then [] else ["seconds=" ++ toString rest])
  "datetime.timedelta(" ++
    (if parts.isEmpty then "0" else String.intercalate ", " parts) ++ ")"

/-- An offset from universal time in minutes. -/
def shownOffset (minutes : Int) : String :=
  if minutes = 0 then "datetime.timezone.utc"
  else "datetime.timezone(" ++ shownDuration (minutes * 60) ++ ")"

/-- The arguments of a day. -/
def CalendarDay.shownParts (day : CalendarDay) : List String :=
  [toString day.year, toString day.month, toString day.day]

/-- The arguments of a moment: trailing parts that are zero are left out. -/
def Moment.shownParts (moment : Moment) : List String :=
  moment.date.shownParts ++
    [toString moment.hour, toString moment.minute] ++
    (if moment.second = 0 ∧ moment.microsecond = 0 then []
      else [toString moment.second]) ++
    (if moment.microsecond = 0 then [] else [toString moment.microsecond]) ++
    (match moment.offset with
      | none => []
      | some minutes => ["tzinfo=" ++ shownOffset minutes])

/-- A scalar written so that its kind can be told. -/
def Scalar.shown : Scalar → String
  | .null => "None"
  | .bool value => if value then "True" else "False"
  | .int value => toString value
  | .float value => value.text
  | .str text => Text.quoted text
  | .bytes content => Text.quotedBytes content
  | .date day =>
    "datetime.date(" ++ String.intercalate ", " day.shownParts ++ ")"
  | .moment instant =>
    "datetime.datetime(" ++ String.intercalate ", " instant.shownParts ++ ")"

/-- A scalar in its bare form. -/
def Scalar.plain : Scalar → String
  | .str text => text
  | .date day => day.text
  | .moment instant => instant.text " "
  | value => value.shown

namespace Datum

mutual

/-- A value written so that its kind can be told. -/
def shown : Datum → String
  | .scalar value => value.shown
  | .list items => "[" ++ String.intercalate ", " (shownItems items) ++ "]"
  | .set [] => "set()"
  | .set members =>
    "\x7b" ++ String.intercalate ", " (members.map Scalar.shown) ++ "\x7d"
  | .map entries =>
    "\x7b" ++ String.intercalate ", " (shownEntries entries) ++ "\x7d"
  | .endless => "..."

/-- The written items of a list. -/
def shownItems : List Datum → List String
  | [] => []
  | item :: rest => shown item :: shownItems rest

/-- The written entries of a map. -/
def shownEntries : Entries → List String
  | [] => []
  | (key, value) :: rest =>
    (key.shown ++ ": " ++ shown value) :: shownEntries rest

end

/-- A value in its bare form. -/
def plain : Datum → String
  | .scalar value => value.plain
  | value => value.shown

end Datum

end ApiAtlas
