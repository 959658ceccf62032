/-!
# Calendar days and moments

A day of the proleptic Gregorian calendar, and a moment on such a day with an
optional offset from universal time.  `CalendarDay.make?` and `Moment.make?`
accept exactly the days and times that exist; `CalendarFault` names the first
part that is out of range.
-/

namespace ApiAtlas

/-- The part of a written day or time that is out of range. -/
inductive CalendarFault where
  | year (value : Nat)
  | month
  | day
  | hour
  | minute
  | second
  /-- An offset of a day or more, in minutes. -/
  | offset (minutes : Int)
deriving DecidableEq, Repr

/-- A day of the calendar. -/
structure CalendarDay where
  year : Nat
  month : Nat
  day : Nat
deriving DecidableEq, Repr, Inhabited

/-- A moment; the offset from universal time is in minutes. -/
structure Moment where
  date : CalendarDay
  hour : Nat
  minute : Nat
  second : Nat
  microsecond : Nat
  offset : Option Int
deriving DecidableEq, Repr, Inhabited

/-- A number with at least `width` digits. -/
def paddedNumber (width number : Nat) : String :=
  let digits := Nat.toDigits 10 number
  String.ofList (List.replicate (width - digits.length) '0' ++ digits)

namespace CalendarDay

/-- Whether February has a twenty-ninth day. -/
def isLeapYear (year : Nat) : Bool :=
  year % 4 == 0 && (year % 100 != 0 || year % 400 == 0)

/-- The number of days of a month. -/
def daysInMonth (year month : Nat) : Nat :=
  if month = 2 then (if isLeapYear year then 29 else 28)
  else if month = 4 ∨ month = 6 ∨ month = 9 ∨ month = 11 then 30
  else 31

/-- The day with these parts, if it exists. -/
def make? (year month day : Nat) : Except CalendarFault CalendarDay :=
  if year < 1 ∨ 9999 < year then .error (.year year)
  else if month < 1 ∨ 12 < month then .error .month
  else if day < 1 ∨ daysInMonth year month < day then .error .day
  else .ok ⟨year, month, day⟩

/-- The number of days before this one, counted from the start of year one. -/
def ordinal (date : CalendarDay) : Nat :=
  let past := date.year - 1
  let earlierMonths := (List.range (date.month - 1)).map (· + 1)
  past * 365 + past / 4 - past / 100 + past / 400 +
    (earlierMonths.map (daysInMonth date.year)).foldl (· + ·) 0 +
      date.day - 1

/-- The written form `year-month-day`. -/
def text (date : CalendarDay) : String :=
  paddedNumber 4 date.year ++ "-" ++ paddedNumber 2 date.month ++ "-" ++
    paddedNumber 2 date.day

end CalendarDay

namespace Moment

/-- The minutes of a day. -/
def dayMinutes : Nat := 1440

/-- The moment with these parts, if they are in range. -/
def make? (date : Except CalendarFault CalendarDay)
    (hour minute second microsecond : Nat) (offset : Option Int) :
    Except CalendarFault Moment := do
  match offset with
  | some minutes =>
    if dayMinutes ≤ minutes.natAbs then throw (.offset minutes)
  | none => pure ()
  let date ← date
  if 24 ≤ hour then throw .hour
  if 60 ≤ minute then throw .minute
  if 60 ≤ second then throw .second
  return ⟨date, hour, minute, second, microsecond, offset⟩

/-- The microseconds from the start of year one, by the moment's own clock. -/
def localCount (moment : Moment) : Int :=
  ((((moment.date.ordinal * 24 + moment.hour) * 60 + moment.minute) * 60 +
    moment.second) * 1000000 + moment.microsecond : Nat)

/--
Whether two moments are the same.  Moments with offsets are compared in
universal time; one with an offset never equals one without.
-/
def sameInstant (one other : Moment) : Bool :=
  match one.offset, other.offset with
  | none, none => one.localCount == other.localCount
  | some a, some b =>
    one.localCount - a * 60000000 == other.localCount - b * 60000000
  | _, _ => false

/-- The written form of an offset. -/
def offsetText (minutes : Int) : String :=
  (if minutes < 0 then "-" else "+") ++
    paddedNumber 2 (minutes.natAbs / 60) ++ ":" ++
    paddedNumber 2 (minutes.natAbs % 60)

/-- The written form, with `separator` between day and time. -/
def text (separator : String) (moment : Moment) : String :=
  moment.date.text ++ separator ++
    paddedNumber 2 moment.hour ++ ":" ++ paddedNumber 2 moment.minute ++ ":" ++
    paddedNumber 2 moment.second ++
    (if moment.microsecond = 0 then ""
      else "." ++ paddedNumber 6 moment.microsecond) ++
    (moment.offset.elim "" offsetText)

end Moment

end ApiAtlas
