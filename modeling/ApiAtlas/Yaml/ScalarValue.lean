import ApiAtlas.Text.Base64
import ApiAtlas.Yaml.Cursor
import ApiAtlas.Yaml.Number

/-!
# Values of scalars

The value of a scalar follows from its tag and its text.  A text that its tag
does not fit has none.
-/

namespace ApiAtlas.Yaml

/-- The truth value that a text stands for. -/
def readTruth (text : String) : Except Fault Bool :=
  let word := Text.toSmall text
  if word ∈ ["yes", "true", "on"] then .ok true
  else if word ∈ ["no", "false", "off"] then .ok false
  else misused .missingKey

/-- The bytes that a text in base64 stands for. -/
def readBinary (text : String) : Except Rejection (List UInt8) :=
  if text.toList.all fun c => c.toNat < 128 then
    match Text.readBase64 text.toList with
    | some bytes => .ok bytes
    | none => .error .malformed
  else .error .malformed

/-- The microseconds that the first six digits of a fraction stand for. -/
def microseconds (fraction : List Nat) : Nat :=
  let digits := fraction.take 6
  Text.numberOfDigits (digits ++ List.replicate (6 - digits.length) 0)

/-- The day or moment that is written, if it exists. -/
def WrittenDay.scalar (written : WrittenDay) : Except CalendarFault Scalar :=
  let day := CalendarDay.make? written.year written.month written.day
  match written.time with
  | none => day.map Scalar.date
  | some time =>
    (Moment.make? day time.hour time.minute time.second
      (microseconds time.fraction) time.offset).map Scalar.moment

/-- The day or moment that a text stands for. -/
def readTimestamp (text : String) : Except Fault Scalar :=
  match readDay (dropFinalBreak text.toList) with
  | some written => written.scalar.mapError Fault.calendar
  | none => misused .noMembers

/-- The value of a scalar with a tag. -/
def scalarValue (tag : Tag) (text : String) : Except Rejection Scalar :=
  match tag with
  | .null => .ok .null
  | .bool => ((readTruth text).map Scalar.bool).mapError .fault
  | .int => ((readInt text).map Scalar.int).mapError .fault
  | .float => ((readFloat text).map Scalar.float).mapError .fault
  | .binary => (readBinary text).map Scalar.bytes
  | .timestamp => (readTimestamp text).mapError .fault
  | .text => .ok (.str text)
  | _ => .error .malformed

end ApiAtlas.Yaml
