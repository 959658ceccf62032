import ApiAtlas.Data.Calendar
import ApiAtlas.Text.Parts
import ApiAtlas.Yaml.Node

/-!
# Resolution of plain scalars

The tag of a plain scalar follows from its text alone: the words for truth
values and null, whole numbers in four bases and in base sixty, numbers with a
point, days and moments.  Everything else is text.
-/

namespace ApiAtlas.Yaml

/-- Whether characters are one or more that satisfy a test. -/
def areSome (test : Char → Bool) (text : List Char) : Bool :=
  !text.isEmpty && text.all test

/-- Whether a character is a digit or an underscore. -/
def isSpacedDigit (c : Char) : Bool := c.isDigit || c == '_'

/-- Whether characters are a digit and then digits or underscores. -/
def areSpacedDigits : List Char → Bool
  | [] => false
  | c :: rest => c.isDigit && rest.all isSpacedDigit

/-- A text without a sign in front. -/
def unsigned : List Char → List Char
  | '-' :: rest => rest
  | '+' :: rest => rest
  | text => text

/-! ## Words -/

/-- The spellings of a word: small, with a capital and in capitals. -/
def spellings (small capital capitals : String) : List String :=
  [small, capital, capitals]

/-- The words for truth values. -/
def truthWords : List String :=
  spellings "yes" "Yes" "YES" ++ spellings "no" "No" "NO" ++
    spellings "true" "True" "TRUE" ++ spellings "false" "False" "FALSE" ++
    spellings "on" "On" "ON" ++ spellings "off" "Off" "OFF"

/-- The words for null. -/
def nullWords : List String := ["", "~"] ++ spellings "null" "Null" "NULL"

/-- The words for infinity behind a point. -/
def infinityWords : List String := spellings "inf" "Inf" "INF"

/-- The words for no number behind a point. -/
def noNumberWords : List String := spellings "nan" "NaN" "NAN"

/-! ## Numbers -/

/-- Whether a part of a number in base sixty is one or two digits below sixty. -/
def isSixtieth : List Char → Bool
  | [c] => c.isDigit
  | [c, d] => '0' ≤ c && c ≤ '5' && d.isDigit
  | _ => false

/-- Whether characters are parts between colons, two or more. -/
def areSixtieths (text : List Char) : Bool :=
  match Text.splitAt ':' text with
  | first :: second :: rest =>
    areSpacedDigits first && (second :: rest).all isSixtieth
  | _ => false

/-- Whether a text is a whole number. -/
def isInt (text : List Char) : Bool :=
  match unsigned text with
  | '0' :: 'b' :: digits =>
    areSome (fun c => c == '0' || c == '1' || c == '_') digits
  | '0' :: 'x' :: digits => areSome (fun c => isHexDigit c || c == '_') digits
  | '0' :: digits =>
    digits.all fun c => ('0' ≤ c && c ≤ '7') || c == '_'
  | digits => areSpacedDigits digits || areSixtieths digits

/-- Whether characters are nothing or an exponent with a sign. -/
def isExponent : List Char → Bool
  | [] => true
  | mark :: sign :: digits =>
    (mark == 'e' || mark == 'E') && (sign == '-' || sign == '+') &&
      areSome Char.isDigit digits
  | _ => false

/-- Whether characters are spaced digits and then an exponent, if any. -/
def isFraction (text : List Char) : Bool :=
  isExponent (text.dropWhile isSpacedDigit)

/-- Whether a text is a number with a point. -/
def isFloat (text : List Char) : Bool :=
  let body := unsigned text
  let whole := body.takeWhile (· != '.')
  match body.dropWhile (· != '.') with
  | _ :: fraction =>
    if whole.isEmpty then
      infinityWords.contains (String.ofList fraction) ||
        (body == text &&
          (noNumberWords.contains (String.ofList fraction) ||
            ((fraction.headD '_').isDigit && isFraction fraction)))
    else
      (areSpacedDigits whole && isFraction fraction) ||
        (areSixtieths whole && fraction.all isSpacedDigit)
  | [] => false

/-! ## Days and moments -/

/-- The time of a moment as it is written. -/
structure WrittenTime where
  hour : Nat
  minute : Nat
  second : Nat
  /-- The digits behind the point. -/
  fraction : List Nat
  /-- The offset from universal time in minutes. -/
  offset : Option Int

/-- A day, and perhaps a time, as it is written. -/
structure WrittenDay where
  year : Nat
  month : Nat
  day : Nat
  time : Option WrittenTime

/-- The number at the front of a text, of some least and greatest length. -/
def readDigits (least greatest : Nat) (text : List Char) :
    Option (Nat × List Char) :=
  let digits := (text.takeWhile Char.isDigit).take greatest
  if digits.length < least then none
  else
    some
      (digits.foldl (fun number c => number * 10 + (c.toNat - 48)) 0,
        text.drop digits.length)

/-- A text without a character at its front. -/
def expect (c : Char) : List Char → Option (List Char)
  | first :: rest => if first = c then some rest else none
  | [] => none

/-- An offset without its sign: hours and perhaps minutes, up to the end. -/
def readOffset (text : List Char) : Option Nat := do
  let (hours, rest) ← readDigits 1 2 text
  if rest.isEmpty then return hours * 60
  let (minutes, rest) ← readDigits 2 2 (← expect ':' rest)
  if rest.isEmpty then return hours * 60 + minutes else none

/-- The zone at the end of a moment, if there is one. -/
def readZone (text : List Char) : Option (Option Int) :=
  if text.isEmpty then some none
  else
    match text.dropWhile isSpacing with
    | ['Z'] => some (some 0)
    | '+' :: offset => (readOffset offset).map fun minutes => some minutes
    | '-' :: offset =>
      (readOffset offset).map fun minutes => some (-(minutes : Int))
    | _ => none

/-- The time of a moment, up to the end. -/
def readTime (text : List Char) : Option WrittenTime := do
  let (hour, rest) ← readDigits 1 2 text
  let (minute, rest) ← readDigits 2 2 (← expect ':' rest)
  let (second, rest) ← readDigits 2 2 (← expect ':' rest)
  let (fraction, rest) :=
    match rest with
    | '.' :: after =>
      (after.takeWhile Char.isDigit, after.dropWhile Char.isDigit)
    | _ => ([], rest)
  let offset ← readZone rest
  return ⟨hour, minute, second, fraction.map fun c => c.toNat - 48, offset⟩

/-- What separates a day from a time, left out. -/
def readSeparator : List Char → Option (List Char)
  | 'T' :: rest => some rest
  | 't' :: rest => some rest
  | c :: rest => if isSpacing c then some (rest.dropWhile isSpacing) else none
  | [] => none

/-- The day or moment that a text is. -/
def readDay (text : List Char) : Option WrittenDay := do
  let (year, rest) ← readDigits 4 4 text
  let (month, rest) ← readDigits 1 2 (← expect '-' rest)
  let (day, rest) ← readDigits 1 2 (← expect '-' rest)
  if rest.isEmpty then return ⟨year, month, day, none⟩
  let time ← readTime (← readSeparator rest)
  return ⟨year, month, day, some time⟩

/-- Whether a text is a day in full or a moment. -/
def isTimestamp (text : List Char) : Bool :=
  match readDay text with
  | some written => written.time.isSome || text.length == 10
  | none => false

/-! ## Tags -/

/-- The tag of a text without a line break at its end. -/
def lineTag (text : List Char) : Tag :=
  let word := String.ofList text
  if truthWords.contains word then .bool
  else if nullWords.contains word then .null
  else if word = "<<" then .merge
  else if word = "=" then .value
  else if isFloat text then .float
  else if isInt text then .int
  else if isTimestamp text then .timestamp
  else .text

/-- A text without a single line break behind other characters. -/
def dropFinalBreak (text : List Char) : List Char :=
  if text.getLast? = some '\n' && 1 < text.length then text.dropLast
  else text

/-- The tag of a plain scalar. -/
def resolve (text : String) : Tag := lineTag (dropFinalBreak text.toList)

end ApiAtlas.Yaml
