import ApiAtlas.Text.LetterCase
import ApiAtlas.Text.Numeral
import ApiAtlas.Yaml.Resolution

/-!
# Numbers of YAML

The numbers that scalars tagged as numbers stand for.  Underscores count for
nothing.  A whole number is written in base two, eight, ten or sixteen by its
first characters; parts between colons are digits in base sixty.  A tag may
claim that any text is a number, so reading may fail.
-/

namespace ApiAtlas.Yaml

/-- The value of a digit or letter as a digit of a large base. -/
def digitOf? (c : Char) : Option Nat :=
  if c.isDigit then some (c.toNat - 48)
  else if c.isAlpha then some (c.toLower.toNat - 87)
  else none

/-- The letter that marks a base behind a zero. -/
def baseLetter (base : Nat) : Char :=
  if base = 2 then 'b' else if base = 8 then 'o' else 'x'

/-- Digits without the mark of their base. -/
def dropBase (base : Nat) : List Char → List Char
  | '0' :: c :: rest =>
    if c.toLower = baseLetter base then rest else '0' :: c :: rest
  | digits => digits

/-- The number that digits of a base stand for. -/
def numberInBase? (base : Nat) (digits : List Char) : Option Nat :=
  if digits.isEmpty then none
  else
    digits.foldlM
      (fun number c =>
        match digitOf? c with
        | some digit =>
          if digit < base then some (number * base + digit) else none
        | none => none)
      0

/-- The whole number that a text in some base stands for. -/
def readInBase (base : Nat) (text : List Char) :
    Except Text.NumeralFault Int :=
  let shown := String.ofList text
  let (negative, body) := Text.splitSign (Text.numeralCharacters shown)
  match numberInBase? base (dropBase base body) with
  | some number => .ok (if negative then -(number : Int) else number)
  | none => .error (.notWhole base shown)

/-- The numbers of parts between colons. -/
def readParts {α : Type} (read : String → Except Text.NumeralFault α)
    (text : List Char) : Except Text.NumeralFault (List α) :=
  (Text.splitAt ':' text).mapM fun part => read (String.ofList part)

/-- The whole number of digits in base sixty, the last one weighing least. -/
def sixtyfold (digits : List Int) : Int :=
  digits.foldl (fun number digit => number * 60 + digit) 0

/-- A digit in base sixty with its weight, which may be too large. -/
def weighted (digit : Binary64) (weight : Nat) : Except Fault Binary64 :=
  let factor := Binary64.ofInt weight
  if factor.isInfinite then misused .overflow else .ok (digit.mul factor)

/-- The number of digits in base sixty, added up from the last one. -/
def sixtyfoldNumber (digits : List Binary64) : Except Fault Binary64 := do
  let (sum, _) ← digits.reverse.foldlM
    (fun (found : Binary64 × Nat) digit => do
      return (found.1.add (← weighted digit found.2), found.2 * 60))
    (Binary64.zero false, 1)
  return sum

/-- A text without underscores. -/
def dropUnderscores (text : String) : List Char :=
  text.toList.filter (· ≠ '_')

/-- A whole number without its sign. -/
def readMagnitude (text : List Char) : Except Fault Int :=
  match text with
  | [] => misused .missingPosition
  | ['0'] => .ok 0
  | '0' :: 'b' :: digits => (readInBase 2 digits).mapError .numeral
  | '0' :: 'x' :: digits => (readInBase 16 digits).mapError .numeral
  | '0' :: _ => (readInBase 8 text).mapError .numeral
  | _ =>
    if text.contains ':' then
      ((readParts Text.readWhole text).map sixtyfold).mapError .numeral
    else (Text.readWhole (String.ofList text)).mapError .numeral

/-- The whole number that a text stands for. -/
def readInt (text : String) : Except Fault Int :=
  match dropUnderscores text with
  | [] => misused .missingPosition
  | '-' :: body => (readMagnitude body).map fun number => -number
  | '+' :: body => readMagnitude body
  | body => readMagnitude body

/-- The word for no number. -/
def noNumberWord : List Char := ".nan".toList

/-- A number with a point without its sign. -/
def readAmount (text : List Char) : Except Fault Binary64 :=
  if text = ".inf".toList then .ok (.infinite false)
  else if text = noNumberWord then .ok .notANumber
  else if text.contains ':' then do
    sixtyfoldNumber (← (readParts Text.readNumber text).mapError .numeral)
  else (Text.readNumber (String.ofList text)).mapError .numeral

/-- The characters that count in a number with a point. -/
def floatCharacters (text : String) : List Char :=
  (Text.toSmall (String.ofList (dropUnderscores text))).toList

/-- Whether a text is the word for no number, with a sign or without. -/
def isNoNumber (text : String) : Bool :=
  unsigned (floatCharacters text) == noNumberWord

/-- The number with a point that a text stands for. -/
def readFloat (text : String) : Except Fault Binary64 :=
  match floatCharacters text with
  | [] => misused .missingPosition
  | '-' :: body => (readAmount body).map Binary64.negate
  | '+' :: body => readAmount body
  | body => readAmount body

end ApiAtlas.Yaml
