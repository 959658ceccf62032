import ApiAtlas.Number.Binary64
import ApiAtlas.Text.Blank
import ApiAtlas.Text.DecimalDigit
import ApiAtlas.Text.Quoted

/-!
# Numbers written in text

The numbers that a user writes: white space around them is ignored, decimal
digits of any script are digits, and a single underscore may stand between two
digits.  A whole number has at most `digitLimit` digits.
-/

namespace ApiAtlas.Text

/-- The greatest number of digits of a whole number that is read from text. -/
def digitLimit : Nat := 4300

/-- Why a text is not a number. -/
inductive NumeralFault where
  /-- The text is no whole number in the given base. -/
  | notWhole (base : Nat) (text : String)
  /-- The text is no number. -/
  | notNumber (text : String)
  /-- The number has more digits than are read. -/
  | tooManyDigits (count : Nat)
deriving DecidableEq, Repr

/-- The longest part of a quoted text that is shown as no whole number. -/
def shownNumeralLength : Nat := 200

/-- The wording of a fault. -/
def NumeralFault.message : NumeralFault → String
  | .notWhole base text =>
    "invalid literal for int() with base " ++ toString base ++ ": " ++
      String.ofList ((quoted text).toList.take shownNumeralLength)
  | .notNumber text => "could not convert string to float: " ++ quoted text
  | .tooManyDigits count =>
    "Exceeds the limit (" ++ toString digitLimit ++
      " digits) for integer string conversion: value has " ++
      toString count ++
      " digits; use sys.set_int_max_str_digits() to increase the limit"

/-- The number that decimal digits stand for. -/
def numberOfDigits (digits : List Nat) : Nat :=
  digits.foldl (fun number digit => number * 10 + digit) 0

/--
Whether a character is passed over at the ends of a number.  The information
separators are white space in running text but not here.
-/
def isNumeralBlank (c : Char) : Bool :=
  isBlank c && !(28 ≤ c.toNat && c.toNat ≤ 31)

/-- A character with a decimal digit of any script put in basic form. -/
def plainDigit (c : Char) : Char :=
  match digitValue? c with
  | some value => Char.ofNat (48 + value)
  | none => c

/-- The characters of a written number, with blanks at the ends removed. -/
def numeralCharacters (text : String) : List Char :=
  trimBy isNumeralBlank (text.toList.map plainDigit)

/-- The sign in front of a number, if there is one. -/
def splitSign : List Char → Bool × List Char
  | '-' :: rest => (true, rest)
  | '+' :: rest => (false, rest)
  | characters => (false, characters)

/-! ## Whole numbers -/

/--
The digits at the front of a text in which a single underscore may stand
between two digits, and what follows them; nothing when two underscores meet
or an underscore ends the digits.
-/
def splitDigits : List Char → Option (List Nat × List Char)
  | [] => some ([], [])
  | '_' :: rest =>
    match rest with
    | c :: _ => if c.isDigit then splitDigits rest else none
    | [] => none
  | c :: rest =>
    if c.isDigit then
      (splitDigits rest).map fun found =>
        ((c.toNat - 48) :: found.1, found.2)
    else some ([], c :: rest)

/-- The number that the digits of a text stand for, which have no sign. -/
def readMagnitude (text : String) (body : List Char) :
    Except NumeralFault Nat :=
  let fault : NumeralFault := .notWhole 10 text
  if body.head? = some '_' then .error fault
  else
    match splitDigits body with
    | none => .error fault
    | some (digits, rest) =>
      if digitLimit < digits.length then
        .error (.tooManyDigits digits.length)
      else if digits.isEmpty || !rest.isEmpty then .error fault
      else .ok (numberOfDigits digits)

/-- The whole number that a text stands for. -/
def readWhole (text : String) : Except NumeralFault Int :=
  let (negative, body) := splitSign (numeralCharacters text)
  (readMagnitude text body).map fun magnitude : Nat =>
    if negative then -(magnitude : Int) else magnitude

/-! ## Numbers with a fraction -/

/--
A text without the underscores that stand between two digits; nothing when
an underscore stands anywhere else.
-/
def joinDigits (afterDigit : Bool) : List Char → Option (List Char)
  | [] => some []
  | '_' :: rest =>
    match rest with
    | c :: _ =>
      if afterDigit && c.isDigit then joinDigits false rest else none
    | [] => none
  | c :: rest => (joinDigits c.isDigit rest).map (c :: ·)

/-- The digits of a text up to the first character that is none. -/
def leadingDigits (characters : List Char) : List Nat × List Char :=
  ((characters.takeWhile Char.isDigit).map fun c => c.toNat - 48,
    characters.dropWhile Char.isDigit)

/-- The exponent that ends a number; an absent one is zero. -/
def readExponent : List Char → Option Int
  | [] => some 0
  | mark :: rest =>
    if mark = 'e' ∨ mark = 'E' then
      let (negative, body) := splitSign rest
      let (digits, after) := leadingDigits body
      if digits.isEmpty || !after.isEmpty then none
      else
        let magnitude : Int := numberOfDigits digits
        some (if negative then -magnitude else magnitude)
    else none

/-- The number that unsigned decimal notation stands for. -/
def readPointed (negative : Bool) (characters : List Char) :
    Option Binary64 := do
  let (whole, rest) := leadingDigits characters
  let (fraction, rest) :=
    match rest with
    | '.' :: after => leadingDigits after
    | _ => ([], rest)
  if whole.isEmpty && fraction.isEmpty then none
  let exponent ← readExponent rest
  return Binary64.ofDecimal negative (numberOfDigits (whole ++ fraction))
    (exponent - fraction.length)

/-- The numbers that are written as words. -/
def readNumberWord (negative : Bool) (characters : List Char) :
    Option Binary64 :=
  let word := String.ofList (characters.map Char.toLower)
  if word = "inf" ∨ word = "infinity" then some (.infinite negative)
  else if word = "nan" then some .notANumber
  else none

/-- The number that a text stands for. -/
def readNumber (text : String) : Except NumeralFault Binary64 :=
  let found := do
    let characters ← joinDigits false (numeralCharacters text)
    let (negative, body) := splitSign characters
    match readNumberWord negative body with
    | some number => some number
    | none => readPointed negative body
  match found with
  | some number => .ok number
  | none => .error (.notNumber text)

end ApiAtlas.Text
