import ApiAtlas.Number.Shortest

/-!
# The written form of a double-precision number

A number is written with the fewest digits that read back.  Positional
notation is used from `10 ^ -4` up to below `10 ^ 16` and always shows a
fraction; outside that range the number has an exponent of at least two
digits with a sign.
-/

namespace ApiAtlas.Binary64

/-- The words for the numbers that have no digits. -/
structure SpecialNames where
  infinity : String
  notANumber : String

/-- The names used when a number is shown as a value. -/
def SpecialNames.shown : SpecialNames := ⟨"inf", "nan"⟩

/-- The names used inside documents that are exchanged. -/
def SpecialNames.exchanged : SpecialNames := ⟨"Infinity", "NaN"⟩

/-- The least decimal point position written positionally. -/
def positionalFrom : Int := -3

/-- The greatest decimal point position written positionally. -/
def positionalTo : Int := 16

/-- A run of the digit zero. -/
def zeros (count : Nat) : List Char := List.replicate count '0'

/-- The exponent mark with at least two digits. -/
def exponentMark (exponent : Int) : List Char :=
  let digits := Nat.toDigits 10 exponent.natAbs
  let sign := if exponent < 0 then '-' else '+'
  'e' :: sign :: (zeros (2 - digits.length) ++ digits)

/-- Digits with the decimal point after position `point`. -/
def pointedDigits (digits : List Char) (point : Int) : List Char :=
  if point < positionalFrom ∨ positionalTo < point then
    let fraction := digits.drop 1
    digits.take 1 ++
      (if fraction.isEmpty then [] else '.' :: fraction) ++
      exponentMark (point - 1)
  else if point ≤ 0 then
    ['0', '.'] ++ zeros (-point).toNat ++ digits
  else if digits.length ≤ point.toNat then
    digits ++ zeros (point.toNat - digits.length) ++ ['.', '0']
  else
    digits.take point.toNat ++ '.' :: digits.drop point.toNat

/-- The written form of a number. -/
def render (names : SpecialNames) : Binary64 → String
  | .notANumber => names.notANumber
  | .infinite negative => (if negative then "-" else "") ++ names.infinity
  | .finite negative significand exponent =>
    let body :=
      if significand = 0 then ['0', '.', '0']
      else
        let shortest := Shortest.decimal significand exponent
        let digits := Nat.toDigits 10 shortest.digits
        pointedDigits digits (digits.length + shortest.exponent)
    String.ofList (if negative then '-' :: body else body)

/-- The written form of a number shown as a value. -/
def text (number : Binary64) : String := number.render .shown

end ApiAtlas.Binary64
