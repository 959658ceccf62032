import ApiAtlas.Number.Binary64

/-!
# The shortest decimal that reads back

A positive finite number is the nearest representable number to every real in
an interval around it.  `Shortest.decimal` returns the decimal with the fewest
digits in that interval, and of two such decimals the one nearer to the number
itself.  At most two points of a decimal grid can matter: the neighbours of
the number on that grid.
-/

namespace ApiAtlas.Shortest

/-- The decimal `digits * 10 ^ exponent`. -/
structure Decimal where
  digits : Nat
  exponent : Int
deriving DecidableEq, Repr

/--
A positive number as `value / unit`, with the reals that round to it lying
between `lower / unit` and `upper / unit`, ends included when `closed`.
-/
structure Interval where
  lower : Nat
  value : Nat
  upper : Nat
  unit : Nat
  closed : Bool

/-- The interval of reals that round to `significand * 2 ^ exponent`. -/
def intervalOf (significand : Nat) (exponent : Int) : Interval :=
  let narrow :=
    decide (significand = Nat.pow 2 52 ∧ Binary64.leastExponent < exponent)
  let quarters := exponent - 2
  let factor := Nat.pow 2 quarters.toNat
  { lower := (if narrow then 4 * significand - 1 else 4 * significand - 2) * factor
    value := 4 * significand * factor
    upper := (4 * significand + 2) * factor
    unit := Nat.pow 2 (-quarters).toNat
    closed := significand % 2 == 0 }

/-- A natural number times a power of ten, as a fraction. -/
def powerOfTen (amount : Nat) (exponent : Int) : Nat × Nat :=
  if 0 ≤ exponent then (amount * Nat.pow 10 exponent.toNat, 1)
  else (amount, Nat.pow 10 (-exponent).toNat)

/-- Whether a decimal lies in the interval. -/
def Interval.contains (interval : Interval) (decimal : Decimal) : Bool :=
  let scaled := powerOfTen decimal.digits decimal.exponent
  let point := scaled.1 * interval.unit
  let low := interval.lower * scaled.2
  let high := interval.upper * scaled.2
  if interval.closed then low ≤ point && point ≤ high
  else low < point && point < high

/-- The distance of a decimal from the number, in a unit common to its grid. -/
def Interval.distance (interval : Interval) (decimal : Decimal) : Nat :=
  let scaled := powerOfTen decimal.digits decimal.exponent
  let point := scaled.1 * interval.unit
  let centre := interval.value * scaled.2
  (point - centre) + (centre - point)

/-- Whether the number is below `10 ^ power`. -/
def Interval.below (interval : Interval) (power : Int) : Bool :=
  let scaled := powerOfTen 1 power
  interval.value * scaled.2 < scaled.1 * interval.unit

/-- The least power of ten above the number. -/
def Interval.magnitude (interval : Interval) : Int :=
  let bits : Int :=
    (Nat.log2 interval.value : Int) - (Nat.log2 interval.unit : Int)
  let estimate := bits * 1233 / 4096
  ([estimate - 1, estimate, estimate + 1].find? interval.below).getD
    (estimate + 2)

/-- The better of the number's two neighbours on a decimal grid. -/
def Interval.onGrid (interval : Interval) (exponent : Int) : Option Decimal :=
  let scaled := powerOfTen 1 exponent
  let digits := interval.value * scaled.2 / (interval.unit * scaled.1)
  let below : Decimal := ⟨digits, exponent⟩
  let above : Decimal := ⟨digits + 1, exponent⟩
  match interval.contains below, interval.contains above with
  | true, true =>
    let down := interval.distance below
    let up := interval.distance above
    if down < up then some below
    else if up < down then some above
    else if digits % 2 = 0 then some below
    else some above
  | true, false => some below
  | false, true => some above
  | false, false => none

/-- A decimal without trailing zeros among at most `count` of its digits. -/
def Decimal.trim : Nat → Decimal → Decimal
  | 0, decimal => decimal
  | count + 1, decimal =>
    if decimal.digits ≠ 0 ∧ decimal.digits % 10 = 0 then
      Decimal.trim count ⟨decimal.digits / 10, decimal.exponent + 1⟩
    else decimal

/-- The shortest decimal that reads back as `significand * 2 ^ exponent`. -/
def decimal (significand : Nat) (exponent : Int) : Decimal :=
  let interval := intervalOf significand exponent
  let magnitude := interval.magnitude
  let found :=
    (List.range 17).findSome? fun (count : Nat) =>
      interval.onGrid (magnitude - (count : Int) - 1)
  (found.getD ⟨0, 0⟩).trim 20

end ApiAtlas.Shortest
