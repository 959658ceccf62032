/-!
# Double-precision numbers as exact data

A number is kept as a sign, a whole significand and a power of two, so that
every operation on it is a statement about natural numbers.  The canonical
finite forms are those produced by `Binary64.round`: a significand below
`2 ^ 53`, which is at least `2 ^ 52` unless the exponent is the least one.

`Binary64.round` is the only place where precision is lost: it takes the
nearest representable number to an exact quotient, and an exact half goes to
the even significand.
-/

namespace ApiAtlas

/-- A double-precision number. -/
inductive Binary64 where
  /-- The number `± significand * 2 ^ exponent`. -/
  | finite (negative : Bool) (significand : Nat) (exponent : Int)
  /-- A number too large in magnitude. -/
  | infinite (negative : Bool)
  /-- The result that is not a number. -/
  | notANumber
deriving DecidableEq, Repr, Inhabited

namespace Binary64

/-- The least exponent of a finite number. -/
def leastExponent : Int := -1074

/-- The greatest exponent of a finite number. -/
def greatestExponent : Int := 971

/-- Zero with the given sign. -/
def zero (negative : Bool) : Binary64 :=
  .finite negative 0 leastExponent

/-- The nearest whole number to a quotient, an exact half going to even. -/
def nearestQuotient (numerator denominator : Nat) : Nat :=
  let quotient := numerator / denominator
  let twice := 2 * (numerator % denominator)
  if twice < denominator then quotient
  else if denominator < twice then quotient + 1
  else if quotient % 2 = 0 then quotient
  else quotient + 1

/-- The quotient `numerator / (denominator * 2 ^ exponent)` as a fraction. -/
def scaleDown
    (numerator denominator : Nat) (exponent : Int) :
    Nat × Nat :=
  if 0 ≤ exponent then
    (numerator, denominator * Nat.pow 2 exponent.toNat)
  else
    (numerator * Nat.pow 2 (-exponent).toNat, denominator)

/-- The exponent of the binary grid on which a positive quotient is rounded. -/
def gridExponent (numerator denominator : Nat) : Int :=
  let estimate : Int :=
    (Nat.log2 numerator : Int) - (Nat.log2 denominator : Int) - 52
  let scaled := scaleDown numerator denominator estimate
  let exponent :=
    if scaled.1 < scaled.2 * Nat.pow 2 52 then estimate - 1 else estimate
  max exponent leastExponent

/-- The nearest representable number to `± numerator / denominator`. -/
def round (negative : Bool) (numerator denominator : Nat) : Binary64 :=
  if numerator = 0 then zero negative
  else
    let exponent := gridExponent numerator denominator
    let scaled := scaleDown numerator denominator exponent
    let significand := nearestQuotient scaled.1 scaled.2
    let carried := decide (significand = Nat.pow 2 53)
    let significand := if carried then Nat.pow 2 52 else significand
    let exponent := if carried then exponent + 1 else exponent
    if greatestExponent < exponent then .infinite negative
    else .finite negative significand exponent

/--
The nearest representable number to `± digits * 10 ^ exponent`.  Exponents far
outside the range are settled by the count of digits, so that no large power
is formed.
-/
def ofDecimal (negative : Bool) (digits : Nat) (exponent : Int) : Binary64 :=
  if digits = 0 then zero negative
  else
    let magnitude : Int := (Nat.log2 digits : Int) * 3 / 10 + exponent
    if 400 < magnitude then .infinite negative
    else if magnitude + (Nat.log2 digits : Int) < -400 then zero negative
    else if 0 ≤ exponent then
      round negative (digits * Nat.pow 10 exponent.toNat) 1
    else
      round negative digits (Nat.pow 10 (-exponent).toNat)

/-- The nearest representable number to a whole number. -/
def ofInt (value : Int) : Binary64 :=
  round (decide (value < 0)) value.natAbs 1

/-- The number that a sign, a significand and an exponent stand for, rounded. -/
def ofDyadic (significand : Int) (exponent : Int) : Binary64 :=
  let negative := decide (significand < 0)
  if 0 ≤ exponent then
    round negative (significand.natAbs * Nat.pow 2 exponent.toNat) 1
  else
    round negative significand.natAbs (Nat.pow 2 (-exponent).toNat)

/-- The significand with its sign. -/
def signed (negative : Bool) (significand : Nat) : Int :=
  if negative then -(significand : Int) else significand

/-- The rounded sum.  Zeros of one sign keep it; other zero sums are positive. -/
def add : Binary64 → Binary64 → Binary64
  | .finite n s e, .finite n' s' e' =>
    if s = 0 ∧ s' = 0 then zero (n && n')
    else
      let least := min e e'
      ofDyadic
        (signed n s * Int.pow 2 (e - least).toNat +
          signed n' s' * Int.pow 2 (e' - least).toNat)
        least
  | .infinite n, .infinite n' => if n = n' then .infinite n else .notANumber
  | .notANumber, _ => .notANumber
  | _, .notANumber => .notANumber
  | .infinite n, .finite .. => .infinite n
  | .finite .., .infinite n => .infinite n

/-- The rounded product. -/
def mul : Binary64 → Binary64 → Binary64
  | .finite n s e, .finite n' s' e' =>
    let negative := n != n'
    let exponent := e + e'
    if 0 ≤ exponent then
      round negative (s * s' * Nat.pow 2 exponent.toNat) 1
    else
      round negative (s * s') (Nat.pow 2 (-exponent).toNat)
  | .notANumber, _ => .notANumber
  | _, .notANumber => .notANumber
  | .infinite n, .finite n' s _ =>
    if s = 0 then .notANumber else .infinite (n != n')
  | .finite n s _, .infinite n' =>
    if s = 0 then .notANumber else .infinite (n != n')
  | .infinite n, .infinite n' => .infinite (n != n')

/-- The number with the other sign. -/
def negate : Binary64 → Binary64
  | .finite n s e => .finite (!n) s e
  | .infinite n => .infinite (!n)
  | .notANumber => .notANumber

/-- Whether the number is a zero of either sign. -/
def isZero : Binary64 → Bool
  | .finite _ s _ => s == 0
  | _ => false

/-- Whether the number is too large in magnitude. -/
def isInfinite : Binary64 → Bool
  | .infinite _ => true
  | _ => false

/-- The whole number that this one equals, if it is whole. -/
def toInt? : Binary64 → Option Int
  | .finite n s e =>
    if 0 ≤ e then some (signed n (s * Nat.pow 2 e.toNat))
    else
      let unit := Nat.pow 2 (-e).toNat
      if s % unit = 0 then some (signed n (s / unit)) else none
  | _ => none

/-- Whether two numbers are equal in value: zeros of both signs are one value. -/
def sameValue : Binary64 → Binary64 → Bool
  | .finite n s e, .finite n' s' e' =>
    (s == 0 && s' == 0) || (n == n' && s == s' && e == e')
  | .infinite n, .infinite n' => n == n'
  | _, _ => false

end Binary64

end ApiAtlas
