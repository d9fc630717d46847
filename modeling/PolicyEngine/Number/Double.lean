/-!
# Double-precision numbers

Numbers of the form `±m · 2^q` with at most 53 significant bits, held exactly, and the nearest such
number to a fraction. Zero has a sign, which shows when it is written but not when it is compared.

## Main definitions

* `PolicyEngine.Double` — a sign, a significand and a binary exponent.
* `PolicyEngine.Double.ofRatio?` — the nearest number to a fraction, unless that overflows.
* `PolicyEngine.Double.timesTenTo?` — a number scaled by a power of ten, rounded at each step.
* `PolicyEngine.Double.shortest` — the fewest decimal digits that determine the number.
-/

namespace PolicyEngine

/-- The number `±significand · 2^exponent`. The significand has 53 bits, or fewer at the least
exponent `-1074`. -/
structure Double where
  /-- Whether the number carries a minus sign. -/
  negative : Bool
  /-- The significant bits. -/
  significand : Nat
  /-- The weight of the last significant bit, as a power of two. -/
  exponent : Int
deriving DecidableEq, Repr, Inhabited

namespace Double

/-- The weight of the last bit of the least positive number. -/
def minExponent : Int := -1074

/-- The weight of the last bit of the greatest finite number. -/
def maxExponent : Int := 971

/-- The least significand with 53 bits. -/
def leadingBit : Nat := Nat.pow 2 52

/-- Zero with a sign. -/
def zero (negative : Bool) : Double := ⟨negative, 0, minExponent⟩

/-- Whether the number is zero of either sign. -/
def isZero (x : Double) : Bool := x.significand == 0

/-- Equality of values: the two zeros are equal. -/
instance : BEq Double where
  beq x y := (x.isZero && y.isZero) || decide (x = y)

/-- Whether the number has no fractional part. -/
def isInteger (x : Double) : Bool :=
  0 ≤ x.exponent || x.significand % Nat.pow 2 x.exponent.natAbs == 0

/-- The quotient rounded to the nearest natural number, a half to the even one. -/
def roundDiv (num den : Nat) : Nat :=
  let quotient := num / den
  let twice := 2 * (num % den)
  if den < twice || (twice == den && quotient % 2 == 1) then quotient + 1 else quotient

/-- A power with a positive exponent as a factor above the fraction bar. -/
def powAbove (base : Nat) (e : Int) : Nat := base.pow e.toNat

/-- A power with a negative exponent as a factor below the fraction bar. -/
def powBelow (base : Nat) (e : Int) : Nat := base.pow (-e).toNat

/-- The nearest number to a positive fraction, a half to the even significand. -/
def ofFraction? (negative : Bool) (num den : Nat) : Option Double :=
  let low : Int := num.log2 - den.log2 - 53
  let scaled (q : Int) : Nat × Nat := (num * powBelow 2 q, den * powAbove 2 q)
  let fits (q : Int) : Bool := (scaled q).1 / (scaled q).2 < leadingBit * 2
  let q := max minExponent (if fits low then low else if fits (low + 1) then low + 1 else low + 2)
  let m := roundDiv (scaled q).1 (scaled q).2
  let (m, q) := if m == leadingBit * 2 then (leadingBit, q + 1) else (m, q)
  if maxExponent < q then none
  else if m == 0 then some (zero negative)
  else some ⟨negative, m, q⟩

/-- The nearest number to a fraction, or nothing when it is beyond the greatest finite one. -/
def ofRatio? (negative : Bool) (num den : Nat) : Option Double :=
  if num == 0 then some (zero negative) else ofFraction? negative num den

/-- The nearest number to a natural number. -/
def ofNat? (n : Nat) : Option Double := ofRatio? false n 1

/-- The number with the other sign. -/
def negate (x : Double) : Double := { x with negative := !x.negative }

/-- The product, rounded. -/
def mul? (x y : Double) : Option Double :=
  let e := x.exponent + y.exponent
  ofRatio? (x.negative != y.negative) (x.significand * y.significand * powAbove 2 e) (powBelow 2 e)

/-- The quotient by a number other than zero, rounded. -/
def div? (x y : Double) : Option Double :=
  let e := x.exponent - y.exponent
  ofRatio? (x.negative != y.negative) (x.significand * powAbove 2 e) (y.significand * powBelow 2 e)

/-- The exponent of the greatest power of ten that is a number. -/
def maxTenPower : Nat := 308

/-- The nearest number to a power of ten. -/
def tenTo? (e : Nat) : Option Double := ofNat? (Nat.pow 10 e)

/-- The number times a power of ten: multiplied by one power, divided by one, or divided by two when
one is not enough; nothing when that is beyond the greatest finite number. Two divisions take every
number that is below `10^20` to zero if the power is too small for them. -/
def timesTenTo? (x : Double) (e : Int) : Option Double :=
  if x.isZero then some x
  else if maxTenPower < e then none
  else if 0 ≤ e then do
    x.mul? (← tenTo? e.toNat)
  else if -maxTenPower ≤ e then do
    x.div? (← tenTo? (-e).toNat)
  else do
    let y ← x.div? (← tenTo? maxTenPower)
    y.div? (← tenTo? (min maxTenPower ((-e).toNat - maxTenPower)))

/-- The `e` with `10^e ≤ num / den < 10^(e + 1)`, for a positive fraction of double precision. -/
def decimalMagnitude (num den : Nat) : Int :=
  if den ≤ num then (Nat.toDigits 10 (num / den)).length - 1
  else
    match (List.range 400).find? fun j => den ≤ num * Nat.pow 10 j with
    | some j => -(j : Int)
    | none => -400

/-- The decimal `(c, k)`, standing for `c · 10^k`, with the fewest digits that is nearer to the
number's absolute value than to that of any other number; of two with equally few digits the nearer
one, and of two equally near ones the even one. -/
def shortest (x : Double) : Nat × Int :=
  if x.isZero then (0, 0)
  else
    -- in units of a quarter of the last bit
    let centre := 4 * x.significand
    let unit := x.exponent - 2
    let below := if x.significand == leadingBit && minExponent < x.exponent then 1 else 2
    let low := centre - below
    let high := centre + 2
    let closed := x.significand % 2 == 0
    let top := decimalMagnitude (centre * powAbove 2 unit) (powBelow 2 unit)
    let onGrid (digits : Nat) : Option (Nat × Int) :=
      let k : Int := top - digits + 1
      let a := powAbove 10 k * powBelow 2 unit
      let b := powAbove 2 unit * powBelow 10 k
      let inside (c : Nat) : Bool :=
        if closed then low * b ≤ c * a && c * a ≤ high * b else low * b < c * a && c * a < high * b
      let down := centre * b / a
      let up := down + 1
      let gapDown := centre * b - down * a
      let gapUp := up * a - centre * b
      let preferUp := gapUp < gapDown || (gapUp == gapDown && up % 2 == 0)
      let round := if up == Nat.pow 10 digits then (1, k + digits) else (up, k)
      match inside down, inside up with
      | true, true => some (if preferUp then round else (down, k))
      | true, false => some (down, k)
      | false, true => some round
      | false, false => none
    ((List.range' 1 17).findSome? onGrid).getD (x.significand, x.exponent)

end Double

end PolicyEngine
