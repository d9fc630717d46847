import PolicyEngine.Json.Printer
import PolicyEngine.Json.Parser

/-!
# Exact decimals

Numbers of the form `c · 10^e`, on which rules calculate without rounding. A decimal in lowest form
has no trailing zeros in its coefficient, so equal numbers are the same decimal.

## Main definitions

* `PolicyEngine.Decimal`, `PolicyEngine.Decimal.normal`.
* `PolicyEngine.Decimal.text` — all digits in positional notation.
* `PolicyEngine.Decimal.ofNumber`, `PolicyEngine.Decimal.toNumber?` — decimals and JSON numbers.
-/

namespace PolicyEngine

/-- The number `coefficient · 10^exponent`. -/
structure Decimal where
  coefficient : Int
  exponent : Int := 0
deriving DecidableEq, Repr, Inhabited

namespace Decimal

/-- Move trailing zeros of a coefficient into the exponent, at most as many as a bound. -/
def stripZeros : Nat → Int → Int → Decimal
  | 0, c, e => ⟨c, e⟩
  | n + 1, c, e => if c % 10 == 0 then stripZeros n (c / 10) (e + 1) else ⟨c, e⟩

/-- The decimal in lowest form with the value `c · 10^e`. -/
def normal (c e : Int) : Decimal :=
  if c == 0 then ⟨0, 0⟩ else stripZeros (Nat.toDigits 10 c.natAbs).length c e

/-- A whole number. -/
def ofInt (n : Int) : Decimal := normal n 0

/-- An integer times a power of ten. -/
def scale (c : Int) (e : Nat) : Int := c * (Nat.pow 10 e : Nat)

/-- The coefficients of two decimals at their smaller exponent. -/
def align (a b : Decimal) : Int × Int × Int :=
  let e := min a.exponent b.exponent
  (scale a.coefficient (a.exponent - e).toNat, scale b.coefficient (b.exponent - e).toNat, e)

instance : Ord Decimal where
  compare a b :=
    let (x, y, _) := align a b
    compare x y

/-- The value as a whole number, if it is one. -/
def toInt? (d : Decimal) : Option Int :=
  if 0 ≤ d.exponent then some (scale d.coefficient d.exponent.toNat) else none

/-- The decimal with the shortest digits of a double. -/
def ofDouble (x : Double) : Decimal :=
  let (c, e) := x.shortest
  normal (if x.negative then -(c : Int) else c) e

/-- The decimal that a JSON number is to rules, which read numbers from their texts: an integer is
exact, and a double is read anew and then stands for its shortest digits. -/
def ofNumber (n : Number) : Decimal :=
  match ((Json.readNumber? n.render.toList).map (·.1)).getD n with
  | .integer n => ofInt n
  | .double x => ofDouble x

/-! ### Positional notation -/

/-- The digits of a decimal before and behind the point, without an exponent. -/
def literal (d : Decimal) : Json.Literal :=
  let digits := Nat.toDigits 10 d.coefficient.natAbs
  let negative : Bool := d.coefficient < 0
  if 0 ≤ d.exponent then
    { negative, whole := digits ++ List.replicate d.exponent.toNat '0' }
  else
    let places := (-d.exponent).toNat
    if places < digits.length then
      { negative
        whole := digits.take (digits.length - places)
        fraction := digits.drop (digits.length - places) }
    else
      { negative
        whole := ['0']
        fraction := List.replicate (places - digits.length) '0' ++ digits }

/-- The text of a decimal with all its digits. -/
def text (d : Decimal) : String := d.literal.text

/-- The JSON number that the digits of a decimal denote, unless they denote none. -/
def toNumber? (d : Decimal) : Option Number := d.literal.number?

end Decimal

end PolicyEngine
