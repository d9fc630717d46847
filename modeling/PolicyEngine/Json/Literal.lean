import PolicyEngine.Json.Basic

/-!
# Number literals

The number that a JSON literal denotes. Reading is quick rather than exact: as many leading digits
as fit a word of 64 bits are taken, the others only move the power of ten, and the word is then
multiplied or divided by that power as a double. Each of these steps rounds, so a literal of many
digits or with a large exponent can denote a neighbour of the double that is nearest to it.

## Main definitions

* `PolicyEngine.Json.Literal` — a literal cut into its parts.
* `PolicyEngine.Json.Literal.number?` — the number it denotes.
-/

namespace PolicyEngine.Json

/-- The value of a decimal digit. -/
def digitValue (d : Char) : Nat := d.toNat - '0'.toNat

/-- The value of decimal digits, most significant first. -/
def digitsValue (ds : List Char) : Nat := ds.foldl (fun n d => 10 * n + digitValue d) 0

/-- The least integer of 64 bits. -/
def minInteger : Int := -(Nat.pow 2 63 : Nat)

/-- The greatest word of 64 bits. -/
def maxWord : Nat := Nat.pow 2 64 - 1

/-- Whether an integer is written as such, being one of 64 bits with or without a sign. -/
def isWordSized (n : Int) : Bool := minInteger ≤ n && n ≤ maxWord

/-- A number literal cut into its parts. A literal with a point has digits behind it. -/
structure Literal where
  negative : Bool := false
  /-- The digits before the point. -/
  whole : List Char
  /-- The digits behind the point; none when there is no point. -/
  fraction : List Char := []
  exponent : Option Int := none
deriving DecidableEq, Repr

/-- Append digits to a word up to the first that does not fit; with the number of
digits appended. -/
def appendDigits (word : Nat) : List Char → Nat × Nat
  | [] => (word, 0)
  | d :: rest =>
    if 10 * word + digitValue d ≤ maxWord then
      let (word, taken) := appendDigits (10 * word + digitValue d) rest
      (word, taken + 1)
    else (word, 0)

namespace Literal

/-- Whether there is neither a point nor an exponent. -/
def isPlain (l : Literal) : Bool := l.fraction.isEmpty && l.exponent.isNone

/-- The leading digits as a word, with the power of ten that goes with them. Whole digits that do
not fit raise the power, and fraction digits that do not fit are dropped. -/
def leading (l : Literal) : Nat × Int :=
  let (word, taken) := appendDigits 0 l.whole
  let (word, places) := appendDigits word l.fraction
  (word, (l.whole.length - taken : Nat) - (places : Int) + l.exponent.getD 0)

/-- The number that a literal denotes. A plain integer of 64 bits stays an integer, other than a
negative zero; everything else is a double, unless it is beyond the greatest finite one. -/
def number? (l : Literal) : Option Number :=
  let (word, power) := l.leading
  let value : Int := if l.negative then -(word : Int) else word
  if l.isPlain && power == 0 && isWordSized value && !(l.negative && word == 0) then
    some (.integer value)
  else do
    let x ← (← Double.ofNat? word).timesTenTo? power
    return .double (if l.negative then x.negate else x)

/-- The text of a literal. -/
def text (l : Literal) : String :=
  let sign := if l.negative then ['-'] else []
  let point := if l.fraction.isEmpty then [] else '.' :: l.fraction
  let exponent := (l.exponent.map fun e => 'e' :: (toString e).toList).getD []
  String.ofList (sign ++ l.whole ++ point ++ exponent)

end Literal

end PolicyEngine.Json
