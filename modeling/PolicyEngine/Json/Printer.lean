import PolicyEngine.Json.Basic

/-!
# Compact JSON text

The text of a value without blanks: members in their order, numbers as integers or by their shortest
digits, and only quotes, backslashes and controls escaped.

## Main definitions

* `PolicyEngine.FloatLayout` — where a decimal is written with an exponent.
* `PolicyEngine.Double.render`, `PolicyEngine.Json.render`.
-/

namespace PolicyEngine

/-- The choices of a notation for decimals. -/
structure FloatLayout where
  /-- The least power of ten of a leading digit that is written without an exponent. -/
  leastPositional : Int
  /-- The least power of ten of a leading digit above which an exponent is written again. -/
  leastScientific : Int
  /-- What stands before a positive exponent. -/
  exponentPlus : String

/-- JSON numbers are written without an exponent from `0.00001` up to below `10^16`. -/
def Json.floatLayout : FloatLayout := ⟨-5, 16, "+"⟩

namespace Double

/-- A decimal `digits · 10^k` in a notation that always shows a point or an exponent. -/
def layoutDecimal (layout : FloatLayout) (digits : Nat) (k : Int) : String :=
  let ds := Nat.toDigits 10 digits
  let power : Int := k + ds.length - 1
  let withPoint (whole fraction : List Char) : String :=
    String.ofList (whole ++ '.' :: fraction)
  if power < layout.leastPositional || layout.leastScientific ≤ power then
    let mantissa :=
      if ds.length ≤ 1 then String.ofList ds else withPoint (ds.take 1) (ds.drop 1)
    let sign := if power < 0 then "-" else layout.exponentPlus
    mantissa ++ "e" ++ sign ++ toString power.natAbs
  else if 0 ≤ k then withPoint (ds ++ List.replicate k.toNat '0') ['0']
  else if 0 ≤ power then withPoint (ds.take (power.toNat + 1)) (ds.drop (power.toNat + 1))
  else withPoint ['0'] (List.replicate ((-power).toNat - 1) '0' ++ ds)

/-- The text of the fewest digits that determine the number. -/
def render (x : Double) : String :=
  let (digits, k) := x.shortest
  (if x.negative then "-" else "") ++ layoutDecimal Json.floatLayout digits k

end Double

namespace Number

/-- The text of a number. -/
def render : Number → String
  | integer n => toString n
  | double x => x.render

end Number

namespace Json

/-- A hexadecimal digit. -/
def hexDigit (n : Nat) : Char := (Nat.toDigits 16 n).headD '0'

/-- The characters that stand for one character inside a JSON string. -/
def escapeChar (c : Char) : List Char :=
  match c with
  | '"' => ['\\', '"']
  | '\\' => ['\\', '\\']
  | '\n' => ['\\', 'n']
  | '\r' => ['\\', 'r']
  | '\t' => ['\\', 't']
  | '\x08' => ['\\', 'b']
  | '\x0c' => ['\\', 'f']
  | c =>
    if c.toNat < 0x20 then ['\\', 'u', '0', '0', hexDigit (c.toNat / 16), hexDigit (c.toNat % 16)]
    else [c]

/-- A JSON string literal. -/
def renderString (s : String) : String :=
  String.ofList ('"' :: s.toList.flatMap escapeChar ++ ['"'])

mutual

/-- The compact text of a value. -/
def render : Json → String
  | .null => "null"
  | .bool b => if b then "true" else "false"
  | .num n => n.render
  | .str s => renderString s
  | .arr elements => "[" ++ ",".intercalate (renderElements elements) ++ "]"
  | .obj members => "\x7b" ++ ",".intercalate (renderMembers members) ++ "\x7d"

/-- The texts of elements. -/
def renderElements : List Json → List String
  | [] => []
  | v :: rest => render v :: renderElements rest

/-- The texts of members. -/
def renderMembers : List (String × Json) → List String
  | [] => []
  | (k, v) :: rest => (renderString k ++ ":" ++ render v) :: renderMembers rest

end

end Json

end PolicyEngine
