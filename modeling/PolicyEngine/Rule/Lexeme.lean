import PolicyEngine.Number.Decimal
import PolicyEngine.RuleText.CodeView

/-!
# Lexemes of rule sources

A source cut into words, numbers, texts and symbols. A lexeme remembers whether blanks or a line end
stand before it: indexing follows its operand directly, and a line end can end a condition.

## Main definitions

* `PolicyEngine.Rule.Token`, `PolicyEngine.Rule.Lexeme`.
* `PolicyEngine.Rule.lex?` — the lexemes of a source.
-/

namespace PolicyEngine.Rule

/-- A unit of a rule source. -/
inductive Token where
  | word (name : String)
  | number (value : Decimal)
  | text (value : String)
  | symbol (spelling : String)
deriving DecidableEq, Repr

/-- A token with what stands before it. -/
structure Lexeme where
  token : Token
  /-- Whether blanks or a line end stand before the token. -/
  spaced : Bool
  /-- Whether a line end stands before the token. -/
  newLine : Bool
deriving DecidableEq, Repr

/-- The symbols of two characters. Every other character is a symbol of its own. -/
def longSymbols : List (List Char) :=
  [":=".toList, "==".toList, "!=".toList, "<=".toList, ">=".toList]

/-- Read digits with an optional fraction and exponent as an exact number. -/
def readDecimal (cs : List Char) : Decimal × List Char :=
  let whole := cs.takeWhile Char.isDigit
  let rest := cs.dropWhile Char.isDigit
  let (fraction, rest) :=
    match rest with
    | '.' :: d :: more =>
      if d.isDigit then ((d :: more).takeWhile Char.isDigit, (d :: more).dropWhile Char.isDigit)
      else ([], rest)
    | _ => ([], rest)
  let (exponent, rest) : Int × List Char :=
    match rest with
    | e :: more =>
      if e == 'e' || e == 'E' then
        let (minus, more) := match more with
          | '+' :: more => (false, more)
          | '-' :: more => (true, more)
          | _ => (false, more)
        let n : Int := Json.digitsValue (more.takeWhile Char.isDigit)
        (if minus then -n else n, more.dropWhile Char.isDigit)
      else (0, rest)
    | [] => (0, rest)
  (.normal (Json.digitsValue (whole ++ fraction)) (exponent - fraction.length), rest)

/-- Read a raw string after its opening quote. -/
def readRaw? : List Char → Option (String × List Char)
  | [] => none
  | c :: rest =>
    if c == RuleText.rawQuote then some ("", rest)
    else (readRaw? rest).map fun (s, rest) => (c.toString ++ s, rest)

/-- Read one token at the start of a source that does not begin with a blank or a comment. -/
def readToken? (cs : List Char) : Option (Token × List Char) :=
  match cs with
  | [] => none
  | c :: rest =>
    if c == '"' then (Json.readString? rest []).map fun (s, rest) => (.text s, rest)
    else if c == RuleText.rawQuote then (readRaw? rest).map fun (s, rest) => (.text s, rest)
    else if c.isDigit then
      let (d, rest) := readDecimal cs
      some (.number d, rest)
    else if RuleText.isIdentChar c then
      some (.word (String.ofList (cs.takeWhile RuleText.isIdentChar)),
        cs.dropWhile RuleText.isIdentChar)
    else if longSymbols.contains (cs.take 2) then
      some (.symbol (String.ofList (cs.take 2)), cs.drop 2)
    else some (.symbol c.toString, rest)

/-- Cut a source into lexemes, given what stands before it; the first argument bounds
their number. -/
def lexFrom? : Nat → (spaced newLine : Bool) → List Char → Option (List Lexeme)
  | 0, _, _, _ => none
  | _ + 1, _, _, [] => some []
  | fuel + 1, spaced, newLine, c :: rest =>
    if c == '\n' then lexFrom? fuel true true rest
    else if c.isWhitespace then lexFrom? fuel true newLine rest
    else if c == '#' then lexFrom? fuel true newLine (rest.dropWhile (· != '\n'))
    else do
      let (token, rest) ← readToken? (c :: rest)
      let others ← lexFrom? fuel false false rest
      return ⟨token, spaced, newLine⟩ :: others

/-- The lexemes of a source. -/
def lex? (source : String) : Option (List Lexeme) :=
  lexFrom? (source.toList.length + 1) true true source.toList

end PolicyEngine.Rule
