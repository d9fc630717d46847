import PolicyEngine.Text.Printable

/-!
# Quoted texts

The form in which messages show a text that may hold anything: in double quotes, with escapes for
quotes, backslashes, the four named controls and every character that is not printable.

## Main definitions

* `PolicyEngine.Text.quoted`.
-/

namespace PolicyEngine.Text

/-- A number in lower-case hexadecimal digits, without leading zeros. -/
def hex (n : Nat) : String :=
  String.ofList (Nat.toDigits 16 n)

/-- The characters that stand for one character inside a quotation. -/
def quotedChar (c : Char) : String :=
  match c with
  | '"' => "\\\""
  | '\\' => "\\\\"
  | '\n' => "\\n"
  | '\r' => "\\r"
  | '\t' => "\\t"
  | '\x00' => "\\0"
  | c => if isPrintable c then c.toString else "\\u\x7b" ++ hex c.toNat ++ "\x7d"

/-- A text in double quotes, with its special characters escaped. -/
def quoted (s : String) : String :=
  "\"" ++ String.join (s.toList.map quotedChar) ++ "\""

end PolicyEngine.Text
