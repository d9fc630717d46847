import PolicyEngine.RuleText.CodeView

/-!
# Rule definitions

Whether a source defines a rule of a given name at its top level. A definition begins a line, stands
outside all brackets, and goes on as the head of a rule does.

## Main definitions

* `PolicyEngine.RuleText.definesRule`.
-/

namespace PolicyEngine.RuleText

/-- The nesting of brackets after a character; a closing bracket without its opening one counts
downwards. -/
def depthAfter (depth : Int) (c : Char) : Int :=
  if c = '(' ∨ c = '[' ∨ c = '\x7b' then depth + 1
  else if c = ')' ∨ c = ']' ∨ c = '\x7d' then depth - 1
  else depth

/-- Whether a character can follow the name of a rule in its head. -/
def continuesHead (c : Char) : Bool :=
  c == '[' || c == '\x7b' || c == '=' || c == ':' || c == ' ' || c == '\t' || c == '\r' || c == '\n'

/-- Whether characters begin with a rule's name as a head does. -/
def beginsHead (name cs : List Char) : Bool :=
  name.isPrefixOf cs && ((cs.drop name.length).head?.all continuesHead)

/-- Whether a definition stands in the rest of a code view, given the nesting of brackets and
whether only spaces and tabs stand before the rest on its line. -/
def definesFrom (name : List Char) : (depth : Int) → (lineStart : Bool) → List Char → Bool
  | _, _, [] => false
  | depth, lineStart, c :: rest =>
    (lineStart && depth == 0 && beginsHead name (c :: rest)) ||
      definesFrom name (depthAfter depth c)
        (c == '\n' || (lineStart && (c == ' ' || c == '\t'))) rest

/-- Whether a source defines a rule at its top level. -/
def definesRule (source name : String) : Bool :=
  definesFrom name.toList 0 true (codeView source).toList

end PolicyEngine.RuleText
