/-!
# The code view of a rule source

Rule sources hold string literals, raw strings and comments, and a search for code must not look
into them. A scan over the characters marks each as code or not. The code view then shows code
characters as they are and every other character as blank, keeping line ends and the byte position
of everything that follows.

## Main definitions

* `PolicyEngine.RuleText.Glyph` — a character with its mark.
* `PolicyEngine.RuleText.glyphs` — the marked characters of a source.
* `PolicyEngine.RuleText.codeView` — the source with everything but code blanked.

## Main results

* `PolicyEngine.RuleText.map_char_glyphs` — marking loses no character.
-/

namespace PolicyEngine.RuleText

/-- A character of a source, with whether it is code. -/
structure Glyph where
  char : Char
  isCode : Bool
deriving DecidableEq, Repr

/-- What the scan is inside of. -/
inductive Context where
  | code
  /-- A comment, up to the end of the line. -/
  | comment
  /-- A string literal, up to a quote or the end of the line. -/
  | string
  /-- A string literal, after a backslash that takes the next character with it. -/
  | escape
  /-- A raw string, up to the next grave accent. -/
  | raw
deriving DecidableEq, Repr

/-- The character that delimits raw strings. -/
def rawQuote : Char := '\x60'

/-- The context after a character. -/
def Context.next (context : Context) (c : Char) : Context :=
  match context with
  | code => if c = '#' then comment else if c = '"' then string else if c = rawQuote then raw else code
  | comment => if c = '\n' then code else comment
  | string => if c = '\\' then escape else if c = '"' ∨ c = '\n' then code else string
  | escape => string
  | raw => if c = rawQuote then code else raw

/-- Whether a character met in a context is code. The delimiters of literals and comments are not,
but the line end behind a comment is. -/
def Context.shows (context : Context) (c : Char) : Bool :=
  match context with
  | code => c ≠ '#' ∧ c ≠ '"' ∧ c ≠ rawQuote
  | comment => c = '\n'
  | _ => false

/-- Mark the characters of a source, beginning in a context. -/
def glyphsFrom (context : Context) : List Char → List Glyph
  | [] => []
  | c :: rest => ⟨c, context.shows c⟩ :: glyphsFrom (context.next c) rest

/-- Mark the characters of a source. -/
def glyphs (source : String) : List Glyph := glyphsFrom .code source.toList

theorem map_char_glyphsFrom (context : Context) (cs : List Char) :
    (glyphsFrom context cs).map Glyph.char = cs := by
  induction cs generalizing context with
  | nil => rfl
  | cons c rest ih => simp [glyphsFrom, ih]

theorem map_char_glyphs (source : String) : (glyphs source).map Glyph.char = source.toList :=
  map_char_glyphsFrom .code source.toList

namespace Glyph

/-- What a search sees: the character if it is code, and otherwise a line end or a space. -/
def face (g : Glyph) : Char :=
  if g.isCode then g.char else if g.char = '\n' then '\n' else ' '

/-- The characters that take the place of a glyph in the code view, of the same size in bytes. -/
def shown (g : Glyph) : List Char :=
  if g.isCode then [g.char]
  else if g.char = '\n' then ['\n']
  else List.replicate g.char.utf8Size ' '

end Glyph

/-- The characters of glyphs in the code view. -/
def view (gs : List Glyph) : List Char := gs.flatMap Glyph.shown

/-- The number of bytes of glyphs, in the source as in the code view. -/
def size : List Glyph → Nat
  | [] => 0
  | g :: rest => g.char.utf8Size + size rest

/-- The source with literals and comments blanked. -/
def codeView (source : String) : String := String.ofList (view (glyphs source))

/-- Whether a character can stand in an identifier. -/
def isIdentChar (c : Char) : Bool := c.isAlphanum || c == '_'

end PolicyEngine.RuleText
