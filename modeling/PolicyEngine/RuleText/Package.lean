import PolicyEngine.RuleText.CodeView
import PolicyEngine.Text.Blank
import PolicyEngine.Text.Pieces

/-!
# Package declarations

A source declares its package on a line that begins, after blanks, with the word `package`. The
declared path is the rest of that line in the code view, without the blanks around it.

## Main definitions

* `PolicyEngine.RuleText.isDottedPath` — identifiers with dots between them.
* `PolicyEngine.RuleText.splitAtPackage?` — a source cut before and after its declared path.
* `PolicyEngine.RuleText.findPackage?` — the declared path and its place in bytes.
-/

namespace PolicyEngine.RuleText

/-- Whether characters are an identifier: a letter or underscore, then letters, digits and
underscores. -/
def isIdentifier (cs : List Char) : Bool :=
  match cs with
  | [] => false
  | c :: _ => (c.isAlpha || c == '_') && cs.all isIdentChar

/-- Whether a text consists of identifiers with dots between them. -/
def isDottedPath (path : String) : Bool :=
  (Text.pieces '.' path.toList).all isIdentifier

/-- Cut glyphs behind every line end. -/
def lines : List Glyph → List (List Glyph)
  | [] => []
  | g :: rest =>
    if g.face = '\n' then [g] :: lines rest
    else
      match lines rest with
      | [] => [[g]]
      | line :: others => (g :: line) :: others

/-- Whether a glyph shows as a blank. -/
def Glyph.isBlank (g : Glyph) : Bool := Text.isBlank g.face

/-- A source cut before and after the path of its package declaration. -/
structure PackageSplit where
  before : List Glyph
  path : List Glyph
  after : List Glyph

/-- The glyphs behind a word at the start of a line. -/
def dropWord? (word : List Char) (gs : List Glyph) : Option (List Glyph) :=
  if (gs.take word.length).map Glyph.face = word then some (gs.drop word.length) else none

/-- A line cut before and after the path it declares, if it declares one. -/
def splitLine? (line : List Glyph) : Option PackageSplit := do
  let indent := line.takeWhile Glyph.isBlank
  let rest ← dropWord? "package".toList (line.dropWhile Glyph.isBlank)
  if !(rest.head?.any fun g => Text.isAsciiBlank g.face) then none
  let lead := rest.takeWhile Glyph.isBlank
  let tail := rest.dropWhile Glyph.isBlank
  let trailing := (tail.reverse.takeWhile Glyph.isBlank).reverse
  let path := (tail.reverse.dropWhile Glyph.isBlank).reverse
  if path.isEmpty then none
  return {
    before := indent ++ (line.dropWhile Glyph.isBlank).take "package".length ++ lead
    path
    after := trailing }

/-- Lines cut before and after the first path that one of them declares. -/
def splitLines? : List (List Glyph) → Option PackageSplit
  | [] => none
  | line :: rest =>
    match splitLine? line with
    | some split => some { split with after := split.after ++ rest.flatten }
    | none => (splitLines? rest).map fun split => { split with before := line ++ split.before }

/-- A source cut before and after the first path that it declares as its package. -/
def splitAtPackage? (source : String) : Option PackageSplit :=
  splitLines? (lines (glyphs source))

/-- The declared path, as the code view shows it. -/
def PackageSplit.pathText (split : PackageSplit) : String := String.ofList (view split.path)

/-- A package declaration: the path, and the bytes of the source from which to which it stands. -/
structure PackageDecl where
  path : String
  start : Nat
  stop : Nat
deriving DecidableEq, Repr

/-- The first package declaration of a source. -/
def findPackage? (source : String) : Option PackageDecl :=
  (splitAtPackage? source).map fun split =>
    { path := split.pathText
      start := size split.before
      stop := size split.before + size split.path }

end PolicyEngine.RuleText
