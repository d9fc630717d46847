import PolicyEngine.Module.Id
import PolicyEngine.RuleText.Package

/-!
# Moving a source into a module

A template's source is moved beneath its module before it is evaluated: its package becomes that of
the module, and its references to `data.lib` lead to the module's own libraries. Besides libraries a
source may read `data.inventory`; any other reference to the data document is refused, so that no
source can name the module of another template.

The scan for references works on tokens, which are identifiers and single glyphs. A reference is an
identifier `data` that no dot precedes.

## Main definitions

* `PolicyEngine.RuleText.Token`, `PolicyEngine.RuleText.tokens`.
* `PolicyEngine.RuleText.RelocationError` — why a source cannot be moved.
* `PolicyEngine.RuleText.relocateMain`, `PolicyEngine.RuleText.relocateLib`.

## Main results

* `PolicyEngine.RuleText.flatMap_chars_tokens` — cutting into tokens loses no character.
-/

namespace PolicyEngine.RuleText

/-! ### Tokens -/

/-- A longest run of identifier characters in code, or a single other glyph. -/
inductive Token where
  | word (cs : List Char)
  | mark (g : Glyph)
deriving DecidableEq, Repr

/-- The characters of a token in the source. -/
def Token.chars : Token → List Char
  | word cs => cs
  | mark g => [g.char]

/-- Cut glyphs into tokens. -/
def tokens : List Glyph → List Token
  | [] => []
  | g :: rest =>
    if g.isCode && isIdentChar g.char then
      match tokens rest with
      | .word cs :: others => .word (g.char :: cs) :: others
      | others => .word [g.char] :: others
    else .mark g :: tokens rest

theorem flatMap_chars_tokens (gs : List Glyph) :
    (tokens gs).flatMap Token.chars = gs.map Glyph.char := by
  induction gs with
  | nil => rfl
  | cons g rest ih =>
    rw [tokens]
    split
    · split
      · rename_i cs others h
        rw [h] at ih
        simpa [Token.chars] using ih
      · simpa [Token.chars] using ih
    · simpa [Token.chars] using ih

/-- Whether a token is a dot of the code. -/
def Token.isDot : Token → Bool
  | mark g => g.face == '.'
  | word _ => false

/-! ### References -/

/-- Why a source cannot be moved into a module. -/
inductive RelocationError where
  /-- The source declares no package. -/
  | missingPackage
  /-- The declared package is not a dotted path of identifiers. -/
  | packagePath (found : String)
  /-- The package of a library does not begin with `lib.`. -/
  | libraryPackage (found : String)
  /-- The source refers to the data document as a whole. -/
  | dataRoot
  /-- The source refers to a part of the data document that is neither the inventory
  nor a library. -/
  | dataDocument (name : String)
deriving DecidableEq, Repr

/-- The wording of a relocation error. -/
def RelocationError.message : RelocationError → String
  | missingPackage => "missing package declaration"
  | packagePath found =>
    "package must be a dotted path of identifiers, found `" ++ found ++ "`"
  | libraryPackage found => "library package must start with `lib.`, found `" ++ found ++ "`"
  | dataRoot => "references to the data root are not allowed; use data.inventory or data.lib"
  | dataDocument name => "reference to data." ++ name ++ " is not allowed"

/-- The identifier that begins a reference to the data document. -/
def dataWord : List Char := "data".toList

/-- What stands for a reference to the libraries of a module. -/
def libReference (root : ModuleId) : List Char := ("data." ++ root.path ++ ".lib").toList

/-- Redirect the references to libraries and refuse those to other parts of the data document. The
flag tells whether a dot precedes the tokens. -/
def redirect (root : ModuleId) : (afterDot : Bool) → List Token → Except RelocationError (List Char)
  | _, [] => .ok []
  | _, .mark g :: rest =>
    (redirect root (Token.mark g).isDot rest).map (g.char :: ·)
  | afterDot, .word w :: rest =>
    if w = dataWord ∧ afterDot = false then
      match rest with
      | .mark g :: .word segment :: others =>
        if (Token.mark g).isDot then
          if segment = "inventory".toList then
            (redirect root false others).map ((w ++ g.char :: segment) ++ ·)
          else if segment = "lib".toList then
            (redirect root false others).map (libReference root ++ ·)
          else .error (.dataDocument (String.ofList segment))
        else .error .dataRoot
      | .mark g :: _ => .error (if (Token.mark g).isDot then .dataDocument "" else .dataRoot)
      | _ => .error .dataRoot
    else (redirect root false rest).map (w ++ ·)

/-! ### Sources -/

/-- A source cut at its package declaration, whose path has to be a dotted one. -/
def declaredPackage (source : String) : Except RelocationError PackageSplit :=
  match splitAtPackage? source with
  | none => .error .missingPackage
  | some split =>
    if isDottedPath split.pathText then .ok split else .error (.packagePath split.pathText)

/-- Declare another package and redirect the references to libraries. -/
def relocateSplit (split : PackageSplit) (package root : ModuleId) :
    Except RelocationError String := do
  let before ← redirect root false (tokens split.before)
  let after ← redirect root false (tokens split.after)
  return String.ofList (before ++ package.path.toList ++ after)

/-- Move a main source into its module. -/
def relocateMain (source : String) (module : ModuleId) : Except RelocationError String := do
  let split ← declaredPackage source
  relocateSplit split module module

/-- The name of a library: what follows `lib.` in its package path. -/
def libraryName? (path : String) : Option String :=
  if "lib.".toList.isPrefixOf path.toList && 4 < path.toList.length then
    some (String.ofList (path.toList.drop 4))
  else none

/-- Move a library source beneath a module, to the place its package names. -/
def relocateLib (source : String) (module : ModuleId) :
    Except RelocationError (ModuleId × String) := do
  let split ← declaredPackage source
  match libraryName? split.pathText with
  | none => throw (.libraryPackage split.pathText)
  | some name =>
    let relocated ← relocateSplit split (module.lib name) module
    return (module.lib name, relocated)

end PolicyEngine.RuleText
