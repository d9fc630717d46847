import PolicyEngine.Json.Basic
import PolicyEngine.Text.Pieces

/-!
# Places in a document

A pointer lists the member names and element positions that lead from a document to one of its
parts. In its text each step follows a slash, with `~0` for a tilde and `~1` for a slash.

## Main definitions

* `PolicyEngine.Pointer` — the steps, outermost first.
* `PolicyEngine.Pointer.render`, `PolicyEngine.Pointer.parse?` — the text of a pointer and back.
* `PolicyEngine.Pointer.resolve?` — the part of a document that a pointer leads to.

## Main results

* `PolicyEngine.Pointer.unescape_escape` — the escapes of a step can be undone.
-/

namespace PolicyEngine

/-- The steps that lead from a document to one of its parts, outermost first. -/
abbrev Pointer := List String

namespace Pointer

/-- Write a tilde as `~0` and a slash as `~1`. -/
def escape : List Char → List Char
  | [] => []
  | '~' :: rest => '~' :: '0' :: escape rest
  | '/' :: rest => '~' :: '1' :: escape rest
  | c :: rest => c :: escape rest

/-- Read `~0` as a tilde and `~1` as a slash; any other tilde stands for itself. -/
def unescape : List Char → List Char
  | [] => []
  | '~' :: '0' :: rest => '~' :: unescape rest
  | '~' :: '1' :: rest => '/' :: unescape rest
  | c :: rest => c :: unescape rest

theorem unescape_escape (cs : List Char) : unescape (escape cs) = cs := by
  induction cs with
  | nil => rfl
  | cons c rest ih =>
    by_cases h₁ : c = '~'
    · subst h₁
      simp [escape, unescape, ih]
    · by_cases h₂ : c = '/'
      · subst h₂
        simp [escape, unescape, ih]
      · rw [escape.eq_4 c rest h₁ h₂, unescape.eq_4 c _ (fun r h => absurd h h₁)
          (fun r h => absurd h h₁), ih]

/-- The text of a pointer. The whole document has the empty text. -/
def render (p : Pointer) : String :=
  String.join (p.map fun step => "/" ++ String.ofList (escape step.toList))

/-- The pointer a text denotes: the empty text, or steps that each follow a slash. -/
def parse? (text : String) : Option Pointer :=
  match text.toList with
  | [] => some []
  | '/' :: rest => some ((Text.pieces '/' rest).map fun step => String.ofList (unescape step))
  | _ => none

/-- The element position a step denotes: decimal digits without a leading zero. -/
def index? (step : String) : Option Nat :=
  match step.toList with
  | [] => none
  | ['0'] => some 0
  | '0' :: _ => none
  | cs =>
    if cs.all Char.isDigit then some (cs.foldl (fun n d => 10 * n + (d.toNat - '0'.toNat)) 0)
    else none

/-- The part of a value that one step leads to. -/
def step? (step : String) : Json → Option Json
  | .obj members => Assoc.get? step members
  | .arr elements => (index? step).bind fun i => elements[i]?
  | _ => none

/-- The part of a document that a pointer leads to. -/
def resolve? : Pointer → Json → Option Json
  | [], v => some v
  | step :: rest, v => (step? step v).bind (resolve? rest)

end Pointer

/-- The part of a document at the place a text denotes. -/
def Json.at? (text : String) (v : Json) : Option Json :=
  (Pointer.parse? text).bind fun p => p.resolve? v

end PolicyEngine
