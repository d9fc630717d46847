import PolicyEngine.Rule.Format

/-!
# Functions of every module

The functions that rules can call without defining them. Each takes a list of arguments; arguments
that do not fit it are an error.

## Main definitions

* `PolicyEngine.Rule.concat`, `PolicyEngine.Rule.sprintf`.
* `PolicyEngine.Rule.count`, `PolicyEngine.Rule.numbersRange`.
* `PolicyEngine.Rule.builtin?` — the function of a name.
-/

namespace PolicyEngine.Rule

/-- The texts of a collection of strings. -/
def texts? (v : Value) : Option (List String) :=
  match v with
  | .arr elements | .set elements => elements.mapM fun
    | .str s => some s
    | _ => none
  | _ => none

/-- Whole numbers from one to another. -/
def wholeRange (first last : Int) : List Value :=
  (List.range ((last - first).toNat + 1)).map fun (i : Nat) => .num (.ofInt (first + i))

/-- Join the texts of a collection with a text between them. -/
def concat : List Value → Option (Option Value)
  | [.str separator, v] => (texts? v).map fun parts => some (.str (separator.intercalate parts))
  | _ => none

/-- Fill in a format. -/
def sprintf : List Value → Option (Option Value)
  | [.str pattern, .arr values] =>
    (format? pattern.toList values).map fun cs => some (.str (String.ofList cs))
  | _ => none

/-- Count characters or members. -/
def count : List Value → Option (Option Value)
  | [.str s] => some (some (.num (.ofInt s.length)))
  | [v] => some (some (.num (.ofInt v.entries.length)))
  | _ => none

/-- The whole numbers from one number to another, in either direction. -/
def numbersRange : List Value → Option (Option Value)
  | [.num a, .num b] => do
    let first ← a.toInt?
    let last ← b.toInt?
    return some <| .arr <|
      if first ≤ last then wholeRange first last else (wholeRange last first).reverse
  | _ => none

/-- The function of a name that every module has; unfit arguments are an error. -/
def builtin? : List String → Option (List Value → Option (Option Value))
  | ["concat"] => some concat
  | ["sprintf"] => some sprintf
  | ["count"] => some count
  | ["numbers", "range"] => some numbersRange
  | _ => none

end PolicyEngine.Rule
