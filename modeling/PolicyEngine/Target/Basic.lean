import PolicyEngine.Identifier
import PolicyEngine.Schema.Basic

/-!
# Targets

A target is a domain whose objects are reviewed. It says which objects it handles and as what rules
see them, which match specifications it knows, and under which path an object is kept for rules to
read.

## Main definitions

* `PolicyEngine.Target`.
* `PolicyEngine.Target.matchesGlob` — patterns with a trailing asterisk.
-/

namespace PolicyEngine

/-- An object to be kept for rules, and the path where they find it. -/
structure DataEntry where
  path : List String
  value : Json

/-- A domain whose objects are reviewed. -/
structure Target where
  name : TargetName
  /-- The schema of match specifications, which may leave open what holds for undeclared members. -/
  matchSchema : Schema
  /-- The form in which rules see an object, if the target handles it. -/
  shape? : Json → Option Json
  /-- Whether a match specification, or its absence, covers a shaped object. -/
  covers : Option Json → Json → Bool
  /-- Where an object is kept for rules, if the target keeps it. -/
  dataEntry? : Json → Option DataEntry

namespace Target

/-- Whether a pattern covers a text: literally, or up to a trailing asterisk. -/
def matchesGlob (pattern text : String) : Bool :=
  match pattern.toList.reverse with
  | '*' :: stem => stem.reverse.isPrefixOf text.toList
  | _ => pattern == text

end Target

end PolicyEngine
