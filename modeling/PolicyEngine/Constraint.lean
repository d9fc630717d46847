import PolicyEngine.Json.Decode
import PolicyEngine.Text.Blank

/-!
# Constraints

A constraint instantiates a template: it gives the parameters, says where the policy applies and
what is to be done about its violations.

## Main definitions

* `PolicyEngine.EnforcementAction` — a label that is never blank.
* `PolicyEngine.Constraint`, `PolicyEngine.Constraint.key`.
* `PolicyEngine.Constraint.ofJson`, `PolicyEngine.Constraint.toJson`.
-/

namespace PolicyEngine

/-! ### Enforcement actions -/

/-- What is to be done about a violation: a label of free form that is not blank. -/
structure EnforcementAction where
  label : String
  not_blank : Text.trim label ≠ ""
deriving DecidableEq

namespace EnforcementAction

/-- The action that is taken when none is named. -/
def deny : EnforcementAction := ⟨"deny", by decide +kernel⟩

instance : Inhabited EnforcementAction := ⟨deny⟩

/-- The action with a label; a blank label means the default. -/
def ofString (label : String) : EnforcementAction :=
  if h : Text.trim label = "" then deny else ⟨label, h⟩

/-- Read an enforcement action. -/
def ofJson (v : Json) : Decoded EnforcementAction :=
  v.decodeString.map ofString

end EnforcementAction

/-! ### Constraints -/

/-- A template put to use. -/
structure Constraint where
  kind : TemplateKind
  name : ConstraintName
  /-- The parameters for the rules; null when there are none. -/
  parameters : Json := .null
  action : EnforcementAction := .deny
  /-- Where the constraint applies; everywhere when absent. -/
  matchSpec : Option Json := none

namespace Constraint

/-- What identifies the constraint. -/
def key (c : Constraint) : ConstraintKey := ⟨c.kind, c.name⟩

/-- The field of the kind. -/
def kindField := Json.required "kind" TemplateKind.ofJson

/-- The field of the name. -/
def nameField := Json.required "name" ConstraintName.ofJson

/-- The field of the parameters. -/
def parametersField := Json.optional "parameters" Json.decodeAny .null

/-- The field of the enforcement action. -/
def actionField := Json.optional "enforcementAction" EnforcementAction.ofJson .deny

/-- The field of the match specification. -/
def matchField := Json.optional "match" (Json.decodeOption Json.decodeAny) none

/-- Read a constraint. -/
def ofJson (v : Json) : Decoded Constraint := do
  let r ← v.recordMembers "Constraint"
    [kindField.slot, nameField.slot, parametersField.slot, actionField.slot, matchField.slot]
  return {
    kind := ← kindField.get r
    name := ← nameField.get r
    parameters := ← parametersField.get r
    action := ← actionField.get r
    matchSpec := ← matchField.get r }

/-- Write a constraint, leaving out null parameters and an absent match specification. -/
def toJson (c : Constraint) : Json :=
  .ofMembers <| [
    ("kind", .str c.kind.text),
    ("name", .str c.name.text),
    ("enforcementAction", .str c.action.label)] ++
    (if c.parameters.isNull then [] else [("parameters", c.parameters)]) ++
    c.matchSpec.toList.map fun spec => ("match", spec)

end Constraint

end PolicyEngine
