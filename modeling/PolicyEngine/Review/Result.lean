import PolicyEngine.Constraint

/-!
# Review results

What a review finds: the violations in a fixed order, and the errors of targets that could not be
reviewed in full. An error at one target leaves the violations found at the others.

## Main definitions

* `PolicyEngine.Violation`, `PolicyEngine.ReviewError`, `PolicyEngine.ReviewResult`.
* `PolicyEngine.ReviewResult.ofJson`, `PolicyEngine.ReviewResult.toJson`.
-/

namespace PolicyEngine

/-! ### Violations -/

/-- A violation of a constraint by the reviewed object. -/
structure Violation where
  constraint : ConstraintKey
  target : TargetName
  action : EnforcementAction
  message : String
  /-- Further data from the rule; null when there is none. -/
  details : Json := .null

namespace Violation

/-- The field of the violated constraint. -/
def constraintField := Json.required "constraint" ConstraintKey.ofJson

/-- The field of the target. -/
def targetField := Json.required "target" TargetName.ofJson

/-- The field of the enforcement action. -/
def actionField := Json.required "enforcementAction" EnforcementAction.ofJson

/-- The field of the message. -/
def messageField := Json.required "message" Json.decodeString

/-- The field of the details. -/
def detailsField := Json.optional "details" Json.decodeAny .null

/-- Read a violation. -/
def ofJson (v : Json) : Decoded Violation := do
  let r ← v.recordMembers "Violation"
    [constraintField.slot, targetField.slot, actionField.slot, messageField.slot,
      detailsField.slot]
  return {
    constraint := ← constraintField.get r
    target := ← targetField.get r
    action := ← actionField.get r
    message := ← messageField.get r
    details := ← detailsField.get r }

/-- Write a violation. -/
def toJson (x : Violation) : Json :=
  .ofMembers [
    ("constraint", x.constraint.toJson),
    ("target", .str x.target.text),
    ("enforcementAction", .str x.action.label),
    ("message", .str x.message),
    ("details", x.details)]

end Violation

/-! ### Errors -/

/-- A part of a review that failed: a target, or the rule of one kind there. -/
structure ReviewError where
  target : TargetName
  kind : Option TemplateKind := none
  message : String
deriving DecidableEq

namespace ReviewError

/-- How the error is shown to readers. -/
def display (e : ReviewError) : String :=
  match e.kind with
  | some kind => e.target.text ++ " (" ++ kind.text ++ "): " ++ e.message
  | none => e.target.text ++ ": " ++ e.message

/-- The field of the target. -/
def targetField := Json.required "target" TargetName.ofJson

/-- The field of the kind. -/
def kindField := Json.optional "kind" (Json.decodeOption TemplateKind.ofJson) none

/-- The field of the message. -/
def messageField := Json.required "message" Json.decodeString

/-- Read a review error. -/
def ofJson (v : Json) : Decoded ReviewError := do
  let r ← v.recordMembers "ReviewError" [targetField.slot, kindField.slot, messageField.slot]
  return {
    target := ← targetField.get r
    kind := ← kindField.get r
    message := ← messageField.get r }

/-- Write a review error, leaving out an absent kind. -/
def toJson (e : ReviewError) : Json :=
  .ofMembers <| [("target", .str e.target.text), ("message", .str e.message)] ++
    e.kind.toList.map fun kind => ("kind", .str kind.text)

end ReviewError

/-! ### Results -/

/-- The outcome of a review. -/
structure ReviewResult where
  violations : List Violation := []
  errors : List ReviewError := []

namespace ReviewResult

/-- Whether there are neither violations nor errors. -/
def isEmpty (r : ReviewResult) : Bool := r.violations.isEmpty && r.errors.isEmpty

/-- Whether some part of the review failed. -/
def hasErrors (r : ReviewResult) : Bool := !r.errors.isEmpty

/-- The violations at a target. -/
def forTarget (r : ReviewResult) (target : TargetName) : List Violation :=
  r.violations.filter (·.target = target)

/-- The violations of a constraint. -/
def forConstraint (r : ReviewResult) (key : ConstraintKey) : List Violation :=
  r.violations.filter (·.constraint = key)

/-- The errors at a target. -/
def errorsFor (r : ReviewResult) (target : TargetName) : List ReviewError :=
  r.errors.filter (·.target = target)

/-- Append the findings of a further part of the review. -/
def append (a b : ReviewResult) : ReviewResult :=
  ⟨a.violations ++ b.violations, a.errors ++ b.errors⟩

/-- The field of the violations. -/
def violationsField := Json.required "violations" (Json.decodeList Violation.ofJson)

/-- The field of the errors. -/
def errorsField := Json.optional "errors" (Json.decodeList ReviewError.ofJson) []

/-- Read a review result. -/
def ofJson (v : Json) : Decoded ReviewResult := do
  let r ← v.recordMembers "ReviewResult" [violationsField.slot, errorsField.slot]
  return { violations := ← violationsField.get r, errors := ← errorsField.get r }

/-- Write a review result, leaving out an empty list of errors. -/
def toJson (r : ReviewResult) : Json :=
  .ofMembers <| [("violations", .arr (r.violations.map Violation.toJson))] ++
    if r.errors.isEmpty then [] else [("errors", .arr (r.errors.map ReviewError.toJson))]

end ReviewResult

end PolicyEngine
