import PolicyEngine.Cache.Basic
import PolicyEngine.Review.Result
import PolicyEngine.Store.Query

/-!
# Reviewing an object

An object is reviewed at every registered target that handles it. At each target the constraints
that cover the object are evaluated and their results read as violations. A constraint whose
template has no module for the target is reported once per kind, a result that is no violation by
itself, and a target whose evaluation fails as a whole. Only when all targets fail does the review
itself.

## Main definitions

* `PolicyEngine.readResult` — a result of a rule as message and details.
* `PolicyEngine.reviewTarget` — the review at one target.
* `PolicyEngine.reviewAll` — the review at all targets.
-/

namespace PolicyEngine

/-! ### Results of rules -/

/-- Why a result of a rule is no violation. -/
inductive ResultFault where
  | notAnObject (found : Json)
  | messageType (found : Json)
  | noMessage

/-- The wording of a result's fault. -/
def ResultFault.message : ResultFault → String
  | notAnObject found => "violation result must be an object, got " ++ found.basicTypeName
  | messageType found => "violation `msg` must be a string, got " ++ found.basicTypeName
  | noMessage => "violation result has no `msg`"

/-- A result of a rule as message and details. -/
def readResult (v : Json) : Except ResultFault (String × Json) :=
  match v with
  | .obj members =>
    match Assoc.get? "msg" members with
    | some (.str message) => .ok (message, (Assoc.get? "details" members).getD .null)
    | some found => .error (.messageType found)
    | none => .error .noMessage
  | found => .error (.notAnObject found)

/-! ### One target -/

/-- The constraints that cover an object at a target. -/
def covering (cache : Cache) (target : Target) (input : Json) : List TargetConstraint :=
  (cache.forTarget target.name).filter fun c => target.covers c.constraint.matchSpec input

/-- The report of a template without a module for a target. -/
def uncompiledError (target : TargetName) (kind : TemplateKind) (e : PolicyError) : ReviewError where
  target := target
  kind := some kind
  message := "template did not compile for this target: " ++ e.message

/-- One report for each kind without a module, given the kinds reported already. -/
def uncompiledErrors (target : TargetName) :
    (reported : List TemplateKind) → List TargetConstraint → List ReviewError
  | _, [] => []
  | reported, c :: rest =>
    match c.module with
    | .ok _ => uncompiledErrors target reported rest
    | .error e =>
      if c.constraint.kind ∈ reported then uncompiledErrors target reported rest
      else
        uncompiledError target c.constraint.kind e ::
          uncompiledErrors target (c.constraint.kind :: reported) rest

/-- The constraints to evaluate. -/
def constraintQueries (candidates : List TargetConstraint) : List ConstraintQuery :=
  candidates.filterMap fun c =>
    match c.module with
    | .ok module => some ⟨c.constraint.key, module, c.constraint.parameters⟩
    | .error _ => none

/-- The enforcement action of a key among constraints. -/
def actionOf? (candidates : List TargetConstraint) (key : ConstraintKey) :
    Option EnforcementAction :=
  (candidates.find? fun c => c.constraint.key = key).map (·.constraint.action)

/-- What a result of a constraint adds to a review. -/
def resultFindings (target : TargetName) (candidates : List TargetConstraint)
    (result : ConstraintKey × Json) : ReviewResult :=
  match actionOf? candidates result.1 with
  | none => {}
  | some action =>
    match readResult result.2 with
    | .ok (message, details) =>
      { violations := [{ constraint := result.1, target, action, message, details }] }
    | .error fault =>
      { errors := [{
          target
          kind := some result.1.kind
          message := "constraint " ++ result.1.text ++ ": " ++ fault.message }] }

/-- The review of a shaped object at a target. -/
def reviewTarget (ev : Evaluator) (cache : Cache) (store : Store) (target : Target) (input : Json)
    (timeoutMs : Nat) : Except PolicyError ReviewResult :=
  let candidates := covering cache target input
  let reports : ReviewResult := { errors := uncompiledErrors target.name [] candidates }
  let queries := constraintQueries candidates
  if queries.isEmpty then .ok reports
  else
    match store.query ev target.name entryPoint input queries timeoutMs with
    | .error e => .error (.store e)
    | .ok results =>
      .ok ((results.map (resultFindings target.name candidates)).foldl ReviewResult.append reports)

/-! ### All targets -/

/-- The targets that handle an object, with the form in which their rules see it. -/
def handling (registry : Registry) (v : Json) : List (Target × Json) :=
  registry.targets.filterMap fun target => (target.shape? v).map (target, ·)

/-- What the review at one target adds to the whole. -/
def targetFindings (outcome : TargetName × Except PolicyError ReviewResult) : ReviewResult :=
  match outcome with
  | (_, .ok result) => result
  | (target, .error e) => { errors := [{ target, message := e.message }] }

/-- The errors among the outcomes of targets. -/
def targetFailures (outcomes : List (TargetName × Except PolicyError ReviewResult)) :
    List (TargetName × PolicyError) :=
  outcomes.filterMap fun outcome =>
    match outcome with
    | (_, .ok _) => none
    | (target, .error e) => some (target, e)

/-- The whole of the outcomes of targets. It is an error if there are outcomes and all
are errors. -/
def combine (outcomes : List (TargetName × Except PolicyError ReviewResult)) :
    Except PolicyError ReviewResult :=
  let failures := targetFailures outcomes
  if failures.isEmpty || failures.length < outcomes.length then
    .ok ((outcomes.map targetFindings).foldl ReviewResult.append {})
  else
    match failures with
    | [(_, e)] => .error e
    | failures => .error (.reviewFailed failures)

/-- The review of an object at all targets. -/
def reviewAll (ev : Evaluator) (registry : Registry) (cache : Cache) (store : Store) (v : Json)
    (timeoutMs : Nat) : Except PolicyError ReviewResult :=
  combine <| (handling registry v).map fun (target, input) =>
    (target.name, reviewTarget ev cache store target input timeoutMs)

end PolicyEngine
