import PolicyEngine.Config
import PolicyEngine.Evaluator
import PolicyEngine.RuleText.Relocate
import PolicyEngine.Schema.Validate

/-!
# Errors of the engine

Everything that an operation of the engine can fail with, as causes, with the wording of each.

## Main definitions

* `PolicyEngine.Detail` — a fault of a schema document or of a constraint.
* `PolicyEngine.RuleFault` — why a rule of a template does not compile.
* `PolicyEngine.StoreError` — what the policy store refuses or cannot do.
* `PolicyEngine.PolicyError` — all of them.
-/

namespace PolicyEngine

/-- How messages show what the evaluator says about a source or an evaluation. -/
def diagnostic : String := "<evaluator>"

/-! ### Faults of documents and constraints -/

/-- What is wrong with a schema document, or with a constraint. -/
inductive Detail.Cause where
  | malformed (reason : Schema.Malformed.Reason)
  | violation (fault : Schema.Violation.Fault)
  /-- A match specification is not one of a certain target. -/
  | matchViolation (fault : Schema.Violation.Fault) (target : TargetName)

/-- A place of a document or constraint, and what is wrong there. -/
structure Detail where
  path : Pointer
  cause : Detail.Cause

namespace Detail

/-- The wording of the fault. -/
def message (d : Detail) : String :=
  match d.cause with
  | .malformed reason => reason.message
  | .violation fault => fault.message
  | .matchViolation fault target => fault.message ++ " (target " ++ target.text ++ ")"

/-- How the fault is shown to readers. -/
def display (d : Detail) : String :=
  Schema.showPath d.path ++ ": " ++ d.message

end Detail

/-! ### Faults of rules -/

/-- The rule that every template defines for each of its targets. -/
def entryPoint : String := "violation"

/-- Why a rule of a template does not compile. -/
inductive RuleFault where
  /-- The main source cannot be moved into its module. -/
  | main (e : RuleText.RelocationError)
  /-- A library cannot be moved beneath the module. -/
  | library (index : Nat) (e : RuleText.RelocationError)
  /-- Two libraries have one package. -/
  | duplicateLibrary (index : Nat) (package : String) (first : Nat)
  /-- The evaluator cannot parse a source. -/
  | parse (module : ModuleId)
deriving DecidableEq

/-- The wording of a rule's fault. -/
def RuleFault.message : RuleFault → String
  | main e => e.message
  | library index e => "library " ++ toString index ++ ": " ++ e.message
  | duplicateLibrary index package first =>
    "library " ++ toString index ++ ": package `" ++ package ++
      "` is already declared by library " ++ toString first
  | parse module => module.path ++ ".rego: " ++ diagnostic

/-! ### Errors of the store -/

/-- Why the store refuses a module. -/
inductive ModuleFault where
  /-- Its identifier is not a dotted path. -/
  | identifier
  /-- Its source declares another package. -/
  | otherPackage (found expected : String)
  /-- Its source declares no package. -/
  | missingPackage
  /-- The evaluator cannot parse its source. -/
  | parse
deriving DecidableEq, Repr

/-- The wording of a module's fault. -/
def ModuleFault.message : ModuleFault → String
  | identifier => "module id must be a dotted path of identifiers"
  | otherPackage found expected => "declares package " ++ found ++ ", expected " ++ expected
  | missingPackage => "missing package declaration"
  | parse => diagnostic

/-- The wording of a failed evaluation. -/
def EvaluationFault.message : EvaluationFault → String
  | failed => diagnostic
  | unreadable => "unreadable query result: could not serialize big number"
  | tooDeep column => "recursion limit exceeded at line 1 column " ++ toString column

/-- What the policy store refuses or cannot do. -/
inductive StoreError where
  | module (name : String) (fault : ModuleFault)
  | unknownModule (id : ModuleId)
  | evaluation (target : TargetName) (fault : EvaluationFault)
  /-- A query took longer than it may. -/
  | timeout (target : TargetName) (ms : Nat)
deriving DecidableEq

/-- The wording of a store's error. -/
def StoreError.message : StoreError → String
  | module name fault => "module " ++ name ++ " rejected: " ++ fault.message
  | unknownModule id => "unknown module: " ++ id.path
  | evaluation target fault => "evaluation failed for target " ++ target.text ++ ": " ++ fault.message
  | timeout target ms =>
    "evaluation for target " ++ target.text ++ " timed out after " ++ showDuration ms

/-! ### All errors -/

/-- What an operation of the engine can fail with. -/
inductive PolicyError where
  | schemaValidation (subject : String) (details : List Detail)
  | unknownTarget (name : TargetName)
  | unknownTemplate (kind : TemplateKind)
  | duplicateTarget (name : TargetName)
  | store (e : StoreError)
  | ruleSyntax (kind : TemplateKind) (target : TargetName) (fault : RuleFault)
  | missingEntryPoint (kind : TemplateKind) (target : TargetName)
  /-- A template compiles for none of its targets, or not for all of them where it has to. -/
  | templateRejected (kind : TemplateKind) (failures : List (TargetName × PolicyError))
  /-- Every target that handles the reviewed object failed, and there are several. -/
  | reviewFailed (failures : List (TargetName × PolicyError))
  | identifier (e : IdentifierError)
  | config (e : ConfigError)
  | decode (e : DecodeError)

namespace PolicyError

mutual

/-- The wording of an error. -/
def message : PolicyError → String
  | schemaValidation subject details =>
    "schema validation failed for " ++ subject ++ ": " ++
      "; ".intercalate (details.map Detail.display)
  | unknownTarget name => "unknown target: " ++ name.text
  | unknownTemplate kind => "unknown template kind: " ++ kind.text
  | duplicateTarget name => "target already registered: " ++ name.text
  | store (.module name fault) =>
    "module " ++ name ++ " rejected by the evaluator: " ++ fault.message
  | store (.timeout target ms) =>
    "evaluation failed for target " ++ target.text ++ ": timed out after " ++ showDuration ms
  | store e => e.message
  | ruleSyntax kind target fault =>
    "rule syntax error in template " ++ kind.text ++ " for target " ++ target.text ++ ": " ++
      fault.message
  | missingEntryPoint kind target =>
    "template " ++ kind.text ++ " does not define entry point `" ++ entryPoint ++
      "` for target " ++ target.text
  | templateRejected kind failures =>
    "template " ++ kind.text ++ " rejected: " ++
      if failures.isEmpty then "no targets declared"
      else "; ".intercalate (failureMessages failures)
  | reviewFailed failures =>
    "evaluation failed for target " ++ ", ".intercalate (failures.map fun f => f.1.text) ++ ": " ++
      ", ".intercalate (failureMessages failures)
  | identifier e => "validation error: " ++ e.message
  | config e => "configuration error: " ++ e.message
  | decode e => "JSON error: " ++ e.message

/-- The wordings of the errors of several targets. -/
def failureMessages : List (TargetName × PolicyError) → List String
  | [] => []
  | (target, e) :: rest => (target.text ++ ": " ++ message e) :: failureMessages rest

end

end PolicyError

end PolicyEngine
