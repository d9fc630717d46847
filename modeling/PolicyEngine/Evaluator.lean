import PolicyEngine.Json.Basic
import PolicyEngine.Module.Change

/-!
# Evaluators

The engine leaves the meaning of rules to an evaluator. It needs two things of it: whether a source
is a module at all, and the results of a rule on an input. The results depend on nothing but what a
query names: the loaded modules, the inventory, the input and the rule.

## Main definitions

* `PolicyEngine.RuleQuery`, `PolicyEngine.EvaluationFault`.
* `PolicyEngine.Evaluator`.
-/

namespace PolicyEngine

/-- A question to an evaluator: the results of a rule of a module. -/
structure RuleQuery where
  /-- The loaded modules with their sources. -/
  modules : List (ModuleId × String)
  /-- What rules read as `data.inventory`. -/
  inventory : Json
  /-- What rules read as `input`. -/
  input : Json
  module : ModuleId
  /-- What follows the module's path to name the rule. -/
  rule : String

/-- Why an evaluation has no results. -/
inductive EvaluationFault where
  /-- The evaluator cannot answer the question. -/
  | failed
  /-- It can, but a number of its answer is beyond those of JSON. -/
  | unreadable
  /-- What rules read is nested too deeply, first at a certain column of its text. -/
  | tooDeep (column : Nat)
deriving DecidableEq, Repr

/-- An evaluator of rules. -/
structure Evaluator where
  /-- Whether a source is a module. -/
  parses : String → Bool
  /-- The results of a rule in order. -/
  results : RuleQuery → Except EvaluationFault (List Json)

end PolicyEngine
