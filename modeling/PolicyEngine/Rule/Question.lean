import PolicyEngine.Evaluator
import PolicyEngine.Json.Nesting
import PolicyEngine.Rule.Parser
import PolicyEngine.Rule.Program
import PolicyEngine.Rule.Safety
import PolicyEngine.Rule.Schedule

/-!
# Questions for results

The results of a rule are what a variable runs through behind the path of the rule. Path and
variable make up the text of a question, which is read like any term, so a path can also lead into a
package or a value.

## Main definitions

* `PolicyEngine.Rule.questionText` — the question for the results of a rule.
* `PolicyEngine.Rule.answers?` — the answers that a program has to it.
* `PolicyEngine.Rule.evaluator` — the evaluator of this rule language.
-/

namespace PolicyEngine.Rule

/-- The variable that runs through the results of a rule. -/
def resultName : String := "result"

/-- The text of the question for the results of a rule. -/
def questionText (q : RuleQuery) : String :=
  "data." ++ q.module.path ++ "." ++ q.rule ++ "[" ++ resultName ++ "]"

/-- The term that a text is, if it is one. -/
def readQuestion? (text : String) : Option Term := do
  let ls ← lex? text
  let (t, rest) ← readTerm? (readingBound ls) ls
  if rest.isEmpty && isSafe [] [.holds t] then some (t.scheduled []) else none

/-- The program of a question. -/
def program? (q : RuleQuery) : Option Program := do
  let modules ← q.modules.mapM fun m => parse? m.2
  if modules.all Module.isSafe then
    return {
      modules := modules.map Module.scheduled
      inventory := .ofJson q.inventory
      input := .ofJson q.input }
  else none

/-- The answers to a question, each with what the result variable stands for. What `false` is under
is no answer. -/
def answers? (q : RuleQuery) : Option (List (Value × Option Value)) := do
  let program ← program? q
  let question ← readQuestion? (questionText q)
  let found ← solveTerm program.rootContext question []
  return (found.filter fun (v, _) => v.isTruthy).map fun (v, b) => (v, Assoc.get? resultName b)

/-- The result of an answer in JSON, if it has one. Both parts of the answer have to be readable. -/
def readAnswer? (answer : Value × Option Value) : Option (Option Json) := do
  let _ ← answer.1.toJson?
  answer.2.mapM Value.toJson?

/-- The results of a rule. The inventory and the input are read before anything is evaluated. -/
def results (q : RuleQuery) : Except EvaluationFault (List Json) := do
  for v in [.ofMembers [("inventory", q.inventory)], q.input] do
    if let some column := Json.tooDeepAt? v then throw (.tooDeep column)
  let some answers := answers? q | throw .failed
  let some results := answers.mapM readAnswer? | throw .unreadable
  return results.filterMap id

/-- The evaluator of this rule language. -/
def evaluator : Evaluator where
  parses := isModule
  results := results

end PolicyEngine.Rule
