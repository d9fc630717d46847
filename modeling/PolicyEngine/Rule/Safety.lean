import PolicyEngine.Rule.Variables

/-!
# Safe rules

A body is safe when each variable it mentions can have a value: because the body defines or
introduces it, or because it is a parameter or the name of a rule of the module. A variable that the
body defines by name is mentioned by no earlier condition, and assigned to once. Names of imports do
not count, and heads are not looked at.

## Main definitions

* `PolicyEngine.Rule.isSafe`, `PolicyEngine.Rule.Module.isSafe`.
-/

namespace PolicyEngine.Rule

/-- Whether no condition mentions a variable that a later one defines, nor assigns to one that an
earlier one defines. -/
def isOrdered : List Condition → Bool
  | [] => true
  | c :: rest =>
    (c.variables false).all (fun x => !(rest.flatMap Condition.defined).contains x) &&
      c.defined.all (fun x => !(rest.flatMap Condition.assigned).contains x) &&
      isOrdered rest

/-- Whether a body is safe when some variables have values from outside. -/
def isSafe (outer : List String) (body : List Condition) : Bool :=
  let known := outer ++ body.flatMap Condition.defined ++ body.flatMap Condition.introduced
  (bodyVariables false body).all known.contains && isOrdered body

/-- Whether all rules of a module have safe bodies. -/
def Module.isSafe (m : Module) : Bool :=
  m.clauses.all fun clause => Rule.isSafe (m.outerVariables clause) clause.body

end PolicyEngine.Rule
