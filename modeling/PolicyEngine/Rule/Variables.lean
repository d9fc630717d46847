import PolicyEngine.Rule.Term

/-!
# Variables

Which variables terms and conditions mention, and which of them they give values to. A condition
defines a variable by name when it assigns to it or lets it run through a collection. It also
introduces the variables that stand in brackets behind a reference, and those that stand alone where
a value is expected.

## Main definitions

* `PolicyEngine.Rule.Term.variables`, `PolicyEngine.Rule.Condition.variables`.
* `PolicyEngine.Rule.Term.bare`, `PolicyEngine.Rule.Term.indexed`, `PolicyEngine.Rule.Term.runs`.
* `PolicyEngine.Rule.Condition.defined`, `PolicyEngine.Rule.Condition.introduced`.
* `PolicyEngine.Rule.Module.outerVariables` — those that have values before a body is solved.
-/

namespace PolicyEngine.Rule

/-- Whether a name is that of a variable, and not of a document or of nothing. -/
def isVariable (name : String) : Bool :=
  name != wildcard && name != "input" && name != "data"

/-- The variables that a condition defines by name. -/
def Condition.defined : Condition → List String
  | .assign x _ => [x].filter isVariable
  | .someMember x _ => [x].filter isVariable
  | .someEntry k x _ => [k, x].filter isVariable
  | .fails c => c.defined
  | _ => []

/-- The variables that a condition assigns to. -/
def Condition.assigned : Condition → List String
  | .assign x _ => [x].filter isVariable
  | _ => []

/-! ### Mentioned variables -/

/-- Of the variables mentioned in a gathered collection, those that come from outside; none of them
where only the surface counts. -/
def fromOutside (deep : Bool) (body : List Condition) (mentioned : List String) : List String :=
  if deep then mentioned.filter fun x => !(body.flatMap Condition.defined).contains x else []

mutual

/-- The variables that a term mentions. Only where `deep` holds are those among them that a gathered
collection takes from outside. -/
def Term.variables (deep : Bool) : Term → List String
  | .const _ => []
  | .var x => [x].filter isVariable
  | .array items => listVariables deep items
  | .set items => listVariables deep items
  | .object entries => entryVariables deep entries
  | .ref base steps => base.variables deep ++ listVariables deep steps
  | .call _ args => listVariables deep args
  | .binary _ a b => a.variables deep ++ b.variables deep
  | .collect head body => fromOutside deep body (head.variables deep ++ bodyVariables deep body)
  | .collectSet head body => fromOutside deep body (head.variables deep ++ bodyVariables deep body)

/-- The variables that terms mention. -/
def listVariables (deep : Bool) : List Term → List String
  | [] => []
  | t :: rest => t.variables deep ++ listVariables deep rest

/-- The variables that the entries of an object mention. -/
def entryVariables (deep : Bool) : List (Term × Term) → List String
  | [] => []
  | (k, t) :: rest => k.variables deep ++ t.variables deep ++ entryVariables deep rest

/-- The variables that a condition mentions, without those it defines by name. -/
def Condition.variables (deep : Bool) : Condition → List String
  | .holds t => t.variables deep
  | .fails c => c.variables deep
  | .assign _ t => t.variables deep
  | .compare _ a b => a.variables deep ++ b.variables deep
  | .someMember _ t => t.variables deep
  | .someEntry _ _ t => t.variables deep

/-- The variables that conditions mention. -/
def bodyVariables (deep : Bool) : List Condition → List String
  | [] => []
  | c :: rest => c.variables deep ++ bodyVariables deep rest

end

/-! ### Running terms -/

mutual

/-- Whether a term has a variable in brackets, which can run through keys. -/
def Term.runs : Term → Bool
  | .array items => anyRuns items
  | .set items => anyRuns items
  | .object entries => anyEntryRuns entries
  | .ref base steps => base.runs || stepsRun steps
  | .call _ args => anyRuns args
  | .binary _ a b => a.runs || b.runs
  | _ => false

/-- Whether a step of a reference is a variable or has one in brackets. -/
def stepsRun : List Term → Bool
  | [] => false
  | .var _ :: _ => true
  | t :: rest => t.runs || stepsRun rest

/-- Whether a term of a list has a variable in brackets. -/
def anyRuns : List Term → Bool
  | [] => false
  | t :: rest => t.runs || anyRuns rest

/-- Whether an entry has a variable in brackets. -/
def anyEntryRuns : List (Term × Term) → Bool
  | [] => false
  | (k, t) :: rest => k.runs || t.runs || anyEntryRuns rest

end

/-! ### Introduced variables -/

mutual

/-- The variables that are a term, or items of it when it is an array or an object. -/
def Term.bare : Term → List String
  | .var x => [x].filter isVariable
  | .array items => bareList items
  | .object entries => bareEntries entries
  | _ => []

/-- The variables that are terms of a list or items of them. -/
def bareList : List Term → List String
  | [] => []
  | t :: rest => t.bare ++ bareList rest

/-- The variables that are keys or values of entries or items of them. -/
def bareEntries : List (Term × Term) → List String
  | [] => []
  | (k, t) :: rest => k.bare ++ t.bare ++ bareEntries rest

end

mutual

/-- The variables in brackets behind references, each with the variables mentioned before the
bracket. -/
def Term.indexed : Term → List (String × List String)
  | .array items => indexedList items
  | .set items => indexedList items
  | .object entries => indexedEntries entries
  | .ref base steps => base.indexed ++ indexedSteps (base.variables true) steps
  | .call _ args => indexedList args
  | .binary _ a b => a.indexed ++ b.indexed
  | _ => []

/-- The variables in the brackets of a reference and in what stands there, after those mentioned
before. -/
def indexedSteps (before : List String) : List Term → List (String × List String)
  | [] => []
  | t :: rest =>
    t.bare.map (·, before) ++ t.indexed ++ indexedSteps (before ++ t.variables true) rest

/-- The variables in brackets inside the terms of a list. -/
def indexedList : List Term → List (String × List String)
  | [] => []
  | t :: rest => t.indexed ++ indexedList rest

/-- The variables in brackets inside entries. -/
def indexedEntries : List (Term × Term) → List (String × List String)
  | [] => []
  | (k, t) :: rest => k.indexed ++ t.indexed ++ indexedEntries rest

end

/-- The variables in brackets inside a condition, each with the variables mentioned before the
bracket. -/
def Condition.indexed : Condition → List (String × List String)
  | .holds t => t.indexed
  | .fails c => c.indexed
  | .assign _ t => t.indexed
  | .compare _ a b => a.indexed ++ b.indexed
  | .someMember _ t => t.indexed
  | .someEntry _ _ t => t.indexed

/-- The variables that a condition introduces without naming them first. -/
def Condition.introduced : Condition → List String
  | .holds t => t.bare ++ t.indexed.map (·.1)
  | .fails c => c.introduced
  | .assign x t => t.bare ++ (Condition.assign x t).indexed.map (·.1)
  | c => c.indexed.map (·.1)

/-! ### Variables from outside -/

/-- The parameters of a head. -/
def Head.parameters : Head → List String
  | .function params _ => params
  | _ => []

/-- The variables that have values before the body of a rule is solved: its parameters, and the
names of the rules of its module. -/
def Module.outerVariables (m : Module) (clause : Clause) : List String :=
  clause.head.parameters ++ m.clauses.map (·.name)

end PolicyEngine.Rule
