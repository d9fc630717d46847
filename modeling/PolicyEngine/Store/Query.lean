import PolicyEngine.Store.Basic

/-!
# Queries

A query evaluates one rule for several constraints of a target, on the same object and inventory.
Only the modules of these constraints and those nested beneath them are loaded.

## Main definitions

* `PolicyEngine.ConstraintQuery` — a constraint to evaluate.
* `PolicyEngine.Store.query` — the results of all constraints in order.
-/

namespace PolicyEngine

/-- A constraint to evaluate: the module of its template, and its parameters. -/
structure ConstraintQuery where
  key : ConstraintKey
  module : ModuleId
  parameters : Json

namespace Store

/-- The modules that a query loads, by identifier. -/
def loaded (store : Store) (constraints : List ConstraintQuery) : List (ModuleId × String) :=
  store.modules.entries.filter fun (id, _) => constraints.any fun c => c.module.covers id

/-- What rules read as their input. -/
def ruleInput (review parameters : Json) : Json :=
  .ofMembers [("review", review), ("parameters", parameters)]

/-- The results of one constraint. -/
def evaluate (ev : Evaluator) (store : Store) (target : TargetName) (rule : String)
    (review : Json) (constraints : List ConstraintQuery) (c : ConstraintQuery) :
    Except EvaluationFault (List (ConstraintKey × Json)) :=
  (ev.results {
    modules := store.loaded constraints
    inventory := store.inventory target
    input := ruleInput review c.parameters
    module := c.module
    rule }).map fun results => results.map (c.key, ·)

/-- The results of all constraints in order. An unknown module is found first; a query without
constraints needs no time; a query that is given none runs out of it; and one constraint that cannot
be evaluated fails the whole query. -/
def query (ev : Evaluator) (store : Store) (target : TargetName) (rule : String)
    (review : Json) (constraints : List ConstraintQuery) (timeoutMs : Nat) :
    Except StoreError (List (ConstraintKey × Json)) :=
  match constraints.find? fun c => !store.modules.contains c.module with
  | some c => .error (.unknownModule c.module)
  | none =>
    if constraints.isEmpty then .ok []
    else if timeoutMs == 0 then .error (.timeout target timeoutMs)
    else
      match constraints.mapM (evaluate ev store target rule review constraints) with
      | .ok results => .ok results.flatten
      | .error fault => .error (.evaluation target fault)

end Store

end PolicyEngine
