import PolicyEngine.Store.Basic

/-!
# Operations of stores as values

The changes of a store as values. What a store has been through is a list of them, and the stores
that can occur are those that such a list leads to from the empty one.

## Main definitions

* `PolicyEngine.Store.Operation`, `PolicyEngine.Store.perform`.
* `PolicyEngine.Store.run` — the store after a list of operations.
-/

namespace PolicyEngine.Store

/-- A change of a store. -/
inductive Operation (ev : Evaluator) where
  | commit (prepared : PreparedChange ev)
  | putModule (id : ModuleId) (source : String)
  | removeModule (id : ModuleId)
  | putData (target : TargetName) (path : List String) (value : Json)
  | removeData (target : TargetName) (path : List String)
  | clear

variable {ev : Evaluator}

/-- The store after a change; as it was if the change is refused. -/
def perform (store : Store) : Operation ev → Store
  | .commit prepared => (store.commit prepared).1
  | .putModule id source => (putModule ev store id source).toOption.getD store
  | .removeModule id => (removeModule ev store id).1
  | .putData target path value => store.putData target path value
  | .removeData target path => (store.removeData target path).1
  | .clear => store.clear

/-- The store after changes, one after another. -/
def run (store : Store) (operations : List (Operation ev)) : Store :=
  operations.foldl perform store

end PolicyEngine.Store
