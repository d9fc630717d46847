import PolicyEngine.Cache.Update

/-!
# Operations of caches as values

The updates of a cache as values. What a cache has been through is a list of them, and the caches
that can occur are those that such a list leads to.

## Main definitions

* `PolicyEngine.Cache.Operation`, `PolicyEngine.Cache.perform`.
* `PolicyEngine.Cache.run` — the cache after a list of operations.

## Main results

* `PolicyEngine.Cache.run_append` — lists of operations run one after another.
-/

namespace PolicyEngine.Cache

/-- An update of a cache. -/
inductive Operation where
  | installTemplate (compiled : CompiledTemplate)
  | removeTemplate (policy : OrphanPolicy) (kind : TemplateKind)
  | upsertConstraint (c : Constraint)
  | removeConstraint (key : ConstraintKey)
  | clear

/-- The cache after an update. -/
def perform (cache : Cache) : Operation → Cache
  | .installTemplate compiled => (cache.installTemplate compiled).1
  | .removeTemplate policy kind => (removeTemplate policy cache kind).1
  | .upsertConstraint c => (cache.upsertConstraint c).1
  | .removeConstraint key => (cache.removeConstraint key).1
  | .clear => cache.clear

/-- The cache after updates, one after another. -/
def run (cache : Cache) (operations : List Operation) : Cache :=
  operations.foldl perform cache

theorem run_append (cache : Cache) (first second : List Operation) :
    cache.run (first ++ second) = (cache.run first).run second :=
  List.foldl_append

end PolicyEngine.Cache
