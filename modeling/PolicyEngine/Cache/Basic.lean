import PolicyEngine.Template.Compiled

/-!
# The cache of templates and constraints

The cache holds the compiled templates by kind and the constraints by key. Beside them it keeps the
order in which constraints were first added, as sequence numbers, and for each target an index of
the constraints that a review there has to consider: those that are active, whose template declares
the target, and whose match specification applies there.

## Main definitions

* `PolicyEngine.ConstraintEntry` — a constraint with its sequence number and status.
* `PolicyEngine.Cache` — the templates, the constraints, their order and the index.
* `PolicyEngine.Cache.entries` — the constraints in the order in which they were first added.
* `PolicyEngine.Cache.forTarget` — what a review of a target considers, read from the index.
* `PolicyEngine.Cache.reindex` — bring the index of one constraint up to date.
-/

namespace PolicyEngine

/-- Whether a constraint takes part in reviews. -/
inductive ConstraintStatus where
  /-- The constraint is in force. -/
  | active
  /-- The constraint is kept aside because its template was removed. -/
  | orphaned
deriving DecidableEq, Repr, Inhabited

/-- The name of a status. -/
def ConstraintStatus.name : ConstraintStatus → String
  | active => "active"
  | orphaned => "orphaned"

/-- A constraint in the cache. -/
structure ConstraintEntry where
  constraint : Constraint
  /-- The place of the constraint in the order of first addition. -/
  seq : Nat
  status : ConstraintStatus := .active

/-- Whether the constraint is in force. -/
def ConstraintEntry.isActive (entry : ConstraintEntry) : Bool := entry.status == .active

/-- A constraint as a review of a target sees it: with the module to evaluate, or with the reason
why its template has none for the target. -/
structure TargetConstraint where
  constraint : Constraint
  module : Except PolicyError ModuleId

/-- The templates and constraints in use. -/
structure Cache where
  templates : SortedMap TemplateKind CompiledTemplate := .empty
  constraints : SortedMap ConstraintKey ConstraintEntry := .empty
  /-- The keys of the constraints by sequence number. -/
  order : SortedMap Nat ConstraintKey := .empty
  /-- For each target the keys of the constraints to consider there, by sequence number. -/
  index : SortedMap TargetName (SortedMap Nat ConstraintKey) := .empty
  /-- The sequence number of the next new constraint. -/
  nextSeq : Nat := 0
  /-- The number of updates so far. -/
  generation : Nat := 0
deriving Inhabited

namespace Cache

/-! ### Reading -/

/-- The compiled template of a kind. -/
def template? (cache : Cache) (kind : TemplateKind) : Option CompiledTemplate :=
  cache.templates.get? kind

/-- The constraint of a key. -/
def constraint? (cache : Cache) (key : ConstraintKey) : Option ConstraintEntry :=
  cache.constraints.get? key

/-- The constraints in the order in which they were first added. -/
def entries (cache : Cache) : List ConstraintEntry :=
  cache.order.values.filterMap cache.constraints.get?

/-- The constraints of a kind in the order in which they were first added. -/
def entriesOf (cache : Cache) (kind : TemplateKind) : List ConstraintEntry :=
  cache.entries.filter fun entry => entry.constraint.kind = kind

/-- The keys of the constraints of a kind, in their order as keys. -/
def keysOf (cache : Cache) (kind : TemplateKind) : List ConstraintKey :=
  cache.constraints.keys.filter fun key => key.kind = kind

/-- The module that a template has for a target, or the reason why it has none; nothing if it does
not declare the target. -/
def moduleAt? (compiled : CompiledTemplate) (target : TargetName) :
    Option (Except PolicyError ModuleId) :=
  match compiled.artifact? target with
  | some artifact => some (.ok artifact.module)
  | none => (compiled.failure? target).map .error

/-- A constraint as a review of a target sees it. -/
def targetConstraint? (cache : Cache) (target : TargetName) (key : ConstraintKey) :
    Option TargetConstraint := do
  let entry ← cache.constraints.get? key
  let compiled ← cache.templates.get? entry.constraint.kind
  let module ← moduleAt? compiled target
  return { constraint := entry.constraint, module }

/-- What a review of a target considers, in the order of first addition. -/
def forTarget (cache : Cache) (target : TargetName) : List TargetConstraint :=
  match cache.index.get? target with
  | none => []
  | some keys => keys.values.filterMap (cache.targetConstraint? target)

/-- The number of constraints that are kept aside. -/
def orphanCount (cache : Cache) : Nat :=
  (cache.constraints.values.filter fun entry => !entry.isActive).length

/-- Whether there are neither templates nor constraints. -/
def isEmpty (cache : Cache) : Bool := cache.templates.isEmpty && cache.constraints.isEmpty

/-! ### The index -/

/-- The targets that a template declares, those for which it compiles first. -/
def declaredTargets (compiled : CompiledTemplate) : List TargetName :=
  compiled.artifacts.keys ++ compiled.failures.map (·.1)

/-- The targets at which a constraint has to be considered. -/
def indexedTargets (cache : Cache) (entry : ConstraintEntry) : List TargetName :=
  match cache.templates.get? entry.constraint.kind with
  | none => []
  | some compiled =>
    if entry.isActive then
      (declaredTargets compiled).filter fun target =>
        compiled.schema.matchApplies target entry.constraint.matchSpec
    else []

/-- Take a sequence number out of the index of every target. -/
def unindex (cache : Cache) (seq : Nat) : Cache :=
  { cache with
    index := cache.index.filterMap fun _ keys =>
      let rest := keys.erase seq
      if rest.isEmpty then none else some rest }

/-- Enter a key into the index of a target. -/
def addToIndex (index : SortedMap TargetName (SortedMap Nat ConstraintKey)) (seq : Nat)
    (key : ConstraintKey) (target : TargetName) :
    SortedMap TargetName (SortedMap Nat ConstraintKey) :=
  index.insert target (((index.get? target).getD .empty).insert seq key)

/-- Bring the index of a constraint up to date. -/
def reindex (cache : Cache) (key : ConstraintKey) : Cache :=
  match cache.constraints.get? key with
  | none => cache
  | some entry =>
    let cleared := cache.unindex entry.seq
    { cleared with
      index := (cache.indexedTargets entry).foldl
        (fun index target => addToIndex index entry.seq key target) cleared.index }

/-- Bring the index of every constraint of a kind up to date. -/
def reindexKind (cache : Cache) (kind : TemplateKind) : Cache :=
  (cache.keysOf kind).foldl reindex cache

end Cache

end PolicyEngine
