import PolicyEngine.Cache.Basic

/-!
# Updates of the cache

Installing and removing templates, storing and removing constraints, and clearing. Removing a
template leaves constraints without one: they are removed with it, or kept aside as orphans until a
template of their kind is installed whose schema they satisfy.

## Main definitions

* `PolicyEngine.Cache.installTemplate`, `PolicyEngine.Cache.removeTemplate`.
* `PolicyEngine.Cache.upsertConstraint`, `PolicyEngine.Cache.removeConstraint`.
* `PolicyEngine.Cache.clear`.
-/

namespace PolicyEngine

/-- Whether a removal found something. -/
inductive Removal where
  | removed
  | notFound
deriving DecidableEq, Repr, Inhabited

namespace Removal

/-- The removal that found something if a flag says so. -/
def ofBool (found : Bool) : Removal := if found then removed else notFound

/-- Whether something was removed. -/
def wasRemoved (r : Removal) : Bool := r == removed

/-- The outcomes by name. -/
def variants : Json.Variants Removal := [("removed", removed), ("not_found", notFound)]

/-- The name of an outcome. -/
def name : Removal → String
  | removed => "removed"
  | notFound => "not_found"

/-- Read an outcome. -/
def ofJson : Json → Decoded Removal := Json.decodeVariant variants

end Removal

/-- Whether a stored constraint is new. -/
inductive Upsert where
  | created
  | replaced
deriving DecidableEq, Repr, Inhabited

/-- What installing a template reports. -/
structure Installed where
  /-- The template that was replaced. -/
  previous : Option CompiledTemplate
  /-- The number of orphans that came back into force. -/
  revived : Nat

namespace Cache

/-! ### Single changes -/

/-- Count an update. -/
def bump (cache : Cache) : Cache := { cache with generation := cache.generation + 1 }

/-- Set the status of a constraint. -/
def setStatus (cache : Cache) (status : ConstraintStatus) (key : ConstraintKey) : Cache :=
  match cache.constraints.get? key with
  | none => cache
  | some entry =>
    { cache with
      constraints := cache.constraints.insert key { entry with status } }.reindex key

/-- Put a template in place of the one of its kind. -/
def insertTemplate (cache : Cache) (compiled : CompiledTemplate) : Cache :=
  { cache with
    templates := cache.templates.insert compiled.kind compiled }.reindexKind compiled.kind

/-- Take out the template of a kind. -/
def eraseTemplate (cache : Cache) (kind : TemplateKind) : Cache :=
  { cache with templates := cache.templates.erase kind }.reindexKind kind

/-- Store a constraint. One of the same key is replaced in its place and comes into force. -/
def putConstraint (cache : Cache) (c : Constraint) : Cache :=
  match cache.constraints.get? c.key with
  | some entry =>
    { cache with
      constraints := cache.constraints.insert c.key
        { entry with constraint := c, status := .active } }.reindex c.key
  | none =>
    { cache with
      constraints := cache.constraints.insert c.key { constraint := c, seq := cache.nextSeq }
      order := cache.order.insert cache.nextSeq c.key
      nextSeq := cache.nextSeq + 1 }.reindex c.key

/-- Take out the constraint of a key. -/
def eraseConstraint (cache : Cache) (key : ConstraintKey) : Cache :=
  match cache.constraints.get? key with
  | none => cache
  | some entry =>
    { cache with
      constraints := cache.constraints.erase key
      order := cache.order.erase entry.seq }.unindex entry.seq

/-! ### Templates -/

/-- The orphans of a template's kind that satisfy its schema, in the order of first addition. -/
def revivable (cache : Cache) (compiled : CompiledTemplate) : List ConstraintKey :=
  ((cache.entriesOf compiled.kind).filter fun entry =>
    !entry.isActive && (compiled.schema.validate entry.constraint).toBool).map (·.constraint.key)

/-- Install a template. The orphans that satisfy its schema come back into force. -/
def installTemplate (cache : Cache) (compiled : CompiledTemplate) : Cache × Installed :=
  let revive := cache.revivable compiled
  let revived := revive.foldl (setStatus · .active) cache
  ((revived.insertTemplate compiled).bump, ⟨cache.template? compiled.kind, revive.length⟩)

/-- Deal with a constraint whose template is gone. -/
def orphan (policy : OrphanPolicy) (cache : Cache) (key : ConstraintKey) : Cache :=
  match policy with
  | .cascade => cache.eraseConstraint key
  | .retain => cache.setStatus .orphaned key

/-- Remove the template of a kind, and its constraints as the policy says. -/
def removeTemplate (policy : OrphanPolicy) (cache : Cache) (kind : TemplateKind) :
    Cache × Removal :=
  if cache.templates.contains kind then
    let without := cache.eraseTemplate kind
    (((without.keysOf kind).foldl (orphan policy) without).bump, .removed)
  else (cache.bump, .notFound)

/-! ### Constraints -/

/-- Refuse a constraint without a template or one that does not fit its template. -/
def checkConstraint (cache : Cache) (c : Constraint) : Except PolicyError Unit :=
  match cache.template? c.kind with
  | none => .error (.unknownTemplate c.kind)
  | some compiled => compiled.schema.validate c

/-- Check and store a constraint. -/
def upsertConstraint (cache : Cache) (c : Constraint) : Cache × Except PolicyError Upsert :=
  match cache.checkConstraint c with
  | .error e => (cache, .error e)
  | .ok _ =>
    ((cache.putConstraint c).bump,
      .ok (if cache.constraints.contains c.key then .replaced else .created))

/-- Remove the constraint of a key. -/
def removeConstraint (cache : Cache) (key : ConstraintKey) : Cache × Removal :=
  ((cache.eraseConstraint key).bump, .ofBool (cache.constraints.contains key))

/-! ### Everything -/

/-- Drop all templates and constraints. Sequence numbers go on where they were. -/
def clear (cache : Cache) : Cache :=
  { nextSeq := cache.nextSeq, generation := cache.generation + 1 }

end Cache

end PolicyEngine
