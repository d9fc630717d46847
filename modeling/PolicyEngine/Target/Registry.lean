import PolicyEngine.Error
import PolicyEngine.Target.Basic

/-!
# Target registries

The targets that a client serves, in the order of their registration. Package paths hold the
identifier forms of target names, in which dots and hyphens look alike, so a registry holds no two
targets whose forms are the same.

## Main definitions

* `PolicyEngine.Registry`, `PolicyEngine.Registry.register`.
* `PolicyEngine.Registry.get?`, `PolicyEngine.Registry.position?`.
-/

namespace PolicyEngine

/-- Targets in the order of their registration. -/
structure Registry where
  targets : List Target
  /-- No two targets have names of the same identifier form. -/
  distinct : targets.Pairwise fun a b => a.name.ident ≠ b.name.ident

namespace Registry

/-- The registry without targets. -/
def empty : Registry := ⟨[], List.Pairwise.nil⟩

instance : Inhabited Registry := ⟨empty⟩

/-- Register a further target, unless one is registered whose name has the same identifier form. -/
def register (registry : Registry) (target : Target) : Except PolicyError Registry :=
  if h : ∀ t ∈ registry.targets, t.name.ident ≠ target.name.ident then
    .ok {
      targets := registry.targets ++ [target]
      distinct := List.pairwise_append.2
        ⟨registry.distinct, List.pairwise_singleton _ _, fun a ha b hb => by
          rw [List.mem_singleton.1 hb]
          exact h a ha⟩ }
  else .error (.duplicateTarget target.name)

/-- The names of the targets. -/
def names (registry : Registry) : List TargetName := registry.targets.map (·.name)

/-- The number of targets. -/
def size (registry : Registry) : Nat := registry.targets.length

/-- The target of a given name. -/
def get? (registry : Registry) (name : TargetName) : Option Target :=
  registry.targets.find? (·.name = name)

/-- Whether a target of the name is registered. -/
def contains (registry : Registry) (name : TargetName) : Bool := (registry.get? name).isSome

/-- The place of a name in the order of registration. -/
def position? (registry : Registry) (name : TargetName) : Option Nat :=
  registry.targets.findIdx? (·.name = name)

/-- The target of a given name, which has to be registered. -/
def lookup (registry : Registry) (name : TargetName) : Except PolicyError Target :=
  match registry.get? name with
  | some target => .ok target
  | none => .error (.unknownTarget name)

end Registry

end PolicyEngine
