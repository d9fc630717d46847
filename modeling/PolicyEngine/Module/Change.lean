import PolicyEngine.Module.Id

/-!
# Module changes

A batch of modules to drop and modules to put. The removals come first, and each takes with it the
modules nested beneath the one it names; the insertions follow in order.

## Main definitions

* `PolicyEngine.ModuleChange`.
* `PolicyEngine.ModuleChange.applyTo` — the modules after a change, and how many it dropped.
-/

namespace PolicyEngine

/-- The sources of modules by their identifiers. -/
abbrev ModuleMap := SortedMap ModuleId String

/-- A batch of removals and insertions. -/
structure ModuleChange where
  puts : List (ModuleId × String) := []
  removals : List ModuleId := []
deriving DecidableEq

namespace ModuleChange

/-- Register or replace a module. -/
def put (change : ModuleChange) (id : ModuleId) (source : String) : ModuleChange :=
  { change with puts := change.puts ++ [(id, source)] }

/-- Remove a module with everything nested beneath it. -/
def remove (change : ModuleChange) (id : ModuleId) : ModuleChange :=
  { change with removals := change.removals ++ [id] }

/-- Whether the change does nothing. -/
def isEmpty (change : ModuleChange) : Bool :=
  change.puts.isEmpty && change.removals.isEmpty

/-- The modules that no removal covers. -/
def keep (removals : List ModuleId) (modules : ModuleMap) : ModuleMap :=
  modules.filter fun id _ => !removals.any fun removal => removal.covers id

/-- The modules after a change. -/
def applyTo (change : ModuleChange) (modules : ModuleMap) : ModuleMap :=
  (keep change.removals modules).insertAll change.puts

/-- The number of modules that the removals of a change drop. -/
def dropped (change : ModuleChange) (modules : ModuleMap) : Nat :=
  modules.size - (keep change.removals modules).size

end ModuleChange

end PolicyEngine
