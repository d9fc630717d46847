import PolicyEngine.Error
import PolicyEngine.Evaluator
import PolicyEngine.Store.Inventory

/-!
# The policy store

The store holds the modules that rules are evaluated with, and for each target the inventory that
rules read. A change of modules is checked before it is committed, and committing it always
succeeds.

## Main definitions

* `PolicyEngine.Store` — modules, inventories and the number of changes so far.
* `PolicyEngine.PreparedChange`, `PolicyEngine.Store.prepare`, `PolicyEngine.Store.commit`.
* `PolicyEngine.Store.putData`, `PolicyEngine.Store.removeData`, `PolicyEngine.Store.clear`.
-/

namespace PolicyEngine

/-- The modules and inventories that rules are evaluated with. -/
structure Store where
  modules : ModuleMap := .empty
  /-- The inventory of each target that has had one. -/
  inventories : SortedMap TargetName Json := .empty
  /-- The number of changes so far. -/
  generation : Nat := 0
deriving Inhabited

/-! ### Checking changes -/

namespace ModuleChange

/-- Why a source cannot be the module of an identifier, as far as its package tells. -/
def packageFault? (id : ModuleId) (source : String) : Option StoreError :=
  match RuleText.findPackage? source with
  | none => some (.module id.path .missingPackage)
  | some decl =>
    if decl.path = id.path then none
    else some (.module id.path (.otherPackage decl.path id.path))

/-- The text without any number of trailing occurrences of `.rego`. -/
def stripExtensions (reversed : List Char) : List Char :=
  match reversed with
  | 'o' :: 'g' :: 'e' :: 'r' :: '.' :: rest => stripExtensions rest
  | cs => cs

/-- The name of a module in the evaluator's diagnostics, where sources are files. -/
def diagnosticName (id : ModuleId) : String :=
  String.ofList (stripExtensions id.path.toList.reverse).reverse

/-- Why a change cannot be committed. Packages are looked at before any source is parsed. -/
def fault? (ev : Evaluator) (change : ModuleChange) : Option StoreError :=
  match change.puts.findSome? fun (id, source) => packageFault? id source with
  | some e => some e
  | none =>
    (change.puts.find? fun (_, source) => !ev.parses source).map fun (id, _) =>
      .module (diagnosticName id) .parse

end ModuleChange

/-- A change that can be committed. -/
structure PreparedChange (ev : Evaluator) where
  change : ModuleChange
  sound : change.fault? ev = none

/-- Removals need no check. -/
def PreparedChange.ofRemovals (ev : Evaluator) (removals : List ModuleId) : PreparedChange ev :=
  ⟨{ removals }, rfl⟩

/-- What a commit reports. -/
structure Committed where
  /-- The number of changes so far. -/
  generation : Nat
  /-- The number of modules that were dropped. -/
  removed : Nat
deriving DecidableEq, Repr

namespace Store

/-- Check a change of modules. -/
def prepare (ev : Evaluator) (change : ModuleChange) :
    Except StoreError (PreparedChange ev) :=
  match h : change.fault? ev with
  | none => .ok ⟨change, h⟩
  | some e => .error e

/-! ### Changing the store -/

/-- Apply a change of modules. -/
def commit (store : Store) (prepared : PreparedChange ev) : Store × Committed :=
  let store' : Store := { store with
    modules := prepared.change.applyTo store.modules
    generation := store.generation + 1 }
  (store', ⟨store'.generation, prepared.change.dropped store.modules⟩)

/-- Check and register a single module. -/
def putModule (ev : Evaluator) (store : Store) (id : ModuleId) (source : String) :
    Except StoreError Store :=
  (prepare ev { puts := [(id, source)] }).map fun prepared => (store.commit prepared).1

/-- Remove a module with everything nested beneath it; tells whether there was anything. -/
def removeModule (ev : Evaluator) (store : Store) (id : ModuleId) : Store × Bool :=
  let (store', committed) := store.commit (.ofRemovals ev [id])
  (store', 0 < committed.removed)

/-- What rules of a target read as their inventory. -/
def inventory (store : Store) (target : TargetName) : Json :=
  (store.inventories.get? target).getD .emptyObject

/-- Put a value into the inventory of a target. -/
def putData (store : Store) (target : TargetName) (path : List String) (value : Json) : Store :=
  { store with
    inventories :=
      store.inventories.insert target (Inventory.insert value path (store.inventory target))
    generation := store.generation + 1 }

/-- Remove a value from the inventory of a target; tells whether there was one. -/
def removeData (store : Store) (target : TargetName) (path : List String) : Store × Bool :=
  match (store.inventories.get? target).bind (Inventory.remove? path) with
  | none => (store, false)
  | some tree =>
    ({ store with
        inventories := store.inventories.insert target tree
        generation := store.generation + 1 }, true)

/-- Drop all modules and inventories. -/
def clear (store : Store) : Store :=
  { generation := store.generation + 1 }

end Store

end PolicyEngine
