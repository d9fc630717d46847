import PolicyEngine.Proofs.Store.Lookups
import PolicyEngine.Store.Basic

/-!
# Removal of data in place

A store removes data by a walk that works in place on the inventory of a target, and counts a change
if the walk has found something. The walk can come to nothing deep in the tree, with objects on its
way behind it. On inventories that list their members in order the store is then the one it was, so
that removal in place is removal; and inventories list their members in order as long as the values
put into them do.

## Main definitions

* `PolicyEngine.Store.removeDataAlong` — removal of data in place.
* `PolicyEngine.Store.IsCanonical` — every inventory lists its members in order.

## Main results

* `PolicyEngine.Inventory.canonical_insert`, `PolicyEngine.Inventory.canonical_remove?`.
* `PolicyEngine.Store.IsCanonical.putData`, `PolicyEngine.Store.IsCanonical.removeData`.
* `PolicyEngine.Store.IsCanonical.removeDataAlong_eq` — removal in place is removal.
-/

namespace PolicyEngine

/-! ### Objects that list their members in order -/

namespace Json.Canonical

variable {ms : List (String × Json)} {key : String} {v : Json}

theorem emptyObject : Json.emptyObject.Canonical := ⟨Assoc.sorted_nil, trivial⟩

theorem insert (h : (Json.obj ms).Canonical) (hv : v.Canonical) :
    (Json.obj (Assoc.insert key v ms)).Canonical := by
  refine ⟨h.1.insert, canonicalMembers_iff.2 fun m hm => ?_⟩
  rcases Assoc.mem_insert hm with rfl | hm
  · exact hv
  · exact h.of_mem_members hm

theorem erase (h : (Json.obj ms).Canonical) : (Json.obj (Assoc.erase key ms)).Canonical :=
  ⟨h.1.filter _, canonicalMembers_iff.2 fun _ hm => h.of_mem_members (List.mem_of_mem_filter hm)⟩

theorem members {tree : Json} (h : tree.Canonical) :
    (Json.obj (Inventory.members tree)).Canonical := by
  cases tree with
  | obj ms => exact h
  | _ => exact emptyObject

end Json.Canonical

namespace Inventory

variable {tree value : Json}

theorem canonical_insert (hvalue : value.Canonical) (path : List String) (h : tree.Canonical) :
    (insert value path tree).Canonical := by
  induction path generalizing tree with
  | nil => exact hvalue
  | cons key rest ih =>
    refine h.members.insert (ih ?_)
    cases hchild : Assoc.get? key (members tree) with
    | none => exact .emptyObject
    | some child => exact h.members.of_mem_members (Assoc.mem_of_get?_eq_some hchild)

theorem canonical_remove? {path : List String} {pruned : Json} (h : tree.Canonical)
    (hpruned : remove? path tree = some pruned) : pruned.Canonical := by
  fun_induction remove? path tree generalizing pruned with
  | case1 => cases hpruned
  | case2 =>
    obtain rfl := Option.some.inj hpruned
    exact .emptyObject
  | case3 key tree =>
    obtain ⟨child, -, rfl⟩ := Option.map_eq_some_iff.1 hpruned
    exact h.members.erase
  | case4 key next rest tree ih =>
    obtain ⟨child, left, hchild, hleft, rfl⟩ := remove?_cons_cons_eq_some_iff.1 hpruned
    have hcanonical := h.members.of_mem_members (Assoc.mem_of_get?_eq_some hchild)
    split
    · exact h.members.erase
    · exact h.members.insert (ih child hcanonical hleft)

end Inventory

/-! ### Stores -/

namespace Store

variable {store : Store} {target : TargetName}

/-- Remove a value from the inventory of a target in place: the target keeps what the walk leaves,
and a change is counted if the walk removed something. Tells whether it did. -/
def removeDataAlong (store : Store) (target : TargetName) (path : List String) : Store × Bool :=
  match store.inventories.get? target with
  | none => (store, false)
  | some tree =>
    let (left, removed) := Inventory.removeAlong path tree
    ({ store with
        inventories := store.inventories.insert target left
        generation := if removed then store.generation + 1 else store.generation }, removed)

/-- Every inventory lists its members in order. -/
def IsCanonical (store : Store) : Prop :=
  ∀ target tree, store.inventories.get? target = some tree → tree.Canonical

namespace IsCanonical

theorem inventory (h : store.IsCanonical) (target : TargetName) :
    (store.inventory target).Canonical := by
  rw [Store.inventory]
  cases htree : store.inventories.get? target with
  | none => exact .emptyObject
  | some tree => exact h _ _ htree

theorem putData (h : store.IsCanonical) {value : Json} (hvalue : value.Canonical)
    (target : TargetName) (path : List String) : (store.putData target path value).IsCanonical := by
  intro name tree htree
  rcases SortedMap.get?_insert_eq_some_iff.1 htree with ⟨-, rfl⟩ | ⟨-, hother⟩
  · exact Inventory.canonical_insert hvalue path (h.inventory target)
  · exact h _ _ hother

theorem removeData (h : store.IsCanonical) (target : TargetName) (path : List String) :
    (store.removeData target path).1.IsCanonical := by
  rw [Store.removeData]
  split
  · exact h
  · rename_i pruned hpruned
    obtain ⟨before, hbefore, hremove⟩ := Option.bind_eq_some_iff.1 hpruned
    intro name tree htree
    rcases SortedMap.get?_insert_eq_some_iff.1 htree with ⟨-, rfl⟩ | ⟨-, hother⟩
    · exact Inventory.canonical_remove? (h _ _ hbefore) hremove
    · exact h _ _ hother

/-- Removal in place is removal. Where the walk finds nothing to remove, the target keeps the
inventory that it had. -/
theorem removeDataAlong_eq (h : store.IsCanonical) (target : TargetName) (path : List String) :
    store.removeDataAlong target path = store.removeData target path := by
  rw [removeDataAlong, Store.removeData]
  cases htree : store.inventories.get? target with
  | none => rfl
  | some tree =>
    rw [Option.bind_some]
    dsimp only
    rw [Inventory.removeAlong_eq (h _ _ htree)]
    cases Inventory.remove? path tree with
    | some left => rfl
    | none =>
      have hsame : store.inventories.insert target tree = store.inventories :=
        SortedMap.ext_entries (Assoc.insert_of_get?_eq_some store.inventories.sorted htree)
      change ({ store with inventories := store.inventories.insert target tree }, false) = _
      rw [hsame]

end IsCanonical

end Store

end PolicyEngine
