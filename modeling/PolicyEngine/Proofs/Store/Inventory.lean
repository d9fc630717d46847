import Mathlib.Data.List.Infix
import PolicyEngine.Proofs.SortedMap
import PolicyEngine.Store.Inventory

/-!
# Inventory trees as finite maps

An inventory tree stands for the map that sends a path to the value kept there. Putting a value at a
path would destroy what stands further up or further down on it, and pruning must not take away what
stands beside it. As long as the path is apart from the others, none of them beginning it or begun
by it, insertion and removal of the tree are those of the map, and the tree is determined by the
map.

## Main definitions

* `PolicyEngine.Inventory.TreeOf` — the tree of a map of paths.
* `PolicyEngine.Inventory.Apart` — a path that begins or is begun by no held path but itself.

## Main results

* `PolicyEngine.Inventory.TreeOf.insert` — putting a value into the tree puts it into the map.
* `PolicyEngine.Inventory.TreeOf.exists_remove?`, `PolicyEngine.Inventory.TreeOf.remove?_eq_none` —
  removing a value prunes the tree to that of the smaller map, and fails on what is not held.
* `PolicyEngine.Inventory.TreeOf.unique` — a map has one tree.
* `PolicyEngine.Inventory.TreeOf.lookup?`, `PolicyEngine.Inventory.TreeOf.exists_held` — the tree
  has a branch for each held path and no other.
-/

namespace PolicyEngine.Inventory

/-- What a map of paths holds, as a tree. Where the map holds a value at the empty path the tree is
that value. Elsewhere it is an object with a member for each first name of a held path. -/
inductive TreeOf : (held : List String → Option Json) → Json → Prop
  | value {held : List String → Option Json} {value : Json} (here : held [] = some value)
      (alone : ∀ key rest, held (key :: rest) = none) : TreeOf held value
  | object {held : List String → Option Json} {members : List (String × Json)}
      (inner : held [] = none) (sorted : Assoc.Sorted members)
      (branches : ∀ key, (∃ child, Assoc.get? key members = some child) ↔
        ∃ rest value, held (key :: rest) = some value)
      (children : ∀ key child, Assoc.get? key members = some child →
        TreeOf (fun rest => held (key :: rest)) child) : TreeOf held (.obj members)

/-- The members of an object that is the tree of a map. -/
structure MembersOf (held : List String → Option Json) (members : List (String × Json)) : Prop where
  sorted : Assoc.Sorted members
  branches : ∀ key, (∃ child, Assoc.get? key members = some child) ↔
    ∃ rest value, held (key :: rest) = some value
  children : ∀ key child, Assoc.get? key members = some child →
    TreeOf (fun rest => held (key :: rest)) child

/-- No held path but the path itself begins it or is begun by it. -/
def Apart (held : List String → Option Json) (path : List String) : Prop :=
  ∀ other value, held other = some value → other <+: path ∨ path <+: other → other = path

variable {held : List String → Option Json} {tree : Json} {path : List String}

/-- Beneath the first name of a path the rest of it is apart. -/
theorem Apart.tail {key : String} {rest : List String} (h : Apart held (key :: rest)) :
    Apart (fun rest => held (key :: rest)) rest := by
  intro other value hvalue hrelated
  have hcons := hrelated.imp (List.prefix_cons_inj key).2 (List.prefix_cons_inj key).2
  exact (List.cons.inj (h (key :: other) value hvalue hcons)).2

/-- At a proper beginning of a path that is apart nothing is held. -/
theorem Apart.eq_none {other : List String} (h : Apart held path) (hne : other ≠ path)
    (hrelated : other <+: path ∨ path <+: other) : held other = none := by
  cases hvalue : held other with
  | none => rfl
  | some value => exact absurd (h other value hvalue hrelated) hne

namespace TreeOf

/-- The tree of a map that holds nothing. -/
theorem empty (h : ∀ path, held path = none) : TreeOf held .emptyObject := by
  refine .object (h []) Assoc.sorted_nil (fun key => ⟨?_, ?_⟩) (fun key child hchild => ?_)
  · rintro ⟨child, hchild⟩
    cases hchild
  · rintro ⟨rest, value, hvalue⟩
    rw [h] at hvalue
    cases hvalue
  · cases hchild

/-- Where nothing is held at the empty path the tree is an object. -/
theorem exists_membersOf (h : TreeOf held tree) (inner : held [] = none) :
    ∃ members, tree = .obj members ∧ MembersOf held members := by
  cases h with
  | value here alone =>
    rw [inner] at here
    cases here
  | object _ sorted branches children => exact ⟨_, rfl, sorted, branches, children⟩

end TreeOf

/-! ### Members -/

namespace MembersOf

variable {held' : List String → Option Json} {members : List (String × Json)} {key : String}

/-- A name without a tree begins no held path. -/
theorem get?_eq_none_iff (h : MembersOf held members) :
    Assoc.get? key members = none ↔ ∀ rest, held (key :: rest) = none := by
  rw [Option.eq_none_iff_forall_ne_some]
  simp only [Option.eq_none_iff_forall_ne_some, ← not_exists, h.branches key]

/-- The tree beneath a name is that of the paths that begin with it, also where there are none. -/
theorem child (h : MembersOf held members) (key : String) :
    TreeOf (fun rest => held (key :: rest)) ((Assoc.get? key members).getD .emptyObject) := by
  cases hchild : Assoc.get? key members with
  | some child => exact h.children key child hchild
  | none => exact .empty (h.get?_eq_none_iff.1 hchild)

/-- Exchange the tree beneath a name for that of other paths, at least one. -/
theorem insert {child : Json} (h : MembersOf held members)
    (hchild : TreeOf (fun rest => held' (key :: rest)) child)
    (hsome : ∃ rest value, held' (key :: rest) = some value)
    (hother : ∀ key' rest, key' ≠ key → held' (key' :: rest) = held (key' :: rest)) :
    MembersOf held' (Assoc.insert key child members) where
  sorted := h.sorted.insert
  branches key' := by
    rw [Assoc.get?_insert]
    by_cases hkey : key' = key
    · subst hkey
      exact iff_of_true ⟨child, if_pos rfl⟩ hsome
    · simp only [if_neg hkey, hother key' _ hkey]
      exact h.branches key'
  children key' child' hget := by
    rw [Assoc.get?_insert] at hget
    by_cases hkey : key' = key
    · subst hkey
      rw [if_pos rfl] at hget
      rwa [← Option.some.inj hget]
    · rw [if_neg hkey] at hget
      simp only [hother key' _ hkey]
      exact h.children key' child' hget

/-- Drop the tree beneath a name. -/
theorem erase (h : MembersOf held members) (hnone : ∀ rest, held' (key :: rest) = none)
    (hother : ∀ key' rest, key' ≠ key → held' (key' :: rest) = held (key' :: rest)) :
    MembersOf held' (Assoc.erase key members) where
  sorted := h.sorted.filter _
  branches key' := by
    rw [Assoc.get?_erase]
    by_cases hkey : key' = key
    · subst hkey
      simp [hnone]
    · simp only [if_neg hkey, hother key' _ hkey]
      exact h.branches key'
  children key' child' hget := by
    rw [Assoc.get?_erase] at hget
    by_cases hkey : key' = key
    · rw [if_pos hkey] at hget
      cases hget
    · rw [if_neg hkey] at hget
      simp only [hother key' _ hkey]
      exact h.children key' child' hget

/-- Members of a map that holds nothing at the empty path make up its tree. -/
theorem treeOf (h : MembersOf held members) (inner : held [] = none) : TreeOf held (.obj members) :=
  .object inner h.sorted h.branches h.children

end MembersOf

namespace TreeOf

/-- The tree without members is that of the map that holds nothing. -/
theorem isEmpty_iff (h : TreeOf held tree) (inner : held [] = none) :
    isEmpty tree = true ↔ ∀ path, held path = none := by
  obtain ⟨members, rfl, hmembers⟩ := h.exists_membersOf inner
  have hnone : (∀ path, held path = none) ↔ ∀ key, Assoc.get? key members = none := by
    simp only [hmembers.get?_eq_none_iff]
    refine ⟨fun hall key rest => hall _, fun hall path => ?_⟩
    cases path with
    | nil => exact inner
    | cons key rest => exact hall key rest
  rw [hnone]
  cases members with
  | nil => exact ⟨fun _ _ => rfl, fun _ => rfl⟩
  | cons e rest =>
    refine ⟨fun hempty => ?_, fun hall => ?_⟩
    · cases hempty
    · have hhead := hall e.1
      rw [Assoc.get?_cons, if_pos rfl] at hhead
      cases hhead

end TreeOf

/-- Exchange the tree beneath a name for that of other paths, and drop it if there are none. -/
theorem MembersOf.prune {held' : List String → Option Json} {members : List (String × Json)}
    {key : String} {pruned : Json} (h : MembersOf held members)
    (hpruned : TreeOf (fun rest => held' (key :: rest)) pruned) (inner : held' [key] = none)
    (hother : ∀ key' rest, key' ≠ key → held' (key' :: rest) = held (key' :: rest)) :
    MembersOf held' (if isEmpty pruned then Assoc.erase key members
      else Assoc.insert key pruned members) := by
  have hempty := hpruned.isEmpty_iff inner
  cases hisEmpty : isEmpty pruned with
  | true => exact h.erase (hempty.1 hisEmpty) hother
  | false =>
    have hsome : ∃ rest value, held' (key :: rest) = some value := by
      simpa [hisEmpty, Option.eq_none_iff_forall_ne_some] using hempty
    exact h.insert hpruned hsome hother

namespace TreeOf

/-! ### Changes -/

/-- Putting a value into the tree at a path that is apart puts it into the map. -/
theorem insert (h : TreeOf held tree) (happart : Apart held path) (value : Json) :
    TreeOf (fun other => if other = path then some value else held other)
      (insert value path tree) := by
  induction path generalizing held tree with
  | nil =>
    refine .value (if_pos rfl) fun key rest => ?_
    simp only [reduceCtorEq, if_false]
    exact happart.eq_none (List.cons_ne_nil _ _) (.inr List.nil_prefix)
  | cons key rest ih =>
    have inner : held [] = none :=
      happart.eq_none (List.cons_ne_nil _ _).symm (.inl List.nil_prefix)
    obtain ⟨members, rfl, hmembers⟩ := h.exists_membersOf inner
    have hchild := ih (hmembers.child key) happart.tail
    refine (hmembers.insert ?_ ⟨rest, value, if_pos rfl⟩ ?_).treeOf (by simpa using inner)
    · simp only [List.cons.injEq, true_and]
      exact hchild
    · intro key' rest' hkey
      simp [hkey]

/-- What is not held, at a path that is apart, cannot be removed from the tree. -/
theorem remove?_eq_none (h : TreeOf held tree) (hne : path ≠ []) (happart : Apart held path)
    (hnone : held path = none) : remove? path tree = none := by
  induction path generalizing held tree with
  | nil => exact absurd rfl hne
  | cons key rest ih =>
    have inner : held [] = none :=
      happart.eq_none (List.cons_ne_nil _ _).symm (.inl List.nil_prefix)
    obtain ⟨members, rfl, hmembers⟩ := h.exists_membersOf inner
    cases rest with
    | nil =>
      have habsent : Assoc.get? key members = none := by
        refine hmembers.get?_eq_none_iff.2 fun rest => ?_
        cases rest with
        | nil => exact hnone
        | cons next rest => exact happart.eq_none (by simp) (.inr ⟨next :: rest, rfl⟩)
      rw [remove?, Inventory.members, habsent]
      rfl
    | cons next rest =>
      cases hchild : Assoc.get? key members with
      | none =>
        rw [remove?, Inventory.members, hchild]
        rfl
      | some child =>
        have hpruned :=
          ih (hmembers.children key child hchild) (List.cons_ne_nil _ _) happart.tail hnone
        rw [remove?, Inventory.members, hchild]
        change (remove? (next :: rest) child >>= _) = none
        rw [hpruned]
        rfl

/-- Removing what is held, at a path that is apart, leaves the tree of the map without it. -/
theorem exists_remove? (h : TreeOf held tree) (hne : path ≠ []) (happart : Apart held path)
    {value : Json} (hvalue : held path = some value) :
    ∃ pruned, remove? path tree = some pruned ∧
      TreeOf (fun other => if other = path then none else held other) pruned := by
  induction path generalizing held tree with
  | nil => exact absurd rfl hne
  | cons key rest ih =>
    have inner : held [] = none :=
      happart.eq_none (List.cons_ne_nil _ _).symm (.inl List.nil_prefix)
    obtain ⟨members, rfl, hmembers⟩ := h.exists_membersOf inner
    have hother : ∀ key' rest', key' ≠ key →
        (if key' :: rest' = key :: rest then none else held (key' :: rest')) =
          held (key' :: rest') := by
      intro key' rest' hkey
      simp [hkey]
    obtain ⟨child, hget⟩ := (hmembers.branches key).2 ⟨rest, value, hvalue⟩
    have hchild := hmembers.children key child hget
    cases rest with
    | nil =>
      refine ⟨.obj (Assoc.erase key members), ?_,
        (hmembers.erase (fun rest' => ?_) hother).treeOf (by simpa using inner)⟩
      · rw [remove?, Inventory.members, hget]
        rfl
      · -- What is held beneath the name is held at the path itself.
        by_cases hrest : rest' = []
        · simp [hrest]
        · rw [if_neg (by simpa using hrest)]
          exact happart.eq_none (by simpa using hrest) (.inr ⟨rest', rfl⟩)
    | cons next rest =>
      obtain ⟨pruned, hpruned, htree⟩ := ih hchild (List.cons_ne_nil _ _) happart.tail hvalue
      have hstop : held [key] = none := happart.eq_none (by simp) (.inl ⟨next :: rest, rfl⟩)
      have hbeneath : TreeOf (fun rest' => if key :: rest' = key :: next :: rest then none
          else held (key :: rest')) pruned := by
        simpa only [List.cons.injEq, true_and] using htree
      refine ⟨_, ?_, (hmembers.prune hbeneath (by simpa using hstop) hother).treeOf
        (by simpa using inner)⟩
      rw [remove?, Inventory.members, hget]
      change (remove? (next :: rest) child >>= _) = _
      rw [hpruned]
      rfl

/-! ### Look-ups -/

/-- A map has one tree. -/
theorem unique {tree' : Json} (h : TreeOf held tree) (h' : TreeOf held tree') : tree' = tree := by
  induction h generalizing tree' with
  | value here alone =>
    cases h' with
    | value here' alone' => exact Option.some.inj (here'.symm.trans here)
    | object inner' sorted' branches' children' =>
      rw [inner'] at here
      cases here
  | @object held members inner sorted branches children ih =>
    obtain ⟨members', rfl, hmembers'⟩ := h'.exists_membersOf inner
    have hmembers : MembersOf held members := ⟨sorted, branches, children⟩
    refine congrArg Json.obj (Assoc.eq_of_get?_eq hmembers'.sorted sorted fun key => ?_)
    cases hget : Assoc.get? key members with
    | none => exact hmembers'.get?_eq_none_iff.2 (hmembers.get?_eq_none_iff.1 hget)
    | some child =>
      obtain ⟨child', hget'⟩ := (hmembers'.branches key).2 ((branches key).1 ⟨child, hget⟩)
      rw [hget', ih key child hget (hmembers'.children key child' hget')]

/-- What is held at a path is found there. -/
theorem lookup? {value : Json} (h : TreeOf held tree) (hvalue : held path = some value) :
    lookup? path tree = some value := by
  induction path generalizing held tree with
  | nil =>
    cases h with
    | value here alone => exact here.symm.trans hvalue
    | object inner sorted branches children =>
      rw [inner] at hvalue
      cases hvalue
  | cons key rest ih =>
    cases h with
    | value here alone =>
      rw [alone] at hvalue
      cases hvalue
    | object inner sorted branches children =>
      obtain ⟨child, hget⟩ := (branches key).2 ⟨rest, value, hvalue⟩
      rw [Inventory.lookup?, Json.get?, hget]
      exact ih (children key child hget) hvalue

/-- The tree has no branches but those of held paths. A path that leads somewhere, and is not the
empty one, ends in a held value or inside of one, or else stops short of one, at a node that is not
empty. -/
theorem exists_held {node : Json} (h : TreeOf held tree) (hne : path ≠ [])
    (hnode : Inventory.lookup? path tree = some node) :
    (∃ other value, held other = some value ∧ other <+: path) ∨
      isEmpty node = false ∧ ∃ other value, held other = some value ∧ path <+: other := by
  induction path generalizing held tree with
  | nil => exact absurd rfl hne
  | cons key rest ih =>
    cases h with
    | value here alone => exact .inl ⟨[], _, here, List.nil_prefix⟩
    | @object _ members inner sorted branches children =>
      obtain ⟨child, hget, hnode⟩ := Option.bind_eq_some_iff.1 hnode
      have hchild : TreeOf (fun rest => held (key :: rest)) child := children key child hget
      cases rest with
      | nil =>
        obtain ⟨rest, value, hvalue⟩ := (branches key).1 ⟨child, hget⟩
        cases hhere : held [key] with
        | some own => exact .inl ⟨[key], own, hhere, List.prefix_refl _⟩
        | none =>
          refine .inr ⟨Bool.eq_false_iff.2 fun hempty => ?_, key :: rest, value, hvalue, rest, rfl⟩
          rw [← Option.some.inj hnode, hchild.isEmpty_iff hhere] at hempty
          rw [hempty rest] at hvalue
          cases hvalue
      | cons next rest =>
        rcases ih hchild (List.cons_ne_nil _ _) hnode with
          ⟨other, value, hvalue, hrelated⟩ | ⟨hfull, other, value, hvalue, hrelated⟩
        · exact .inl ⟨key :: other, value, hvalue, (List.prefix_cons_inj key).2 hrelated⟩
        · exact .inr ⟨hfull, key :: other, value, hvalue, (List.prefix_cons_inj key).2 hrelated⟩

end TreeOf

end PolicyEngine.Inventory
