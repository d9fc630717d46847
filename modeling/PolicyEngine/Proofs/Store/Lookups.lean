import Mathlib.Data.List.Infix
import PolicyEngine.Proofs.Json.Pointer
import PolicyEngine.Store.Inventory

/-!
# Look-ups in trees

What is found in a tree after a value was put into it or removed from it, for any tree and any two
paths that part. Putting a value clears its way of what is no object, and a removal prunes what it
leaves empty, but neither is seen from a path that parts from the changed one. Whether a removal
finds something is known by a look-up, and taking out a new value gives the old tree back if nothing
on the way to it was empty.

A removal can also be told as a walk that works on the tree in place and comes back with it whether
or not there was a value at the end of the path. On trees that list their members in order the walk
leaves the tree alone where nothing is removed.

## Main definitions

* `PolicyEngine.Inventory.Parts` — two paths of which neither begins the other.
* `PolicyEngine.Inventory.removeAlong` — removal as a walk in place.

## Main results

* `PolicyEngine.Inventory.Parts.lookup?_insert`, `PolicyEngine.Inventory.Parts.lookup?_remove?`.
* `PolicyEngine.Inventory.isSome_remove?`, `PolicyEngine.Inventory.lookup?_remove?_self`.
* `PolicyEngine.Inventory.remove?_insert` — a new value is taken out without a trace.
* `PolicyEngine.Inventory.removeAlong_eq` — the walk removes what the removal does.
* `PolicyEngine.Inventory.lookup?_changes` — all of these laws.
-/

namespace PolicyEngine.Inventory

variable {path other rest : List String} {key key' : String} {tree value : Json}

/-! ### Paths that part -/

/-- Two paths part: neither begins the other. -/
def Parts (path other : List String) : Prop := ¬path <+: other ∧ ¬other <+: path

/-- Behind a common first name the rests of two paths part. -/
theorem Parts.tail {rest' : List String} (h : Parts (key :: rest) (key :: rest')) :
    Parts rest rest' :=
  h.imp (mt (List.prefix_cons_inj key).2) (mt (List.prefix_cons_inj key).2)

theorem Parts.ne_nil (h : Parts path other) : other ≠ [] := by
  rintro rfl
  exact h.2 List.nil_prefix

/-! ### Look-ups -/

theorem get?_eq (key : String) (tree : Json) : tree.get? key = Assoc.get? key (members tree) := by
  cases tree <;> rfl

theorem lookup?_cons (key : String) (rest : List String) (tree : Json) :
    lookup? (key :: rest) tree = (Assoc.get? key (members tree)).bind (lookup? rest) := by
  rw [lookup?, get?_eq]

theorem isEmpty_iff : isEmpty tree = true ↔ tree = .emptyObject := by
  cases tree with
  | obj ms => cases ms <;> simp [isEmpty, Json.emptyObject]
  | _ => simp [isEmpty, Json.emptyObject]

/-- A path goes nowhere in a tree that is empty. -/
theorem lookup?_of_isEmpty (hne : path ≠ []) (h : isEmpty tree = true) :
    lookup? path tree = none := by
  cases path with
  | nil => exact absurd rfl hne
  | cons key rest =>
    rw [lookup?_cons]
    cases tree with
    | obj members =>
      cases members with
      | nil => rfl
      | cons m others => cases h
    | _ => rfl

/-! ### Insertion -/

/-- A value is not seen from paths that part from its own. -/
theorem Parts.lookup?_insert (h : Parts path other) (value tree : Json) :
    lookup? other (insert value path tree) = lookup? other tree := by
  induction path generalizing other tree with
  | nil => exact absurd List.nil_prefix h.1
  | cons key rest ih =>
    cases other with
    | nil => exact absurd List.nil_prefix h.2
    | cons key' rest' =>
      rw [lookup?_cons, lookup?_cons, insert, members, Assoc.get?_insert]
      split
      · rename_i hkey
        subst hkey
        rw [Option.bind_some, ih h.tail]
        -- Where there is no child yet, nothing is found in the object that is made for it.
        cases Assoc.get? key' (members tree) with
        | some child => rfl
        | none => exact lookup?_of_isEmpty h.tail.ne_nil rfl
      · rfl

/-! ### Removal -/

/-- A removal further down prunes the child on its way, and drops it if that leaves it empty. -/
theorem remove?_cons_cons_eq_some_iff {next : String} {pruned : Json} :
    remove? (key :: next :: rest) tree = some pruned ↔
      ∃ child left, Assoc.get? key (members tree) = some child ∧
        remove? (next :: rest) child = some left ∧
          pruned = .obj (if isEmpty left then Assoc.erase key (members tree)
            else Assoc.insert key left (members tree)) := by
  simp only [remove?, Option.bind_eq_bind, Option.bind_eq_some_iff, Option.pure_def,
    Option.some.injEq, exists_and_left, eq_comm (a := pruned)]

theorem remove?_cons_cons {next : String} {child : Json}
    (hchild : Assoc.get? key (members tree) = some child) :
    remove? (key :: next :: rest) tree = (remove? (next :: rest) child).map fun left =>
      .obj (if isEmpty left then Assoc.erase key (members tree)
        else Assoc.insert key left (members tree)) := by
  rw [remove?, hchild]
  change (remove? (next :: rest) child).bind _ = _
  cases remove? (next :: rest) child <;> rfl

/-- Beneath its first name a pruned tree holds what is left of the child. -/
theorem lookup?_prune_self (ms : List (String × Json)) {left : Json} (hne : rest ≠ []) :
    lookup? (key :: rest) (.obj (if isEmpty left then Assoc.erase key ms
      else Assoc.insert key left ms)) = lookup? rest left := by
  rw [lookup?_cons, members]
  split
  · rename_i hempty
    rw [Assoc.get?_erase, if_pos rfl, lookup?_of_isEmpty hne hempty]
    rfl
  · rw [Assoc.get?_insert, if_pos rfl]
    rfl

/-- Pruning a child leaves the others alone. -/
theorem lookup?_prune_of_ne {left : Json} (hkey : key' ≠ key) :
    lookup? (key' :: rest) (.obj (if isEmpty left then Assoc.erase key (members tree)
      else Assoc.insert key left (members tree))) = lookup? (key' :: rest) tree := by
  rw [lookup?_cons, lookup?_cons, members]
  split
  · rw [Assoc.get?_erase, if_neg hkey]
  · rw [Assoc.get?_insert, if_neg hkey]

/-- A removal finds something where a look-up does. -/
theorem isSome_remove? (hne : path ≠ []) (tree : Json) :
    (remove? path tree).isSome = (lookup? path tree).isSome := by
  fun_induction remove? path tree with
  | case1 => exact absurd rfl hne
  | case2 => exact absurd rfl hne
  | case3 key tree =>
    rw [lookup?_cons, Option.isSome_map]
    cases Assoc.get? key (members tree) <;> rfl
  | case4 key next rest tree ih =>
    change (remove? (key :: next :: rest) tree).isSome = _
    rw [lookup?_cons]
    cases hchild : Assoc.get? key (members tree) with
    | none => rw [remove?, hchild]; rfl
    | some child =>
      rw [remove?_cons_cons hchild, Option.isSome_map, Option.bind_some,
        ih child (List.cons_ne_nil _ _)]

/-- What was removed is not found any more. -/
theorem lookup?_remove?_self {pruned : Json} (hne : path ≠ [])
    (h : remove? path tree = some pruned) : lookup? path pruned = none := by
  fun_induction remove? path tree generalizing pruned with
  | case1 => exact absurd rfl hne
  | case2 => exact absurd rfl hne
  | case3 key tree =>
    obtain ⟨child, -, rfl⟩ := Option.map_eq_some_iff.1 h
    rw [lookup?_cons, members, Assoc.get?_erase, if_pos rfl]
    rfl
  | case4 key next rest tree ih =>
    obtain ⟨child, left, -, hleft, rfl⟩ := remove?_cons_cons_eq_some_iff.1 h
    rw [lookup?_prune_self _ (List.cons_ne_nil _ _)]
    exact ih child (List.cons_ne_nil _ _) hleft

/-- A removal is not seen from paths that part from its own. -/
theorem Parts.lookup?_remove? {pruned : Json} (h : Parts path other)
    (hpruned : remove? path tree = some pruned) : lookup? other pruned = lookup? other tree := by
  fun_induction remove? path tree generalizing other pruned with
  | case1 => exact absurd List.nil_prefix h.1
  | case2 => exact absurd List.nil_prefix h.1
  | case3 key tree =>
    obtain ⟨child, -, rfl⟩ := Option.map_eq_some_iff.1 hpruned
    cases other with
    | nil => exact absurd List.nil_prefix h.2
    | cons key' rest' =>
      have hkey : key' ≠ key := by
        rintro rfl
        exact h.tail.1 List.nil_prefix
      rw [lookup?_cons, lookup?_cons, members, Assoc.get?_erase, if_neg hkey]
  | case4 key next rest tree ih =>
    obtain ⟨child, left, hchild, hleft, rfl⟩ := remove?_cons_cons_eq_some_iff.1 hpruned
    cases other with
    | nil => exact absurd List.nil_prefix h.2
    | cons key' rest' =>
      by_cases hkey : key' = key
      · subst hkey
        rw [lookup?_prune_self _ h.tail.ne_nil, ih child h.tail hleft, lookup?_cons, hchild]
        rfl
      · exact lookup?_prune_of_ne hkey

/-! ### Removal after insertion -/

/-- Pruning back what was exchanged beneath a name gives the old members. -/
theorem prune_insert {ms : List (String × Json)} (hms : Assoc.Sorted ms) {child : Json}
    (h : Assoc.get? key ms = none ∧ isEmpty child = true ∨
      Assoc.get? key ms = some child ∧ isEmpty child = false) (value : Json) :
    (if isEmpty child then Assoc.erase key (Assoc.insert key value ms)
      else Assoc.insert key child (Assoc.insert key value ms)) = ms := by
  rcases h with ⟨hnone, hempty⟩ | ⟨hsome, hfull⟩
  · rw [if_pos hempty, Assoc.erase_insert_of_get?_eq_none hnone]
  · rw [if_neg (Bool.eq_false_iff.1 hfull), Assoc.insert_insert hms,
      Assoc.insert_of_get?_eq_some hms hsome]

/-- Taking out a new value gives the old tree back, provided that all that was on the way to it were
objects with members. -/
theorem remove?_insert (hcanonical : tree.Canonical) (hobject : tree.isObject = true)
    (habsent : lookup? path tree = none)
    (hway : ∀ front node, front ≠ [] → front <+: path → front ≠ path →
      lookup? front tree = some node → node.isObject = true ∧ isEmpty node = false)
    (value : Json) : remove? path (insert value path tree) = some tree := by
  induction path generalizing tree with
  | nil => cases habsent
  | cons key rest ih =>
    obtain ⟨ms, rfl⟩ : ∃ ms, tree = .obj ms := by
      cases tree with
      | obj ms => exact ⟨ms, rfl⟩
      | _ => cases hobject
    rw [lookup?_cons, members] at habsent
    cases rest with
    | nil =>
      have hnone : Assoc.get? key ms = none := (Option.bind_fun_some _).symm.trans habsent
      simp [insert, remove?, members, Assoc.get?_insert,
        Assoc.erase_insert_of_get?_eq_none hnone]
    | cons next rest =>
      have hinsert (child : Json) (h : (Assoc.get? key ms).getD .emptyObject = child) :
          insert value (key :: next :: rest) (.obj ms) =
            .obj (Assoc.insert key (insert value (next :: rest) child) ms) := by
        rw [← h]
        rfl
      rw [remove?_cons_cons_eq_some_iff]
      cases hchild : Assoc.get? key ms with
      | none =>
        -- The object that is made on the way is left empty and goes again.
        have hempty : Json.emptyObject.Canonical := ⟨Assoc.sorted_nil, trivial⟩
        have hleft := ih hempty rfl rfl fun front node hne _ _ hnode => by
          rw [lookup?_of_isEmpty hne rfl] at hnode
          cases hnode
        rw [hinsert .emptyObject (by rw [hchild]; rfl), members]
        refine ⟨_, .emptyObject, by rw [Assoc.get?_insert, if_pos rfl], hleft, ?_⟩
        rw [prune_insert hcanonical.1 (.inl ⟨hchild, rfl⟩)]
      | some child =>
        rw [hchild] at habsent
        have hnode : lookup? [key] (.obj ms) = some child := by
          rw [lookup?_cons, members, hchild]
          rfl
        obtain ⟨hobject, hfull⟩ := hway [key] child (by simp) ⟨next :: rest, rfl⟩ (by simp) hnode
        have hleft := ih (hcanonical.of_mem_members (Assoc.mem_of_get?_eq_some hchild)) hobject
          habsent fun front node hne hprefix hproper hnode =>
            hway (key :: front) node (by simp) ((List.prefix_cons_inj key).2 hprefix)
              (by simpa using hproper) (by rwa [lookup?_cons, members, hchild])
        rw [hinsert child (by rw [hchild]; rfl), members]
        refine ⟨_, child, by rw [Assoc.get?_insert, if_pos rfl], hleft, ?_⟩
        rw [prune_insert hcanonical.1 (.inr ⟨hchild, hfull⟩)]

/-! ### Removal in place -/

/-- Remove the value at a path as a walk that works on the tree in place: every object on the way
gets its child back from the walk, also if nothing was removed from it, and loses it if the removal
has left it empty. Tells whether something was removed. -/
def removeAlong : (path : List String) → (tree : Json) → Json × Bool
  | [], tree => (.emptyObject, !isEmpty tree)
  | [key], .obj ms => (.obj (Assoc.erase key ms), Assoc.contains key ms)
  | key :: next :: rest, .obj ms =>
    match Assoc.get? key ms with
    | none => (.obj ms, false)
    | some child =>
      let (left, removed) := removeAlong (next :: rest) child
      if removed && isEmpty left then (.obj (Assoc.erase key ms), removed)
      else (.obj (Assoc.insert key left ms), removed)
  | _ :: _, tree => (tree, false)

/-- The walk comes to what the removal comes to, and to the tree as it was if there is nothing to
remove. -/
theorem removeAlong_eq (hcanonical : tree.Canonical) (path : List String) :
    removeAlong path tree = ((remove? path tree).getD tree, (remove? path tree).isSome) := by
  induction path generalizing tree with
  | nil =>
    rw [removeAlong, remove?]
    cases hempty : isEmpty tree with
    | true => rw [isEmpty_iff.1 hempty]; rfl
    | false => rfl
  | cons key rest ih =>
    cases tree with
    | obj ms =>
      cases rest with
      | nil =>
        rw [removeAlong, remove?, members, Assoc.contains, Option.isSome_map]
        cases hchild : Assoc.get? key ms with
        | none => rw [Assoc.erase_of_get?_eq_none hchild]; rfl
        | some child => rfl
      | cons next rest =>
        rw [removeAlong]
        cases hchild : Assoc.get? key ms with
        | none => rw [remove?, members, hchild]; rfl
        | some child =>
          have hwalk := ih (hcanonical.of_mem_members (Assoc.mem_of_get?_eq_some hchild))
          rw [remove?_cons_cons hchild, members]
          dsimp only
          rw [hwalk]
          cases remove? (next :: rest) child with
          | none =>
            -- The object gets the child back that it had.
            change (Json.obj (Assoc.insert key child ms), false) = (.obj ms, false)
            rw [Assoc.insert_of_get?_eq_some hcanonical.1 hchild]
          | some left => cases hempty : isEmpty left <;> simp [hempty]
    | _ => cases rest <;> rfl

/-! ### All laws -/

/-- **Trees are changed at one path alone.** In any tree of JSON values, a value that is put at a
path is found there, and everything at paths that part from it is found as before. A removal at a
path that is not empty succeeds if and only if a look-up finds something; afterwards it finds
nothing, and paths that part from it see no difference. If it does not succeed, the walk in place
comes back with the tree as it was. A value that is put where nothing was, on a way along objects
that are not empty as far as there are any, is taken out again without a trace. -/
theorem lookup?_changes (tree value : Json) (path : List String) :
    (lookup? path (insert value path tree) = some value ∧
      ∀ other, Parts path other →
        lookup? other (insert value path tree) = lookup? other tree) ∧
    (path ≠ [] → ((remove? path tree).isSome = true ↔ ∃ found, lookup? path tree = some found) ∧
      ∀ pruned, remove? path tree = some pruned → lookup? path pruned = none ∧
        ∀ other, Parts path other → lookup? other pruned = lookup? other tree) ∧
    (tree.Canonical →
      removeAlong path tree = ((remove? path tree).getD tree, (remove? path tree).isSome) ∧
      (tree.isObject = true → lookup? path tree = none →
        (∀ front node, front ≠ [] → front <+: path → front ≠ path →
          lookup? front tree = some node → node.isObject = true ∧ isEmpty node = false) →
        remove? path (insert value path tree) = some tree)) := by
  refine ⟨⟨lookup?_insert_self value path tree, fun other h => h.lookup?_insert value tree⟩,
    fun hne => ⟨?_, fun pruned hpruned => ⟨lookup?_remove?_self hne hpruned,
      fun other h => h.lookup?_remove? hpruned⟩⟩,
    fun hcanonical => ⟨removeAlong_eq hcanonical path, fun hobject habsent hway =>
      remove?_insert hcanonical hobject habsent hway value⟩⟩
  rw [isSome_remove? hne, Option.isSome_iff_exists]

/-! ### An instance -/

namespace Desk

/-- A desk with a lamp, beside a door. -/
def room : Json := .obj [("desk", .obj [("lamp", .null)]), ("door", .bool true)]

/-- Where a pen would be kept; the desk has no drawer yet. -/
def place : List String := ["desk", "drawer", "pen"]

end Desk

theorem lookup?_changes_desk :
    Parts Desk.place ["desk", "lamp"] ∧ Desk.room.Canonical ∧
      (∀ front node, front ≠ [] → front <+: Desk.place → front ≠ Desk.place →
        lookup? front Desk.room = some node → node.isObject = true ∧ isEmpty node = false) ∧
      lookup? ["desk", "lamp"] (insert (.bool false) Desk.place Desk.room) = some .null ∧
      remove? Desk.place (insert (.bool false) Desk.place Desk.room) = some Desk.room ∧
      removeAlong Desk.place Desk.room = (Desk.room, false) := by
  have hparts : Parts Desk.place ["desk", "lamp"] := ⟨by decide, by decide⟩
  have hcanonical : Desk.room.Canonical :=
    ⟨.cons (List.forall_mem_singleton.2 (by decide +kernel)) (List.pairwise_singleton _ _),
      ⟨List.pairwise_singleton _ _, trivial, trivial⟩, trivial, trivial⟩
  have hway : ∀ front node, front ≠ [] → front <+: Desk.place → front ≠ Desk.place →
      lookup? front Desk.room = some node → node.isObject = true ∧ isEmpty node = false := by
    have hinits : ∀ front ∈ Desk.place.inits, front ≠ [] → front ≠ Desk.place →
        (lookup? front Desk.room).all (fun node => node.isObject && !isEmpty node) = true := by
      decide +kernel
    intro front node hne hprefix hproper hnode
    have hfull := hinits front ((List.mem_inits _ _).2 hprefix) hne hproper
    rw [hnode] at hfull
    simpa using hfull
  obtain ⟨⟨-, hother⟩, -, hexact⟩ := lookup?_changes Desk.room (.bool false) Desk.place
  obtain ⟨hwalk, hrestored⟩ := hexact hcanonical
  exact ⟨hparts, hcanonical, hway, (hother _ hparts).trans rfl, hrestored rfl rfl hway,
    hwalk.trans rfl⟩

end PolicyEngine.Inventory
