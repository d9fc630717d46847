import PolicyEngine.Proofs.Template.Admitted
import PolicyEngine.Store.Operation

/-!
# Commits of module changes

A commit drops the modules at and beneath those that its change removes, and then puts the modules
of the change in their order. Removals take whole subtrees with them and may overlap. Two changes
whose modules stand apart, none of one at or beneath one of the other, can be committed in either
order.

## Main definitions

* `PolicyEngine.ModuleId.IsUnder` — a module is another one or stands beneath it.
* `PolicyEngine.ModuleChange.Removes`, `PolicyEngine.ModuleChange.PutsLast` — what a change does to
  one module.
* `PolicyEngine.ModuleChange.Apart` — changes with no modules at or beneath one another.
* `PolicyEngine.Store.Sound` — the store admits all of its modules.

## Main results

* `PolicyEngine.ModuleChange.get?_applyTo_eq_some_iff` — the modules after a change.
* `PolicyEngine.ModuleChange.dropped_eq_length` — how many modules a change drops.
* `PolicyEngine.ModuleChange.Apart.applyTo_comm`, `PolicyEngine.ModuleChange.Apart.dropped_eq` —
  changes that stand apart commute.
* `PolicyEngine.Store.Sound.run` — stores are sound.
* `PolicyEngine.Store.commit_run` — what commits do to the stores that can occur.
-/

namespace PolicyEngine

/-! ### Modules beneath modules -/

namespace ModuleId

/-- A module is another one, or its path goes on from the path of that one with a dot. -/
def IsUnder (id parent : ModuleId) : Prop :=
  id = parent ∨ ∃ rest, id.path = parent.path ++ "." ++ rest

theorem covers_iff_isUnder {parent id : ModuleId} :
    parent.covers id = true ↔ id.IsUnder parent := by
  rw [covers, Bool.or_eq_true, beq_iff_eq, isWithin, List.isPrefixOf_iff_prefix]
  refine or_congr eq_comm ?_
  constructor
  · rintro ⟨rest, hrest⟩
    refine ⟨String.ofList rest, String.toList_injective ?_⟩
    simp [← hrest]
  · rintro ⟨rest, hrest⟩
    exact ⟨rest.toList, by simp [hrest]⟩

instance (id parent : ModuleId) : Decidable (id.IsUnder parent) :=
  decidable_of_iff _ covers_iff_isUnder

theorem IsUnder.refl (id : ModuleId) : id.IsUnder id := .inl rfl

/-- Of two modules above a third one, one stands at or beneath the other. -/
theorem IsUnder.total {id a b : ModuleId} (ha : id.IsUnder a) (hb : id.IsUnder b) :
    a.IsUnder b ∨ b.IsUnder a := by
  rw [← covers_iff_isUnder] at ha hb ⊢
  rw [← covers_iff_isUnder]
  exact (covers_total ha hb).symm

end ModuleId

/-! ### Changes of modules -/

namespace ModuleChange

variable {change change' : ModuleChange} {modules modules' : ModuleMap} {id : ModuleId}
  {source : String}

/-- A module is kept as long as no removal covers it. -/
theorem get?_keep_eq_some_iff {removals : List ModuleId} :
    (keep removals modules).get? id = some source ↔
      modules.get? id = some source ∧ ∀ removal ∈ removals, removal.covers id = false := by
  rw [keep, SortedMap.get?_filter, Option.filter_eq_some_iff]
  simp

/-- A change removes a module if it stands at or beneath one of the removals. -/
def Removes (change : ModuleChange) (id : ModuleId) : Prop :=
  ∃ removal ∈ change.removals, id.IsUnder removal

instance : DecidablePred change.Removes := fun _ =>
  inferInstanceAs (Decidable (∃ removal ∈ change.removals, _))

/-- A source is the last one that a change puts for a module. -/
def PutsLast (change : ModuleChange) (id : ModuleId) (source : String) : Prop :=
  ∃ front back, change.puts = front ++ (id, source) :: back ∧ id ∉ back.map Prod.fst

theorem PutsLast.mem (h : change.PutsLast id source) : id ∈ change.puts.map Prod.fst := by
  obtain ⟨front, back, hputs, -⟩ := h
  simp [hputs]

/-- After a change a module has the last source that the change puts for it, or if it puts none and
does not remove the module, the source that it had. -/
theorem get?_applyTo_eq_some_iff : (change.applyTo modules).get? id = some source ↔
    change.PutsLast id source ∨
      id ∉ change.puts.map Prod.fst ∧ ¬change.Removes id ∧ modules.get? id = some source := by
  have hkept : (∀ removal ∈ change.removals, removal.covers id = false) ↔ ¬change.Removes id := by
    simp [Removes, ← ModuleId.covers_iff_isUnder]
  rw [applyTo, SortedMap.get?_insertAll, Option.or_eq_some_iff, Assoc.get?_reverse_eq_some_iff,
    Assoc.get?_eq_none_iff_notMem, List.map_reverse, List.mem_reverse, get?_keep_eq_some_iff,
    hkept, and_comm (a := ¬change.Removes id)]
  rfl

theorem any_covers_eq_decide (change : ModuleChange) (id : ModuleId) :
    (change.removals.any fun removal => removal.covers id) = decide (change.Removes id) := by
  rw [Bool.eq_iff_iff, decide_eq_true_iff]
  simp [Removes, ModuleId.covers_iff_isUnder]

/-- A change drops the modules that it removes. -/
theorem dropped_eq_length :
    change.dropped modules = (modules.keys.filter fun id => change.Removes id).length := by
  have hkept : (keep change.removals modules).size =
      (modules.keys.filter fun id => !decide (change.Removes id)).length := by
    simp only [keep, any_covers_eq_decide, SortedMap.keys, List.filter_map, List.length_map]
    rfl
  have hall : modules.size = modules.keys.length := (List.length_map _).symm
  have hparts := modules.keys.length_eq_length_filter_add fun id => decide (change.Removes id)
  rw [dropped, hkept, hall]
  omega

/-- Changes of maps whose removed modules are the same drop the same number. -/
theorem dropped_congr (h : ∀ id, change.Removes id → (id ∈ modules.keys ↔ id ∈ modules'.keys)) :
    change.dropped modules = change.dropped modules' := by
  rw [dropped_eq_length, dropped_eq_length]
  refine List.Perm.length_eq ?_
  refine (List.perm_ext_iff_of_nodup (modules.nodup_keys.filter _)
    (modules'.nodup_keys.filter _)).2 fun id => ?_
  simp only [List.mem_filter, decide_eq_true_eq]
  exact and_congr_left (h id)

/-! ### Changes that stand apart -/

/-- The modules that a change puts or removes. -/
def ids (change : ModuleChange) : List ModuleId :=
  change.puts.map Prod.fst ++ change.removals

/-- No module of one change stands at or beneath one of the other. -/
def Apart (change change' : ModuleChange) : Prop :=
  ∀ id ∈ change.ids, ∀ id' ∈ change'.ids, ¬id.IsUnder id' ∧ ¬id'.IsUnder id

namespace Apart

theorem symm (h : change.Apart change') : change'.Apart change :=
  fun id hid id' hid' => (h id' hid' id hid).symm

/-- What one change puts the other one neither puts nor removes. -/
theorem of_mem_puts (h : change.Apart change') (hid : id ∈ change.puts.map Prod.fst) :
    id ∉ change'.puts.map Prod.fst ∧ ¬change'.Removes id := by
  have hmem : id ∈ change.ids := List.mem_append_left _ hid
  refine ⟨fun hid' => ?_, ?_⟩
  · exact (h id hmem id (List.mem_append_left _ hid')).1 (.refl id)
  · rintro ⟨removal, hremoval, hunder⟩
    exact (h id hmem removal (List.mem_append_right _ hremoval)).1 hunder

/-- No module is removed by both changes. -/
theorem not_removes (h : change.Apart change') (hid : change.Removes id) : ¬change'.Removes id := by
  rintro ⟨removal', hremoval', hunder'⟩
  obtain ⟨removal, hremoval, hunder⟩ := hid
  obtain ⟨hnot, hnot'⟩ := h removal (List.mem_append_right _ hremoval) removal'
    (List.mem_append_right _ hremoval')
  exact (hunder.total hunder').elim hnot hnot'

/-- Changes that stand apart can be made in either order. -/
theorem applyTo_comm (h : change.Apart change') (modules : ModuleMap) :
    change'.applyTo (change.applyTo modules) = change.applyTo (change'.applyTo modules) := by
  refine SortedMap.ext_get? fun id => Option.ext fun source => ?_
  have hputs := fun hlast : change.PutsLast id source => h.of_mem_puts hlast.mem
  have hputs' := fun hlast : change'.PutsLast id source => h.symm.of_mem_puts hlast.mem
  simp only [get?_applyTo_eq_some_iff]
  tauto

/-- A change drops as many modules after a change that stands apart from it as before. -/
theorem dropped_eq (h : change.Apart change') (modules : ModuleMap) :
    change'.dropped (change.applyTo modules) = change'.dropped modules := by
  refine dropped_congr fun id hremoves => ?_
  have hnot := h.symm.not_removes hremoves
  have hputs : id ∉ change.puts.map Prod.fst := fun hid => (h.of_mem_puts hid).2 hremoves
  have hnotLast : ∀ source, ¬change.PutsLast id source := fun _ hlast => hputs hlast.mem
  simp only [SortedMap.mem_keys_iff, get?_applyTo_eq_some_iff, hnot, hputs, hnotLast,
    not_false_iff, true_and, false_or]

end Apart

end ModuleChange

/-! ### Stores that can occur -/

namespace Store

variable {ev : Evaluator} {store : Store}

/-- The store admits all of its modules. -/
def Sound (ev : Evaluator) (store : Store) : Prop :=
  ∀ id source, store.modules.get? id = some source → Admits ev (id, source)

theorem modules_removeData (store : Store) (target : TargetName) (path : List String) :
    (store.removeData target path).1.modules = store.modules := by
  rw [removeData]
  split <;> rfl

namespace Sound

theorem empty : Sound ev {} := fun _ _ h => nomatch h

/-- A commit leads from sound stores to sound stores. -/
theorem commit (h : store.Sound ev) (prepared : PreparedChange ev) :
    (store.commit prepared).1.Sound ev := by
  intro id source hget
  rcases ModuleChange.get?_applyTo_eq_some_iff.1 hget with ⟨front, back, hputs, -⟩ | ⟨-, -, hget⟩
  · have hadmits := ModuleChange.fault?_eq_none_iff.1 prepared.sound
    exact hadmits (id, source) (by simp [hputs])
  · exact h id source hget

theorem perform (h : store.Sound ev) (operation : Operation ev) :
    (store.perform operation).Sound ev := by
  cases operation with
  | commit prepared => exact h.commit prepared
  | putModule id source =>
    rw [Store.perform, putModule]
    cases prepare ev { puts := [(id, source)] } with
    | ok prepared => exact h.commit prepared
    | error e => exact h
  | removeModule id => exact h.commit (.ofRemovals ev [id])
  | putData target path value => exact h
  | removeData target path =>
    intro id source hget
    exact h id source (modules_removeData store target path ▸ hget)
  | clear => exact empty

/-- Operations lead from sound stores to sound stores. -/
theorem run (h : store.Sound ev) (operations : List (Operation ev)) :
    (store.run operations).Sound ev := by
  induction operations generalizing store with
  | nil => exact h
  | cons operation rest ih => exact ih (h.perform operation)

end Sound

/-- **Commits.** In every store that can occur a commit leaves each module with the last source that
its change puts for it, or else, unless the change removes the module or one above it, with the
source that it had. It counts the modules that the change removes. Every module declares its
identifier as its package. And changes that stand apart can be committed in either order, with the
same modules in the end and the same counts. -/
theorem commit_run (ev : Evaluator) (operations : List (Operation ev))
    (prepared : PreparedChange ev) :
    let store := run {} operations
    let next := (store.commit prepared).1
    (∀ id source, next.modules.get? id = some source ↔
      prepared.change.PutsLast id source ∨ id ∉ prepared.change.puts.map Prod.fst ∧
        ¬prepared.change.Removes id ∧ store.modules.get? id = some source) ∧
    (store.commit prepared).2.removed =
      (store.modules.keys.filter fun id => prepared.change.Removes id).length ∧
    (∀ id source, next.modules.get? id = some source →
      (RuleText.findPackage? source).map (·.path) = some id.path) ∧
    ∀ prepared' : PreparedChange ev, prepared.change.Apart prepared'.change →
      let next' := (store.commit prepared').1
      (next.commit prepared').1.modules = (next'.commit prepared).1.modules ∧
      (next.commit prepared').2.removed = (store.commit prepared').2.removed ∧
      (next'.commit prepared).2.removed = (store.commit prepared).2.removed := by
  intro store next
  have hsound : store.Sound ev := Sound.empty.run operations
  refine ⟨fun _ _ => ModuleChange.get?_applyTo_eq_some_iff, ModuleChange.dropped_eq_length,
    fun id source hget => (hsound.commit prepared id source hget).package,
    fun prepared' hapart => ?_⟩
  exact ⟨hapart.applyTo_comm store.modules, hapart.dropped_eq store.modules,
    hapart.symm.dropped_eq store.modules⟩

namespace Commit

def evaluator : Evaluator where
  parses _ := true
  results _ := .ok []

/-- A module without rules. -/
def blank (path : String) : ModuleId × String := (⟨path⟩, "package " ++ path)

/-- The operation that registers some modules. -/
def operations : List (Operation evaluator) :=
  ["a", "a.b", "ab", "c"].map fun path => .putModule ⟨path⟩ (blank path).2

/-- A change that removes a subtree twice and puts one of its modules again. -/
def renewal : PreparedChange evaluator :=
  ⟨{ removals := [⟨"a"⟩, ⟨"a.b"⟩], puts := [blank "a.b"] }, by decide +kernel⟩

/-- A change of a module whose path only begins with that of a removed one. -/
def extension : PreparedChange evaluator :=
  ⟨{ removals := [⟨"ab.d"⟩], puts := [blank "ab"] }, by decide +kernel⟩

end Commit

open Commit in
theorem commit_run_renewal :
    ((run {} operations).commit renewal).2.removed = 2 ∧
      renewal.change.Apart extension.change ∧
      (((run {} operations).commit renewal).1.commit extension).1.modules =
        (((run {} operations).commit extension).1.commit renewal).1.modules := by
  have hapart : renewal.change.Apart extension.change := by
    rw [ModuleChange.Apart]
    decide +kernel
  obtain ⟨-, hremoved, -, hcommutes⟩ := commit_run evaluator operations renewal
  exact ⟨hremoved.trans (by decide +kernel), hapart, (hcommutes extension hapart).1⟩

end Store

end PolicyEngine
