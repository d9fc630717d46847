import PolicyEngine.Proofs.Client.Locality
import PolicyEngine.Proofs.Store.Inventory
import PolicyEngine.Proofs.Target.DataPaths
import PolicyEngine.Proofs.Target.Registry

/-!
# What the inventories hold

For each target the objects that were added and not removed since make up a finite map, from the
path where the target keeps an object to the object. Adding an object puts it into the map of every
target that keeps it, removing one clears its path, and a reset clears all maps. If every target
keeps objects apart, as the built-in targets do, the inventory of a target is the tree of its map
after any operations, and the counts that the operations report are those of the maps.

## Main definitions

* `PolicyEngine.Holdings`, `PolicyEngine.Holdings.perform`, `PolicyEngine.Holdings.run` — the
  objects of a target by path.
* `PolicyEngine.Store.Keeps` — the inventory of a target is the tree of its holdings.

## Main results

* `PolicyEngine.Client.inventory_addData`, `PolicyEngine.Client.inventory_removeData` — what an
  operation on data does to the inventory of one target.
* `PolicyEngine.Store.Keeps.perform`, `PolicyEngine.Store.Keeps.run`.
* `PolicyEngine.Client.inventories_run` — the inventories after any operations.
-/

namespace PolicyEngine

/-! ### Inventories after a change -/

namespace Store

theorem inventory_putData (store : Store) (target name : TargetName) (path : List String)
    (value : Json) : (store.putData target path value).inventory name =
      if name = target then Inventory.insert value path (store.inventory name)
      else store.inventory name := by
  rw [inventory, putData, SortedMap.get?_insert]
  split
  · rename_i hname
    rw [hname]
    rfl
  · rfl

/-- Nothing can be removed from an inventory that is not there, as from an empty one. -/
theorem bind_remove? (store : Store) (target : TargetName) {path : List String}
    (hne : path ≠ []) : (store.inventories.get? target).bind (Inventory.remove? path) =
      Inventory.remove? path (store.inventory target) := by
  rw [inventory]
  cases store.inventories.get? target with
  | some tree => rfl
  | none =>
    have hempty : Inventory.TreeOf (fun _ => none) .emptyObject := .empty fun _ => rfl
    exact (hempty.remove?_eq_none hne (fun _ _ hvalue => nomatch hvalue) rfl).symm

theorem inventory_removeData (store : Store) (target name : TargetName) {path : List String}
    (hne : path ≠ []) : (store.removeData target path).1.inventory name =
      if name = target then
        (Inventory.remove? path (store.inventory name)).getD (store.inventory name)
      else store.inventory name := by
  rw [removeData, store.bind_remove? target hne]
  cases hremove : Inventory.remove? path (store.inventory target) with
  | none =>
    by_cases hname : name = target
    · rw [if_pos hname, hname, hremove]
      rfl
    · rw [if_neg hname]
  | some tree =>
    dsimp only [inventory]
    rw [SortedMap.get?_insert]
    by_cases hname : name = target
    · rw [if_pos hname, if_pos hname, hname]
      exact congrArg (·.getD (store.inventory target)) hremove.symm
    · rw [if_neg hname, if_neg hname]

/-- Whether something was removed. -/
theorem removeData_snd (store : Store) (target : TargetName) {path : List String}
    (hne : path ≠ []) : (store.removeData target path).2 =
      (Inventory.remove? path (store.inventory target)).isSome := by
  rw [removeData, store.bind_remove? target hne]
  cases Inventory.remove? path (store.inventory target) <;> rfl

/-- Where a step for an entry changes the inventory of the entry's target alone, steps for entries
of different targets change the inventory of a target as its own entry does. -/
theorem inventory_foldl {State : Type} (store : State → Store)
    {step : State → TargetName × DataEntry → State} (change : DataEntry → Json → Json)
    {entries : List (TargetName × DataEntry)} (hentries : (entries.map Prod.fst).Nodup)
    (hstep : ∀ e ∈ entries, ∀ state name, (store (step state e)).inventory name =
      if name = e.1 then change e.2 ((store state).inventory name)
      else (store state).inventory name)
    (state : State) (name : TargetName) :
    (store (entries.foldl step state)).inventory name =
      (Assoc.get? name entries).elim ((store state).inventory name) fun e =>
        change e ((store state).inventory name) := by
  induction entries generalizing state with
  | nil => rfl
  | cons first rest ih =>
    obtain ⟨target, e⟩ := first
    obtain ⟨hfirst, hrest⟩ := List.nodup_cons.1 hentries
    obtain ⟨hhead, htail⟩ := List.forall_mem_cons.1 hstep
    rw [List.foldl_cons, ih hrest htail, hhead, Assoc.get?_cons]
    split
    · rename_i hname
      have hnone : Assoc.get? name rest = none := by
        rw [hname]
        exact Assoc.get?_eq_none_iff_notMem.2 hfirst
      rw [hnone]
      rfl
    · rfl

end Store

namespace Client

theorem inventory_removeEntry (state : Store × Nat) {e : TargetName × DataEntry}
    (hne : e.2.path ≠ []) (name : TargetName) : (removeEntry state e).1.inventory name =
      if name = e.1 then
        (Inventory.remove? e.2.path (state.1.inventory name)).getD (state.1.inventory name)
      else state.1.inventory name :=
  state.1.inventory_removeData e.1 name hne

/-- The entries that are counted are those whose path holds something. -/
theorem count_foldl_removeEntry (state : Store × Nat) {entries : List (TargetName × DataEntry)}
    (hentries : (entries.map Prod.fst).Nodup) (hpaths : ∀ e ∈ entries, e.2.path ≠ []) :
    (entries.foldl removeEntry state).2 = state.2 + entries.countP fun e =>
      (Inventory.remove? e.2.path (state.1.inventory e.1)).isSome := by
  induction entries generalizing state with
  | nil => rfl
  | cons first rest ih =>
    obtain ⟨target, e⟩ := first
    obtain ⟨hfirst, hrest⟩ := List.nodup_cons.1 hentries
    obtain ⟨hpath, hpaths⟩ := List.forall_mem_cons.1 hpaths
    have hstep : (removeEntry state (target, e)).2 = state.2 +
        if (Inventory.remove? e.path (state.1.inventory target)).isSome then 1 else 0 := by
      rw [← Store.removeData_snd state.1 target hpath, removeEntry]
      dsimp only
      split <;> rfl
    -- The inventories of the remaining entries are not changed by the first one.
    have hsame : rest.countP (fun other => (Inventory.remove? other.2.path
          ((removeEntry state (target, e)).1.inventory other.1)).isSome) =
        rest.countP fun other =>
          (Inventory.remove? other.2.path (state.1.inventory other.1)).isSome := by
      refine List.countP_congr fun other hother => ?_
      have hmem : other.1 ∈ rest.map Prod.fst := List.mem_map_of_mem hother
      have hne : other.1 ≠ target := by
        rintro rfl
        exact hfirst hmem
      rw [inventory_removeEntry state hpath, if_neg hne]
    rw [List.foldl_cons, ih _ hrest hpaths, hsame, hstep, List.countP_cons, Nat.add_assoc,
      Nat.add_comm (List.countP _ _)]

/-! ### Data operations at one target -/

variable {client : Client} {target : Target}

/-- An object gives rise to at most one entry for each target. -/
theorem nodup_dataEntries (client : Client) (v : Json) :
    ((client.dataEntries v).map Prod.fst).Nodup := by
  refine List.pairwise_map.2 (List.Pairwise.filterMap _ ?_ client.setup.registry.distinct)
  intro first second hident e he e' he' heq
  obtain ⟨_, -, rfl⟩ := Option.map_eq_some_iff.1 he
  obtain ⟨_, -, rfl⟩ := Option.map_eq_some_iff.1 he'
  exact hident (congrArg TargetName.ident heq)

/-- The entry for a target is the one that the target makes. -/
theorem get?_dataEntries (h : target ∈ client.setup.registry.targets) (v : Json) :
    Assoc.get? target.name (client.dataEntries v) = target.dataEntry? v := by
  refine Option.ext fun e => ?_
  rw [Assoc.get?_eq_some_iff (client.nodup_dataEntries v), dataEntries, List.mem_filterMap]
  constructor
  · rintro ⟨target', h', hentry⟩
    obtain ⟨e', hentry, heq⟩ := Option.map_eq_some_iff.1 hentry
    obtain ⟨hname, rfl⟩ := Prod.mk.inj heq
    rwa [← Registry.eq_of_ident_eq h' h (congrArg TargetName.ident hname)]
  · intro hentry
    exact ⟨target, h, by rw [hentry]; rfl⟩

theorem path_ne_nil_of_mem_dataEntries
    (hkeeps : ∀ target ∈ client.setup.registry.targets, target.KeepsApart) {v : Json}
    {e : TargetName × DataEntry} (he : e ∈ client.dataEntries v) : e.2.path ≠ [] := by
  obtain ⟨target, h, hentry⟩ := List.mem_filterMap.1 he
  obtain ⟨e', hentry', rfl⟩ := Option.map_eq_some_iff.1 hentry
  exact (hkeeps target h).path_ne_nil hentry'

/-- Operations on templates and constraints leave all inventories alone. -/
theorem inventory_perform (client : Client) {operation : Operation} {kind : TemplateKind}
    (hkind : operation.kind? = some kind) (name : TargetName) :
    (client.perform operation).1.store.inventory name = client.store.inventory name := by
  rw [Store.inventory, Store.inventory, client.inventories_perform hkind]

/-- Adding an object puts it where a target keeps it. -/
theorem inventory_addData (h : target ∈ client.setup.registry.targets) (v : Json) :
    (client.addData v).1.store.inventory target.name =
      (target.dataEntry? v).elim (client.store.inventory target.name) fun e =>
        Inventory.insert e.value e.path (client.store.inventory target.name) := by
  rw [← get?_dataEntries h]
  exact Store.inventory_foldl id (fun e => Inventory.insert e.value e.path)
    (client.nodup_dataEntries v)
    (fun e _ store name => store.inventory_putData e.1 name e.2.path e.2.value) client.store _

/-- Removing an object clears the place where a target keeps it. -/
theorem inventory_removeData
    (hkeeps : ∀ target ∈ client.setup.registry.targets, target.KeepsApart)
    (h : target ∈ client.setup.registry.targets) (v : Json) :
    (client.removeData v).1.store.inventory target.name =
      (target.dataEntry? v).elim (client.store.inventory target.name) fun e =>
        (Inventory.remove? e.path (client.store.inventory target.name)).getD
          (client.store.inventory target.name) := by
  rw [← get?_dataEntries h]
  have hpaths : ∀ e ∈ client.dataEntries v, e.2.path ≠ [] :=
    fun e he => path_ne_nil_of_mem_dataEntries hkeeps he
  exact Store.inventory_foldl Prod.fst (fun e tree => (Inventory.remove? e.path tree).getD tree)
    (client.nodup_dataEntries v) (fun e he state => inventory_removeEntry state (hpaths e he))
    (client.store, 0) _

/-- The targets at which an object was added are those that keep it. -/
theorem addData_snd (client : Client) (v : Json) : (client.addData v).2 =
    client.setup.registry.targets.countP fun target => (target.dataEntry? v).isSome := by
  change (client.dataEntries v).length = _
  rw [dataEntries, List.length_filterMap_eq_countP]
  simp only [Option.isSome_map]

/-- The targets at which something was removed are those that had it. -/
theorem removeData_snd (hkeeps : ∀ target ∈ client.setup.registry.targets, target.KeepsApart)
    (v : Json) : (client.removeData v).2 =
      client.setup.registry.targets.countP fun target => (target.dataEntry? v).any fun e =>
        (Inventory.remove? e.path (client.store.inventory target.name)).isSome := by
  have hcount := count_foldl_removeEntry (client.store, 0) (client.nodup_dataEntries v)
    fun e he => path_ne_nil_of_mem_dataEntries hkeeps he
  rw [Nat.zero_add, dataEntries, List.countP_filterMap] at hcount
  refine hcount.trans (List.countP_congr fun target _ => ?_)
  cases target.dataEntry? v <;> rfl

end Client

/-! ### Holdings -/

/-- The objects of a target by the path where the target keeps them. -/
abbrev Holdings := SortedMap (List String) Json

namespace Holdings

/-- The objects after an operation. One that is added goes to its path, in place of what is there;
one that is removed takes with it what is at its path; a reset takes everything. -/
def perform (target : Target) (held : Holdings) : Client.Operation → Holdings
  | .addData v => (target.dataEntry? v).elim held fun e => held.insert e.path v
  | .removeData v => (target.dataEntry? v).elim held fun e => held.erase e.path
  | .reset => .empty
  | _ => held

/-- The objects after operations, one after another, of which there were none before. -/
def run (target : Target) (operations : List Client.Operation) : Holdings :=
  operations.foldl (perform target) .empty

end Holdings

/-- The inventory of a target is the tree of its holdings, and these are where the target keeps
them. -/
structure Store.Keeps (store : Store) (target : Target) (held : Holdings) : Prop where
  treeOf : Inventory.TreeOf held.get? (store.inventory target.name)
  kept : ∀ {path object}, held.get? path = some object →
    ∃ e, target.dataEntry? object = some e ∧ e.path = path

namespace Store.Keeps

variable {store : Store} {target : Target} {held : Holdings}

theorem empty (h : store.inventory target.name = .emptyObject) : store.Keeps target .empty where
  treeOf := by
    rw [h]
    exact .empty fun _ => rfl
  kept h := nomatch h

theorem congr (h : store.Keeps target held) {store' : Store}
    (hstore : store'.inventory target.name = store.inventory target.name) :
    store'.Keeps target held where
  treeOf := by
    rw [hstore]
    exact h.treeOf
  kept := h.kept

/-- The path of an object is apart from those of all others. -/
theorem apart (h : store.Keeps target held) (hkeeps : target.KeepsApart) {v : Json}
    {e : DataEntry} (he : target.dataEntry? v = some e) : Inventory.Apart held.get? e.path := by
  intro path object hobject hrelated
  obtain ⟨other, hother, rfl⟩ := h.kept hobject
  rcases hrelated with hbegins | hbegun
  · exact hkeeps.eq_of_prefix hother he hbegins
  · exact (hkeeps.eq_of_prefix he hother hbegun).symm

theorem add (h : store.Keeps target held) (hkeeps : target.KeepsApart) {v : Json} {e : DataEntry}
    (he : target.dataEntry? v = some e) {store' : Store}
    (hstore : store'.inventory target.name =
      Inventory.insert e.value e.path (store.inventory target.name)) :
    store'.Keeps target (held.insert e.path v) where
  treeOf := by
    have hinserted : (held.insert e.path v).get? =
        fun path => if path = e.path then some v else held.get? path :=
      funext fun path => SortedMap.get?_insert held e.path path v
    rw [hstore, hinserted, hkeeps.value_eq he]
    exact h.treeOf.insert (h.apart hkeeps he) v
  kept hobject := by
    rcases SortedMap.get?_insert_eq_some_iff.1 hobject with ⟨rfl, rfl⟩ | ⟨-, hobject⟩
    · exact ⟨e, he, rfl⟩
    · exact h.kept hobject

/-- What is held can be removed, and nothing else. -/
theorem isSome_remove? (h : store.Keeps target held) (hkeeps : target.KeepsApart) {v : Json}
    {e : DataEntry} (he : target.dataEntry? v = some e) :
    (Inventory.remove? e.path (store.inventory target.name)).isSome = held.contains e.path := by
  have hne := hkeeps.path_ne_nil he
  have happart := h.apart hkeeps he
  rw [SortedMap.contains]
  cases hheld : held.get? e.path with
  | none => simp only [h.treeOf.remove?_eq_none hne happart hheld, Option.isSome_none]
  | some object =>
    obtain ⟨pruned, hpruned, -⟩ := h.treeOf.exists_remove? hne happart hheld
    rw [hpruned]
    rfl

theorem remove (h : store.Keeps target held) (hkeeps : target.KeepsApart) {v : Json}
    {e : DataEntry} (he : target.dataEntry? v = some e) {store' : Store}
    (hstore : store'.inventory target.name =
      (Inventory.remove? e.path (store.inventory target.name)).getD
        (store.inventory target.name)) :
    store'.Keeps target (held.erase e.path) where
  treeOf := by
    have hne := hkeeps.path_ne_nil he
    have happart := h.apart hkeeps he
    rw [hstore]
    cases hheld : held.get? e.path with
    | none =>
      rw [h.treeOf.remove?_eq_none hne happart hheld]
      have hsame : (held.erase e.path).get? = held.get? := by
        refine funext fun path => ?_
        rw [SortedMap.get?_erase]
        split
        · rename_i hpath
          rw [hpath, hheld]
        · rfl
      rw [hsame]
      exact h.treeOf
    | some object =>
      obtain ⟨pruned, hpruned, htree⟩ := h.treeOf.exists_remove? hne happart hheld
      have herased : (held.erase e.path).get? =
          fun path => if path = e.path then none else held.get? path :=
        funext (SortedMap.get?_erase held e.path)
      rw [hpruned, herased]
      exact htree
  kept hobject := h.kept (SortedMap.get?_erase_eq_some_iff.1 hobject).2

/-- An operation of the client does to the inventory what it does to the holdings. -/
theorem perform {client : Client} (h : client.store.Keeps target held)
    (hkeeps : ∀ target ∈ client.setup.registry.targets, target.KeepsApart)
    (ht : target ∈ client.setup.registry.targets) (operation : Client.Operation) :
    (client.perform operation).1.store.Keeps target (held.perform target operation) := by
  cases operation with
  | addTemplate t => exact h.congr (Client.inventory_perform client rfl _)
  | removeTemplate kind => exact h.congr (Client.inventory_perform client rfl _)
  | addConstraint c => exact h.congr (Client.inventory_perform client rfl _)
  | removeConstraint key => exact h.congr (Client.inventory_perform client rfl _)
  | addData v =>
    have hstore := Client.inventory_addData ht v
    simp only [Holdings.perform]
    cases he : target.dataEntry? v with
    | none =>
      rw [he] at hstore
      exact h.congr hstore
    | some e =>
      rw [he] at hstore
      exact h.add (hkeeps target ht) he hstore
  | removeData v =>
    have hstore := Client.inventory_removeData hkeeps ht v
    simp only [Holdings.perform]
    cases he : target.dataEntry? v with
    | none =>
      rw [he] at hstore
      exact h.congr hstore
    | some e =>
      rw [he] at hstore
      exact h.remove (hkeeps target ht) he hstore
  | reset => exact .empty rfl

/-- Operations of the client do to the inventory what they do to the holdings. -/
theorem run {client : Client} (h : client.store.Keeps target held)
    (hkeeps : ∀ target ∈ client.setup.registry.targets, target.KeepsApart)
    (ht : target ∈ client.setup.registry.targets) (operations : List Client.Operation) :
    (client.run operations).1.store.Keeps target
      (operations.foldl (Holdings.perform target) held) := by
  induction operations generalizing client held with
  | nil => exact h
  | cons operation rest ih =>
    have hstep := h.perform hkeeps ht operation
    rw [← client.setup_perform operation] at hkeeps ht
    exact ih hstep hkeeps ht

end Store.Keeps

/-! ### Inventories after any operations -/

namespace Client

/-- **Inventories are finite maps.** With the built-in targets, and after any operations from a
fresh client, the inventory of a target is the one tree of the objects that the target holds by
path. Each of these is found at its path; any other path leads nowhere, unless it goes on from such
a path or stops short of one, and then it does not end in an empty object. Adding an object reports
the number of targets that keep it, and removing one the number of those that hold something at its
path. -/
theorem inventories_run (setup : Setup)
    (builtIn : ∀ target ∈ setup.registry.targets, target.BuiltIn) (operations : List Operation) :
    let client := ((Client.fresh setup).run operations).1
    (∀ target ∈ setup.registry.targets,
      let held := Holdings.run target operations
      let tree := client.store.inventory target.name
      (∀ tree', Inventory.TreeOf held.get? tree' ↔ tree' = tree) ∧
        (∀ path object, held.get? path = some object →
          Inventory.lookup? path tree = some object) ∧
        ∀ path node, path ≠ [] → Inventory.lookup? path tree = some node →
          (∃ other object, held.get? other = some object ∧ other <+: path) ∨
            Inventory.isEmpty node = false ∧
              ∃ other object, held.get? other = some object ∧ path <+: other) ∧
      ∀ v,
        (client.addData v).2 =
            setup.registry.targets.countP (fun target => (target.dataEntry? v).isSome) ∧
          (client.removeData v).2 =
            setup.registry.targets.countP fun target => (target.dataEntry? v).any fun e =>
              (Holdings.run target operations).contains e.path := by
  intro client
  have hsetup : client.setup = setup := setup_run _ _
  have hkeeps : ∀ target ∈ setup.registry.targets, target.KeepsApart :=
    fun target ht => (builtIn target ht).keepsApart
  have hrun : ∀ target ∈ setup.registry.targets,
      client.store.Keeps target (Holdings.run target operations) :=
    fun target ht => (Store.Keeps.empty rfl).run hkeeps ht operations
  refine ⟨fun target ht => ?_, fun v => ⟨?_, ?_⟩⟩
  · have htree := (hrun target ht).treeOf
    refine ⟨fun tree' => ⟨htree.unique, ?_⟩, fun path object => htree.lookup?,
      fun path node => htree.exists_held⟩
    rintro rfl
    exact htree
  · rw [addData_snd, hsetup]
  · rw [← hsetup] at hkeeps hrun ⊢
    rw [removeData_snd hkeeps]
    refine List.countP_congr fun target ht => ?_
    cases he : target.dataEntry? v with
    | none => rfl
    | some e =>
      change (Inventory.remove? _ _).isSome = true ↔ _
      rw [(hrun target ht).isSome_remove? (hkeeps target ht) he]
      rfl

/-! ### An instance -/

namespace Notes

/-- A target for notes. -/
def target : Target := Document.target ⟨"notebook", by decide +kernel⟩

/-- A client for admission requests and notes. -/
def setup : Setup where
  evaluator := { parses := fun _ => true, results := fun _ => .ok [] }
  registry := ⟨[Admission.target, target], by decide +kernel⟩

/-- The note of a fixed name with some text. -/
def note (text : String) : Json :=
  .obj [("kind", .str "Note"), ("name", .str "first"), ("text", .str text)]

/-- An object of the cluster. -/
def node : Json :=
  .obj [("apiVersion", .str "v1"), ("kind", .str "Node"),
    ("metadata", .obj [("name", .str "first")])]

/-- A note is written and written again, and an object of the cluster comes and goes. -/
def operations : List Operation :=
  [.addData (note "draft"), .addData node, .addData (note "final"), .removeData node]

end Notes

theorem inventories_run_notes :
    let client := ((Client.fresh Notes.setup).run Notes.operations).1
    (∀ target ∈ Notes.setup.registry.targets, target.BuiltIn) ∧
      Inventory.lookup? ["Note", "first"] (client.store.inventory Notes.target.name) =
        some (Notes.note "final") ∧
      client.store.inventory Admission.target.name = .emptyObject ∧
      (client.removeData (Notes.note "draft")).2 = 1 ∧ (client.addData Notes.node).2 = 1 := by
  intro client
  have builtIn : ∀ target ∈ Notes.setup.registry.targets, target.BuiltIn := by
    intro target ht
    rcases List.mem_cons.1 ht with rfl | ht
    · exact .admission
    · rw [List.mem_singleton.1 ht]
      exact .document _
  obtain ⟨htrees, hcounts⟩ := inventories_run Notes.setup builtIn Notes.operations
  obtain ⟨-, hnotes, -⟩ :=
    htrees Notes.target (List.mem_cons_of_mem _ (List.mem_singleton_self _))
  obtain ⟨hunique, -⟩ := htrees Admission.target List.mem_cons_self
  refine ⟨builtIn, hnotes _ _ rfl, ((hunique .emptyObject).1 (.empty fun _ => rfl)).symm, ?_, ?_⟩
  · exact (hcounts (Notes.note "draft")).2.trans (by decide +kernel)
  · exact (hcounts Notes.node).1.trans (by decide +kernel)

end Client

end PolicyEngine
