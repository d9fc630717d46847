import PolicyEngine.Proofs.Cache.Roster
import PolicyEngine.Proofs.Client.Locality

/-!
# A reset leaves nothing behind

A reset drops templates, constraints, modules and inventories, but sequence numbers and counts of
changes go on where they were. So a client that was reset is not the fresh client; it mirrors it.
Two clients mirror each other if their caches show one roster and their inventories are the same.
The roster knows no numbers, and whatever a client reports, keeps or reviews is determined by it. So
clients that mirror each other report the same on every operation and mirror each other after it.

## Main definitions

* `PolicyEngine.Cache.Roster.considered` — what a review considers, read off a roster.
* `PolicyEngine.Client.Mirrors` — clients whose caches show one roster.
* `PolicyEngine.Client.Indistinguishable` — clients that tell the same on every question.

## Main results

* `PolicyEngine.Cache.Shows.forTarget_eq` — the index gives what the roster asks for.
* `PolicyEngine.Client.Mirrors.perform`, `PolicyEngine.Client.Mirrors.run`.
* `PolicyEngine.Client.Coherent.indistinguishable` — clients that mirror each other tell the same.
* `PolicyEngine.Client.reset_run` — after a reset a client behaves like a fresh one.
-/

namespace PolicyEngine

/-! ### What a roster says to reviews -/

namespace Cache

variable {cache cache' : Cache} {roster : Roster}

/-- A line as a review of a target sees it, if it is in force and applies there. -/
def Roster.targetConstraint? (roster : Roster) (target : TargetName) (line : Line) :
    Option TargetConstraint :=
  if line.status = .active then
    (roster.template? line.constraint.kind).bind fun compiled =>
      if compiled.schema.matchApplies target line.constraint.matchSpec then
        (moduleAt? compiled target).map (⟨line.constraint, ·⟩)
      else none
  else none

/-- What a review of a target considers, in the order of the lines. -/
def Roster.considered (roster : Roster) (target : TargetName) : List TargetConstraint :=
  roster.lines.filterMap (roster.targetConstraint? target)

/-- A template has a module for each target that it declares, or a reason why it has none. -/
theorem contains_declaredTargets (compiled : CompiledTemplate) (target : TargetName) :
    (declaredTargets compiled).contains target = (moduleAt? compiled target).isSome := by
  rw [Bool.eq_iff_iff, List.contains_iff_mem, declaredTargets, List.mem_append,
    SortedMap.mem_keys_iff, moduleAt?]
  cases hartifact : compiled.artifact? target with
  | some a => exact ⟨fun _ => rfl, fun _ => .inl ⟨a, hartifact⟩⟩
  | none =>
    dsimp only
    rw [Option.isSome_map]
    constructor
    · rintro (⟨a, ha⟩ | hkey)
      · rw [CompiledTemplate.artifact?, ha] at hartifact
        cases hartifact
      · exact Option.isSome_iff_ne_none.2 fun hnone => Assoc.get?_eq_none_iff_notMem.1 hnone hkey
    · intro hsome
      refine .inr (of_not_not fun hkey => ?_)
      rw [CompiledTemplate.failure?, Assoc.get?_eq_none_iff_notMem.2 hkey] at hsome
      cases hsome

namespace Shows

/-- A cache without templates and constraints shows the empty roster, whatever number comes next. -/
theorem empty (nextSeq generation : Nat) : Shows { nextSeq, generation } {} :=
  ⟨rfl, fun _ => rfl, List.nodup_nil⟩

theorem targetConstraint?_lineOf (h : cache.Shows roster) (target : TargetName)
    (entry : ConstraintEntry) : roster.targetConstraint? target (lineOf entry) =
      if cache.applies target entry then cache.pairing? target entry else none := by
  rw [Roster.targetConstraint?, lineOf, ← h.template?_eq, template?, applies, pairing?,
    ConstraintEntry.isActive]
  dsimp only
  cases entry.status with
  | orphaned => rfl
  | active =>
    cases cache.templates.get? entry.constraint.kind with
    | none => rfl
    | some compiled =>
      rw [if_pos rfl, Option.bind_some, Option.bind_some, Option.any_some,
        contains_declaredTargets, moduleAt?]
      cases compiled.artifact? target with
      | some a => rfl
      | none =>
        cases compiled.failure? target with
        | some e => rfl
        | none =>
          dsimp only
          rw [Option.map_none, Option.map_none, ite_self]
          rfl

/-- The index of a cache gives what the roster asks for. -/
theorem forTarget_eq (h : cache.Shows roster) (hw : cache.WellFormed) (target : TargetName) :
    cache.forTarget target = roster.considered target := by
  rw [hw.forTarget_eq, Cache.considered, Roster.considered, ← h.lines_eq, List.filterMap_filter,
    List.filterMap_map]
  refine List.filterMap_congr fun entry _ => ?_
  rw [Function.comp_apply, h.targetConstraint?_lineOf]

theorem templates_eq (h : cache.Shows roster) (h' : cache'.Shows roster) :
    cache.templates = cache'.templates :=
  SortedMap.ext_get? fun kind => (h.template?_eq kind).trans (h'.template?_eq kind).symm

/-- Caches that show one roster have the same constraint under a key, with the same status. -/
theorem line?_eq (h : cache.Shows roster) (h' : cache'.Shows roster) (ho : cache.Ordered)
    (ho' : cache'.Ordered) (key : ConstraintKey) :
    (cache.constraint? key).map lineOf = (cache'.constraint? key).map lineOf :=
  (h.constraint?_eq ho key).trans (h'.constraint?_eq ho' key).symm

theorem contains_eq (h : cache.Shows roster) (h' : cache'.Shows roster) (ho : cache.Ordered)
    (ho' : cache'.Ordered) (key : ConstraintKey) :
    cache.constraints.contains key = cache'.constraints.contains key := by
  have hline := congrArg Option.isSome (h.line?_eq h' ho ho' key)
  rwa [Option.isSome_map, Option.isSome_map] at hline

/-- Caches that show one roster list the same of their constraints, as long as it is nothing of
their numbers. -/
theorem map_entries_eq (h : cache.Shows roster) (h' : cache'.Shows roster) {α : Type}
    (f : ConstraintEntry → α) (hf : ∀ entry seq, f { entry with seq } = f entry) :
    cache.entries.map f = cache'.entries.map f := by
  have hline : f = (fun line => f ⟨line.constraint, 0, line.status⟩) ∘ lineOf :=
    funext fun entry => (hf entry 0).symm
  rw [hline, ← List.map_map, ← List.map_map, h.lines_eq, h'.lines_eq]

end Shows

end Cache

/-! ### Stores with the same inventories -/

namespace Store

variable {store store' : Store}

theorem inventories_putData_congr (h : store.inventories = store'.inventories)
    (target : TargetName) (path : List String) (value : Json) :
    (store.putData target path value).inventories =
      (store'.putData target path value).inventories := by
  rw [putData, putData, inventory, inventory, h]

theorem inventories_foldl_putData_congr (h : store.inventories = store'.inventories)
    (entries : List (TargetName × DataEntry)) :
    (entries.foldl (fun store e => store.putData e.1 e.2.path e.2.value) store).inventories =
      (entries.foldl (fun store e => store.putData e.1 e.2.path e.2.value) store').inventories := by
  induction entries generalizing store store' with
  | nil => exact h
  | cons e rest ih => exact ih (inventories_putData_congr h _ _ _)

theorem removeData_congr (h : store.inventories = store'.inventories) (target : TargetName)
    (path : List String) :
    (store.removeData target path).1.inventories = (store'.removeData target path).1.inventories ∧
      (store.removeData target path).2 = (store'.removeData target path).2 := by
  rw [removeData, removeData, h]
  split
  · exact ⟨h, rfl⟩
  · exact ⟨rfl, rfl⟩

theorem foldl_removeEntry_congr {count : Nat} (h : store.inventories = store'.inventories)
    (entries : List (TargetName × DataEntry)) :
    (entries.foldl Client.removeEntry (store, count)).1.inventories =
        (entries.foldl Client.removeEntry (store', count)).1.inventories ∧
      (entries.foldl Client.removeEntry (store, count)).2 =
        (entries.foldl Client.removeEntry (store', count)).2 := by
  induction entries generalizing store store' count with
  | nil => exact ⟨h, rfl⟩
  | cons e rest ih =>
    obtain ⟨hinventories, hfound⟩ := removeData_congr h e.1 e.2.path
    rw [List.foldl_cons, List.foldl_cons, Client.removeEntry, Client.removeEntry]
    dsimp only
    rw [hfound]
    exact ih hinventories

end Store

namespace Client

/-- An operation of no kind is about data, or about everything. -/
theorem Operation.cases_of_kind?_eq_none {operation : Operation} (h : operation.kind? = none) :
    (∃ v, operation = .addData v) ∨ (∃ v, operation = .removeData v) ∨ operation = .reset := by
  cases operation with
  | addTemplate t => cases h
  | removeTemplate kind => cases h
  | addConstraint c => cases h
  | removeConstraint key => cases h
  | addData v => exact .inl ⟨v, rfl⟩
  | removeData v => exact .inr (.inl ⟨v, rfl⟩)
  | reset => exact .inr (.inr rfl)

/-! ### Clients that mirror each other -/

/-- Two clients mirror each other: they have one setup, their caches show one roster, and their
inventories are the same. Sequence numbers and counts of changes may differ. -/
structure Mirrors (a b : Client) : Prop where
  setup_eq : a.setup = b.setup
  exists_roster : ∃ roster, a.cache.Shows roster ∧ b.cache.Shows roster
  inventories_eq : a.store.inventories = b.store.inventories

namespace Mirrors

variable {a b : Client}

/-- A client that was reset mirrors the fresh one. -/
theorem reset (client : Client) : client.reset.Mirrors (.fresh client.setup) :=
  ⟨rfl, ⟨{}, .empty _ _, .empty _ _⟩, rfl⟩

theorem templates_eq (h : a.Mirrors b) : a.cache.templates = b.cache.templates := by
  obtain ⟨roster, ha, hb⟩ := h.exists_roster
  exact ha.templates_eq hb

theorem template?_eq (h : a.Mirrors b) (kind : TemplateKind) :
    a.cache.template? kind = b.cache.template? kind :=
  congrArg (·.get? kind) h.templates_eq

/-- An object makes the same data entries in both clients. -/
theorem dataEntries_eq (h : a.Mirrors b) (v : Json) : a.dataEntries v = b.dataEntries v := by
  rw [dataEntries, dataEntries, h.setup_eq]

/-! ### Operations -/

/-- An operation makes the same updates in both clients. -/
theorem updates_eq (h : a.Mirrors b) (operation : Operation) :
    a.updates operation = b.updates operation := by
  cases hkind : operation.kind? with
  | some kind => exact updates_eq_of_template? h.setup_eq (h.template?_eq kind) hkind
  | none => obtain ⟨v, rfl⟩ | ⟨v, rfl⟩ | rfl := Operation.cases_of_kind?_eq_none hkind <;> rfl

/-- An operation reports the same in both clients. -/
theorem report_eq (h : a.Mirrors b) (ha : a.cache.Ordered) (hb : b.cache.Ordered)
    (operation : Operation) : (a.perform operation).2 = (b.perform operation).2 := by
  cases hkind : operation.kind? with
  | some kind =>
    obtain ⟨roster, hshows, hshows'⟩ := h.exists_roster
    exact report_eq_of_template? h.setup_eq (h.template?_eq kind)
      (fun name => hshows.contains_eq hshows' ha hb ⟨kind, name⟩) hkind
  | none =>
    obtain ⟨v, rfl⟩ | ⟨v, rfl⟩ | rfl := Operation.cases_of_kind?_eq_none hkind
    · rw [Client.perform, Client.perform, addData, addData, h.dataEntries_eq]
    · rw [Client.perform, Client.perform, removeData, removeData, h.dataEntries_eq]
      exact congrArg Report.count (Store.foldl_removeEntry_congr h.inventories_eq _).2
    · rfl

/-- An operation leaves the same inventories in both clients. -/
theorem inventories_perform_eq (h : a.Mirrors b) (operation : Operation) :
    (a.perform operation).1.store.inventories = (b.perform operation).1.store.inventories := by
  cases hkind : operation.kind? with
  | some kind =>
    rw [inventories_perform a hkind, inventories_perform b hkind]
    exact h.inventories_eq
  | none =>
    obtain ⟨v, rfl⟩ | ⟨v, rfl⟩ | rfl := Operation.cases_of_kind?_eq_none hkind
    · rw [Client.perform, Client.perform, addData, addData, h.dataEntries_eq]
      exact Store.inventories_foldl_putData_congr h.inventories_eq _
    · rw [Client.perform, Client.perform, removeData, removeData, h.dataEntries_eq]
      exact (Store.foldl_removeEntry_congr h.inventories_eq _).1
    · rfl

/-- After an operation the clients still mirror each other. -/
theorem perform (h : a.Mirrors b) (ha : a.cache.WellFormed) (hb : b.cache.WellFormed)
    (operation : Operation) : (a.perform operation).1.Mirrors (b.perform operation).1 where
  setup_eq := by rw [setup_perform, setup_perform, h.setup_eq]
  exists_roster := by
    obtain ⟨roster, hshows, hshows'⟩ := h.exists_roster
    rw [cache_perform, cache_perform, h.updates_eq]
    exact ⟨_, hshows.run ha _, hshows'.run hb _⟩
  inventories_eq := h.inventories_perform_eq operation

/-- After any operations the clients have reported the same, and still mirror each other. -/
theorem run (h : a.Mirrors b) (ha : a.Coherent) (hb : b.Coherent) (operations : List Operation) :
    (a.run operations).2 = (b.run operations).2 ∧
      (a.run operations).1.Mirrors (b.run operations).1 := by
  -- Both clients take the same step. That they are coherent is kept beside the roster, since only
  -- a well-formed cache is determined by what it shows.
  induction operations generalizing a b with
  | nil => exact ⟨rfl, h⟩
  | cons operation rest ih =>
    have hstep := h.perform ha.wellFormed hb.wellFormed operation
    obtain ⟨hreports, hlast⟩ := ih hstep (ha.perform operation) (hb.perform operation)
    have hreport := h.report_eq ha.wellFormed.ordered hb.wellFormed.ordered operation
    exact ⟨List.cons_eq_cons.2 ⟨hreport, hreports⟩, hlast⟩

end Mirrors

/-! ### Clients that tell the same -/

/-- Two clients tell the same on every question: they list the same templates and constraints in the
same order, show the same of each, find the same faults, hold the same inventories, and find the
same in every review. -/
structure Indistinguishable (a b : Client) : Prop where
  dump_eq : a.dump = b.dump
  templateKinds_eq : a.templateKinds = b.templateKinds
  template?_eq : ∀ kind, a.template? kind = b.template? kind
  constraintSchema_eq : ∀ kind, a.constraintSchema kind = b.constraintSchema kind
  validateTemplate_eq : ∀ t, a.validateTemplate t = b.validateTemplate t
  constraintKeys_eq : a.constraintKeys = b.constraintKeys
  constraint?_eq : ∀ key, a.constraint? key = b.constraint? key
  validateConstraint_eq : ∀ c, a.validateConstraint c = b.validateConstraint c
  forTarget_eq : ∀ target, a.cache.forTarget target = b.cache.forTarget target
  inventory_eq : ∀ target, a.store.inventory target = b.store.inventory target
  reviewWithin_eq : ∀ timeoutMs v, a.reviewWithin timeoutMs v = b.reviewWithin timeoutMs v

/-- Reviews read the modules and the inventories of the store, and what the cache has for each
target. -/
theorem reviewTarget_congr {ev : Evaluator} {cache cache' : Cache} {store store' : Store}
    {target : Target} (hforTarget : cache.forTarget target.name = cache'.forTarget target.name)
    (hmodules : store.modules = store'.modules)
    (hinventories : store.inventories = store'.inventories) (input : Json) (timeoutMs : Nat) :
    reviewTarget ev cache store target input timeoutMs =
      reviewTarget ev cache' store' target input timeoutMs := by
  have hcovering : covering cache target input = covering cache' target input := by
    rw [covering, covering, hforTarget]
  obtain ⟨modules, inventories, generation⟩ := store
  obtain ⟨modules', inventories', generation'⟩ := store'
  obtain rfl : modules = modules' := hmodules
  obtain rfl : inventories = inventories' := hinventories
  rw [reviewTarget, reviewTarget, hcovering]
  rfl

/-- Coherent clients that mirror each other tell the same. -/
theorem Coherent.indistinguishable {a b : Client} (ha : a.Coherent) (hb : b.Coherent)
    (h : a.Mirrors b) : a.Indistinguishable b := by
  obtain ⟨roster, hshows, hshows'⟩ := h.exists_roster
  have htemplates : a.cache.templates = b.cache.templates := h.templates_eq
  -- `Mirrors` says nothing of modules: coherence makes them those of the templates.
  have hmodules : a.store.modules = b.store.modules := by
    refine SortedMap.ext_get? fun id => Option.ext fun source => ?_
    rw [ha.modules_iff, hb.modules_iff, htemplates]
  have hforTarget : ∀ target, a.cache.forTarget target = b.cache.forTarget target := fun target =>
    (hshows.forTarget_eq ha.wellFormed target).trans
      (hshows'.forTarget_eq hb.wellFormed target).symm
  have htemplate : ∀ kind, a.cache.template? kind = b.cache.template? kind := h.template?_eq
  exact {
    dump_eq := by
      rw [dump, dump, htemplates, hmodules,
        hshows.map_entries_eq hshows' dumpConstraint fun _ _ => rfl]
    templateKinds_eq := congrArg SortedMap.keys htemplates
    template?_eq kind := congrArg (Option.map _) (htemplate kind)
    constraintSchema_eq kind := by rw [constraintSchema, constraintSchema, htemplate]
    validateTemplate_eq t := by rw [validateTemplate, validateTemplate, h.setup_eq]
    constraintKeys_eq := hshows.map_entries_eq hshows' _ fun _ _ => rfl
    constraint?_eq key := by
      have hline := congrArg (Option.map Cache.Line.constraint)
        (hshows.line?_eq hshows' ha.wellFormed.ordered hb.wellFormed.ordered key)
      rw [Option.map_map, Option.map_map] at hline
      exact hline
    validateConstraint_eq c := by
      rw [validateConstraint, validateConstraint, Cache.checkConstraint, Cache.checkConstraint,
        htemplate]
    forTarget_eq := hforTarget
    inventory_eq target := by rw [Store.inventory, Store.inventory, h.inventories_eq]
    reviewWithin_eq timeoutMs v := by
      rw [reviewWithin, reviewWithin, reviewAll, reviewAll, h.setup_eq]
      refine congrArg combine (List.map_congr_left fun handled _ => Prod.ext rfl ?_)
      exact reviewTarget_congr (hforTarget _) hmodules h.inventories_eq _ _ }

/-- **A reset leaves nothing behind.** Whatever a client went through before it is reset, any
operations on it report the same as on a fresh client of the same setup. Afterwards both tell the
same on every question. -/
theorem reset_run (setup : Setup) (operations later : List Operation) :
    let used := ((Client.fresh setup).run operations).1.reset.run later
    let new := (Client.fresh setup).run later
    used.2 = new.2 ∧ used.1.Indistinguishable new.1 := by
  intro used new
  have h : ((Client.fresh setup).run operations).1.Coherent := (Coherent.fresh setup).run operations
  have hmirrors := Mirrors.reset ((Client.fresh setup).run operations).1
  rw [setup_run] at hmirrors
  obtain ⟨hreports, hlast⟩ := hmirrors.run (h.perform .reset) (.fresh setup) later
  exact ⟨hreports, ((h.perform .reset).run later).indistinguishable
    ((Coherent.fresh setup).run later) hlast⟩

end Client

end PolicyEngine
