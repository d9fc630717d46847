import PolicyEngine.Client.Operation
import PolicyEngine.Proofs.Cache.Considered
import PolicyEngine.Proofs.Store.Commit

/-!
# Store and cache in step

A client keeps modules in its store and compiled templates in its cache, and changes the two one
after the other. It is coherent if the modules in the store are those of the templates in the cache.
A change of one kind's template drops the modules beneath its main modules, which are exactly those
the template had, and puts those of its successor; no module of another kind is touched.

## Main definitions

* `PolicyEngine.Client.Coherent` — the modules in the store are those of the templates in the cache.
* `PolicyEngine.Client.installedModules` — the modules of all templates in the cache.

## Main results

* `PolicyEngine.Client.Coherent.get?_keep` — dropping a template's modules leaves those of other
  kinds.
* `PolicyEngine.Client.Coherent.perform`, `PolicyEngine.Client.Coherent.run`.
* `PolicyEngine.Client.store_modules_run` — after any operations the store holds the disjoint union
  of the modules of all templates.
-/

namespace PolicyEngine

/-! ### Modules that stay -/

namespace Store

theorem change_of_prepare {ev : Evaluator} {change : ModuleChange} {prepared : PreparedChange ev}
    (h : prepare ev change = .ok prepared) : prepared.change = change := by
  rw [prepare] at h
  split at h
  · rw [← Except.ok.inj h]
  · cases h

theorem modules_foldl_putData (store : Store) (entries : List (TargetName × DataEntry)) :
    (entries.foldl (fun store e => store.putData e.1 e.2.path e.2.value) store).modules =
      store.modules := by
  induction entries generalizing store with
  | nil => rfl
  | cons e rest ih => exact ih _

end Store

namespace Client

theorem modules_foldl_removeEntry (state : Store × Nat) (entries : List (TargetName × DataEntry)) :
    (entries.foldl removeEntry state).1.modules = state.1.modules := by
  induction entries generalizing state with
  | nil => rfl
  | cons e rest ih =>
    rw [List.foldl_cons, ih]
    exact Store.modules_removeData _ _ _

/-! ### Coherent clients -/

/-- The cache is well formed, its templates are what they compile to, and the modules in the store
are those of the templates in the cache. -/
structure Coherent (client : Client) : Prop where
  wellFormed : client.cache.WellFormed
  isOutcome : ∀ {kind compiled}, client.cache.templates.get? kind = some compiled →
    compiled.IsOutcome client.setup.evaluator client.setup.registry
      client.setup.config.compilePolicy
  modules_iff : ∀ {id source}, client.store.modules.get? id = some source ↔
    ∃ kind compiled, client.cache.templates.get? kind = some compiled ∧
      (id, source) ∈ compiled.modules

namespace Coherent

variable {client : Client}

theorem fresh (setup : Setup) : (Client.fresh setup).Coherent where
  wellFormed := .empty 0 0
  isOutcome h := by cases h
  modules_iff := by
    intro id source
    constructor
    · intro h
      cases h
    · rintro ⟨kind, compiled, h, -⟩
      cases h

/-- Dropping what stands beneath the main modules of a kind's template drops all modules of the kind
and none of another kind. -/
theorem get?_keep (h : client.Coherent) (kind : TemplateKind) (id : ModuleId) (source : String) :
    (ModuleChange.keep
        (((client.cache.template? kind).map CompiledTemplate.moduleIds).getD [])
        client.store.modules).get? id = some source ↔
      ∃ kind' compiled, kind' ≠ kind ∧ client.cache.templates.get? kind' = some compiled ∧
        (id, source) ∈ compiled.modules := by
  rw [ModuleChange.get?_keep_eq_some_iff, h.modules_iff]
  constructor
  · rintro ⟨⟨kind', compiled, hcompiled, hmem⟩, hkept⟩
    refine ⟨kind', compiled, ?_, hcompiled, hmem⟩
    rintro rfl
    obtain ⟨main, hmain, hcovers⟩ := (h.isOutcome hcompiled).exists_covers hmem
    rw [Cache.template?, hcompiled] at hkept
    rw [hkept main hmain] at hcovers
    cases hcovers
  · rintro ⟨kind', compiled, hne, hcompiled, hmem⟩
    refine ⟨⟨kind', compiled, hcompiled, hmem⟩, fun main hmain => ?_⟩
    rw [Cache.template?] at hmain
    cases hprevious : client.cache.templates.get? kind with
    | none =>
      rw [hprevious] at hmain
      cases hmain
    | some previous =>
      rw [hprevious] at hmain
      refine Bool.eq_false_iff.2 fun hcovers => hne ?_
      have hkind := (h.isOutcome hcompiled).kind_eq_of_covers (h.isOutcome hprevious) hmem hmain
        hcovers
      rw [h.wellFormed.kind_eq hcompiled, h.wellFormed.kind_eq hprevious] at hkind
      exact hkind

/-- A change of the store and the cache that touches neither modules nor templates. -/
theorem congr (h : client.Coherent) {store : Store} {cache : Cache} (hcache : cache.WellFormed)
    (hm : store.modules = client.store.modules) (ht : cache.templates = client.cache.templates) :
    Coherent { client with store, cache } where
  wellFormed := hcache
  isOutcome := by
    rw [ht]
    exact h.isOutcome
  modules_iff := by
    rw [hm, ht]
    exact h.modules_iff

/-! ### Templates -/

/-- Preparing a template prepares the change that installs what the template compiles to. -/
theorem of_prepareTemplate {t : Template} {compiled : CompiledTemplate}
    {prepared : PreparedChange client.setup.evaluator}
    (h : client.prepareTemplate t = .ok (compiled, prepared)) :
    client.validateTemplate t = .ok compiled ∧
      prepared.change = compiled.moduleChange (client.cache.template? t.kind) := by
  rw [prepareTemplate, Outcome.bind_eq_ok] at h
  obtain ⟨compiled', hcompiled, h⟩ := h
  obtain ⟨prepared', hprepared, h⟩ := Outcome.bind_eq_ok.1 h
  obtain ⟨rfl, rfl⟩ := Prod.mk.inj (Except.ok.inj h)
  exact ⟨hcompiled, Store.change_of_prepare (Outcome.mapError_eq_ok.1 hprepared)⟩

/-- Installing a template puts its modules in place of those of its predecessor. -/
theorem install (h : client.Coherent) {t : Template} {compiled : CompiledTemplate}
    {prepared : PreparedChange client.setup.evaluator}
    (hprepared : client.prepareTemplate t = .ok (compiled, prepared)) :
    Coherent { client with
      store := (client.store.commit prepared).1
      cache := (client.cache.installTemplate compiled).1 } := by
  obtain ⟨hvalid, hchange⟩ := of_prepareTemplate hprepared
  obtain ⟨hout, rfl⟩ := CompiledTemplate.IsOutcome.of_compile hvalid
  refine ⟨h.wellFormed.perform (.installTemplate compiled), fun {kind c} hc => ?_,
    fun {id source} => ?_⟩
  · rw [Cache.templates_installTemplate] at hc
    rcases SortedMap.get?_insert_eq_some_iff.1 hc with ⟨-, rfl⟩ | ⟨-, hc⟩
    · exact hout
    · exact h.isOutcome hc
  · change (prepared.change.applyTo client.store.modules).get? id = some source ↔ _
    rw [hchange, ModuleChange.applyTo, CompiledTemplate.moduleChange,
      SortedMap.get?_insertAll_eq_some_iff hout.nodup_modules, h.get?_keep,
      Cache.templates_installTemplate]
    simp only [SortedMap.get?_insert_eq_some_iff]
    constructor
    · rintro (hmem | ⟨-, kind, c, (hne : kind ≠ compiled.kind), hc, hmem⟩)
      · exact ⟨compiled.kind, compiled, .inl ⟨rfl, rfl⟩, hmem⟩
      · exact ⟨kind, c, .inr ⟨hne, hc⟩, hmem⟩
    · rintro ⟨kind, c, ⟨-, rfl⟩ | ⟨hne, hc⟩, hmem⟩
      · exact .inl hmem
      · refine .inr ⟨fun hid => hne ?_, kind, c, hne, hc, hmem⟩
        -- A module that the new template has too would be of its kind.
        obtain ⟨m, hm, heq⟩ := List.mem_map.1 hid
        rw [← h.wellFormed.kind_eq hc]
        exact (h.isOutcome hc).eq_of_mem_modules hout hmem hm heq.symm

theorem addTemplate (h : client.Coherent) (t : Template) : (client.addTemplate t).1.Coherent := by
  rw [Client.addTemplate]
  split
  · exact h
  · split
    · exact h
    · rename_i hprepared
      exact h.install hprepared

theorem removeTemplate (h : client.Coherent) (kind : TemplateKind) :
    (client.removeTemplate kind).1.Coherent := by
  rw [Client.removeTemplate]
  split
  · exact h
  · rename_i compiled hcompiled
    have htemplates := Cache.templates_removeTemplate client.cache kind
      client.setup.config.orphanPolicy
    refine ⟨h.wellFormed.perform (.removeTemplate _ kind), fun {kind' c} hc => ?_,
      fun {id source} => ?_⟩
    · rw [htemplates] at hc
      exact h.isOutcome (SortedMap.get?_erase_eq_some_iff.1 hc).2
    · have hkeep := h.get?_keep kind id source
      rw [hcompiled] at hkeep
      refine hkeep.trans ?_
      rw [htemplates]
      simp only [SortedMap.get?_erase_eq_some_iff, and_assoc]

/-! ### Operations -/

/-- Every operation leads from coherent clients to coherent clients. -/
theorem perform (h : client.Coherent) (operation : Operation) :
    (client.perform operation).1.Coherent := by
  cases operation with
  | addTemplate t => exact h.addTemplate t
  | removeTemplate kind => exact h.removeTemplate kind
  | addConstraint c =>
    exact h.congr (h.wellFormed.perform (.upsertConstraint c)) rfl
      (Cache.templates_upsertConstraint _ _)
  | removeConstraint key =>
    exact h.congr (h.wellFormed.perform (.removeConstraint key)) rfl
      (Cache.templates_removeConstraint _ _)
  | addData v => exact h.congr h.wellFormed (Store.modules_foldl_putData _ _) rfl
  | removeData v => exact h.congr h.wellFormed (modules_foldl_removeEntry _ _) rfl
  | reset =>
    refine ⟨.empty _ _, fun {kind compiled} hc => ?_, fun {id source} => ⟨fun hsource => ?_, ?_⟩⟩
    · cases hc
    · cases hsource
    · rintro ⟨kind, compiled, hc, -⟩
      cases hc

/-- Operations lead from coherent clients to coherent clients. -/
theorem run (h : client.Coherent) (operations : List Operation) :
    (client.run operations).1.Coherent := by
  induction operations generalizing client with
  | nil => exact h
  | cons operation rest ih => exact ih (h.perform operation)

end Coherent

/-! ### The modules in the store -/

/-- The modules of all templates in the cache, with their sources. -/
def installedModules (client : Client) : List (ModuleId × String) :=
  client.cache.templates.values.flatMap CompiledTemplate.modules

theorem mem_installedModules_iff {client : Client} {m : ModuleId × String} :
    m ∈ client.installedModules ↔
      ∃ kind compiled, client.cache.templates.get? kind = some compiled ∧ m ∈ compiled.modules := by
  rw [installedModules, List.mem_flatMap]
  exact SortedMap.exists_mem_values_iff

namespace Coherent

variable {client : Client}

/-- No two modules of the templates in the cache have the same identifier. -/
theorem nodup_installedModules (h : client.Coherent) :
    (client.installedModules.map Prod.fst).Nodup := by
  refine SortedMap.nodup_flatMap_values (fun hc => (h.isOutcome hc).nodup_modules) ?_
  intro kind kind' compiled compiled' m m' hc hc' hm hm' heq
  have hkind := (h.isOutcome hc).eq_of_mem_modules (h.isOutcome hc') hm hm' heq
  rwa [h.wellFormed.kind_eq hc, h.wellFormed.kind_eq hc'] at hkind

/-- The store of a coherent client holds the modules of its templates and nothing else. -/
theorem perm_installedModules (h : client.Coherent) :
    client.store.modules.entries.Perm client.installedModules := by
  have hstore := List.Pairwise.of_map Prod.fst (fun _ _ => mt (congrArg _))
    client.store.modules.nodup_keys
  have hinstalled := List.Pairwise.of_map Prod.fst (fun _ _ => mt (congrArg _))
    h.nodup_installedModules
  refine (List.perm_ext_iff_of_nodup hstore hinstalled).2 fun ⟨id, source⟩ => ?_
  rw [SortedMap.mem_entries_iff, h.modules_iff, mem_installedModules_iff]

/-- The store holds the module of every constraint that a review evaluates. -/
theorem contains_of_mem_queries (h : client.Coherent) {target : Target} {input : Json}
    {q : ConstraintQuery} (hq : q ∈ constraintQueries (covering client.cache target input)) :
    client.store.modules.contains q.module = true := by
  obtain ⟨c, hc, hquery⟩ := List.mem_filterMap.1 hq
  split at hquery
  · rename_i module hmodule
    rw [← Option.some.inj hquery]
    have hconsidered := (List.mem_filter.1 hc).1
    rw [h.wellFormed.forTarget_eq, Cache.considered] at hconsidered
    obtain ⟨entry, -, hpairing⟩ := List.mem_filterMap.1 hconsidered
    obtain ⟨compiled, hcompiled, hpairing⟩ := Option.bind_eq_some_iff.1 hpairing
    split at hpairing
    · rename_i a ha
      rw [← Option.some.inj hpairing] at hmodule
      rw [← Except.ok.inj hmodule]
      have hmem : (a.module, a.source) ∈ compiled.modules :=
        CompiledTemplate.IsOutcome.mem_modules_iff.2 ⟨target.name, a, ha, List.mem_cons_self⟩
      exact SortedMap.contains_iff.2 ⟨a.source, h.modules_iff.2 ⟨_, compiled, hcompiled, hmem⟩⟩
    · obtain ⟨e, -, hpaired⟩ := Option.map_eq_some_iff.1 hpairing
      rw [← hpaired] at hmodule
      cases hmodule
  · cases hquery

end Coherent

/-- **Store and cache never drift apart.** After any operations from a fresh client the modules in
the store are, up to their order, the modules of the templates in the cache, main modules and
libraries, each under an identifier of its own; and the store holds every module that a review asks
for. -/
theorem store_modules_run (setup : Setup) (operations : List Operation) :
    let client := ((Client.fresh setup).run operations).1
    client.store.modules.entries.Perm
        (client.cache.templates.values.flatMap CompiledTemplate.modules) ∧
      ((client.cache.templates.values.flatMap CompiledTemplate.modules).map Prod.fst).Nodup ∧
      ∀ target input, ∀ q ∈ constraintQueries (covering client.cache target input),
        client.store.modules.contains q.module = true := by
  have h := (Coherent.fresh setup).run operations
  exact ⟨h.perm_installedModules, h.nodup_installedModules,
    fun target input q hq => h.contains_of_mem_queries hq⟩

end Client

end PolicyEngine
