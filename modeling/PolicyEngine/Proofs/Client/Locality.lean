import PolicyEngine.Proofs.Cache.Locality
import PolicyEngine.Proofs.Client.Coherence
import PolicyEngine.Proofs.Client.Orphans

/-!
# Operations stay at their kind

An operation on templates or constraints is of one kind. What it reports and what it does to the
cache depend on nothing but the template and the constraints of this kind; it leaves other kinds and
all inventories alone. A client is determined, but for the counts of changes, by its templates, its
constraints, the next sequence number and its inventories.

## Main definitions

* `PolicyEngine.Client.Operation.kind?`, `PolicyEngine.Client.Operation.IsOfTemplate`.
* `PolicyEngine.Client.Agrees` — clients that are the same but for the counts of changes.

## Main results

* `PolicyEngine.Client.sameAt_perform`, `PolicyEngine.Client.sameAt_perform_of_sameAt` — what an
  operation does to other kinds and to its own.
* `PolicyEngine.Client.report_congr` — what an operation reports depends on its kind alone.
* `PolicyEngine.Client.Coherent.agrees` — what determines a client.
-/

namespace PolicyEngine.Client

variable {a b client : Client} {kind : TemplateKind} {operation : Operation}

/-- The kind of the template or the constraint that an operation is about. -/
def Operation.kind? : Operation → Option TemplateKind
  | .addTemplate t => some t.kind
  | .removeTemplate kind => some kind
  | .addConstraint c => some c.kind
  | .removeConstraint key => some key.kind
  | _ => none

/-- The operation adds or removes a template. -/
def Operation.IsOfTemplate : Operation → Prop
  | .addTemplate _ => True
  | .removeTemplate _ => True
  | _ => False

/-! ### What an operation reads -/

/-- Compiling a template and preparing its modules depends on the predecessor alone. -/
theorem prepareTemplate_congr {setup : Setup} {store store' : Store} {cache cache' : Cache}
    {t : Template} (h : cache.template? t.kind = cache'.template? t.kind) :
    prepareTemplate ⟨setup, store, cache⟩ t = prepareTemplate ⟨setup, store', cache'⟩ t := by
  rw [prepareTemplate, prepareTemplate]
  dsimp only
  rw [h]
  rfl

/-- Whether a template is there already depends on the predecessor alone. -/
theorem current?_congr {t : Template}
    (h : a.cache.template? t.kind = b.cache.template? t.kind) : a.current? t = b.current? t := by
  rw [current?, current?, h]

theorem kind_eq_of_prepareTemplate {t : Template} {compiled : CompiledTemplate}
    {prepared : PreparedChange client.setup.evaluator}
    (h : client.prepareTemplate t = .ok (compiled, prepared)) : compiled.kind = t.kind := by
  obtain ⟨-, htemplate⟩ := CompiledTemplate.IsOutcome.of_compile (Coherent.of_prepareTemplate h).1
  rw [CompiledTemplate.kind, htemplate]

/-- The updates that an operation makes depend on the template of its kind alone. -/
theorem updates_eq_of_template? (hsetup : a.setup = b.setup)
    (htemplate : a.cache.template? kind = b.cache.template? kind)
    (hkind : operation.kind? = some kind) : a.updates operation = b.updates operation := by
  cases operation with
  | addTemplate t =>
    cases hkind
    obtain ⟨setup, store, cache⟩ := a
    obtain ⟨setup', store', cache'⟩ := b
    obtain rfl : setup = setup' := hsetup
    have hprepare : prepareTemplate ⟨setup, store, cache⟩ t =
        prepareTemplate ⟨setup, store', cache'⟩ t := prepareTemplate_congr htemplate
    rw [updates, updates, current?_congr htemplate, hprepare]
    cases current? ⟨setup, store', cache'⟩ t <;>
      cases prepareTemplate ⟨setup, store', cache'⟩ t <;> rfl
  | removeTemplate removed =>
    cases hkind
    rw [updates, updates, htemplate, hsetup]
  | addConstraint c => rfl
  | removeConstraint key => rfl
  | addData v => cases hkind
  | removeData v => cases hkind
  | reset => cases hkind

/-- The updates that an operation makes are the same where its kind is. -/
theorem updates_congr (hsetup : a.setup = b.setup) (h : Cache.SameAt kind a.cache b.cache)
    (hkind : operation.kind? = some kind) : a.updates operation = b.updates operation :=
  updates_eq_of_template? hsetup h.template?_eq hkind

/-- An operation of a kind makes no update, or one of this kind. -/
theorem updates_cases (client : Client) (hkind : operation.kind? = some kind) :
    client.updates operation = [] ∨ ∃ update, client.updates operation = [update] ∧
      update.kind? = some kind ∧ (operation.IsOfTemplate → update.IsOfTemplate) := by
  cases operation with
  | addTemplate t =>
    cases hkind
    rw [updates]
    split
    · rename_i compiled prepared hcurrent hprepared
      refine .inr ⟨_, rfl, ?_, fun _ => trivial⟩
      rw [Cache.Operation.kind?, kind_eq_of_prepareTemplate hprepared]
    · exact .inl rfl
  | removeTemplate removed =>
    cases hkind
    rw [updates]
    split
    · exact .inl rfl
    · exact .inr ⟨_, rfl, rfl, fun _ => trivial⟩
  | addConstraint c => exact .inr ⟨_, rfl, hkind, fun h => h⟩
  | removeConstraint key => exact .inr ⟨_, rfl, hkind, fun h => h⟩
  | addData v => cases hkind
  | removeData v => cases hkind
  | reset => cases hkind

/-- What an operation reports depends on the template of its kind, and on the keys of this kind
under which there is a constraint. -/
theorem report_eq_of_template? (hsetup : a.setup = b.setup)
    (htemplate : a.cache.template? kind = b.cache.template? kind)
    (hcontains : ∀ name, a.cache.constraints.contains ⟨kind, name⟩ =
      b.cache.constraints.contains ⟨kind, name⟩)
    (hkind : operation.kind? = some kind) : (a.perform operation).2 = (b.perform operation).2 := by
  cases operation with
  | addTemplate t =>
    cases hkind
    obtain ⟨setup, store, cache⟩ := a
    obtain ⟨setup', store', cache'⟩ := b
    obtain rfl : setup = setup' := hsetup
    have hprepare : prepareTemplate ⟨setup, store, cache⟩ t =
        prepareTemplate ⟨setup, store', cache'⟩ t := prepareTemplate_congr htemplate
    refine congrArg Report.template ?_
    rw [addTemplate, addTemplate, current?_congr htemplate, hprepare]
    cases current? ⟨setup, store', cache'⟩ t with
    | some compiled => rfl
    | none =>
      cases hprepared : prepareTemplate ⟨setup, store', cache'⟩ t with
      | error e => rfl
      | ok result =>
        have hprevious : cache.template? result.1.kind = cache'.template? result.1.kind := by
          rw [kind_eq_of_prepareTemplate hprepared]
          exact htemplate
        change Except.ok (TemplateStatus.ofCompiled result.1
          (.installed (cache.template? result.1.kind).isSome)) = _
        rw [hprevious]
        rfl
  | removeTemplate removed =>
    cases hkind
    refine congrArg Report.removal ?_
    rw [removeTemplate, removeTemplate, htemplate]
    cases hcompiled : b.cache.template? kind with
    | none => rfl
    | some compiled =>
      have hremoved : ∀ {cache : Cache}, cache.template? kind = some compiled →
          ∀ policy, (Cache.removeTemplate policy cache kind).2 = .removed := by
        intro cache hcompiled policy
        rw [Cache.removeTemplate, if_pos (SortedMap.contains_iff.2 ⟨compiled, hcompiled⟩)]
      exact (hremoved (htemplate.trans hcompiled) _).trans (hremoved hcompiled _).symm
  | addConstraint c =>
    cases hkind
    have hcheck : a.cache.checkConstraint c = b.cache.checkConstraint c := by
      rw [Cache.checkConstraint, Cache.checkConstraint, htemplate]
    refine congrArg Report.constraint ?_
    rw [addConstraint, addConstraint, Cache.upsertConstraint, Cache.upsertConstraint, hcheck]
    cases b.cache.checkConstraint c <;> rfl
  | removeConstraint key =>
    cases hkind
    exact congrArg (fun found => Report.removal (.ofBool found)) (hcontains key.name)
  | addData v => cases hkind
  | removeData v => cases hkind
  | reset => cases hkind

/-- What an operation reports depends on the template and the constraints of its kind alone. -/
theorem report_congr (hsetup : a.setup = b.setup) (h : Cache.SameAt kind a.cache b.cache)
    (hkind : operation.kind? = some kind) : (a.perform operation).2 = (b.perform operation).2 :=
  report_eq_of_template? hsetup h.template?_eq
    (fun name => congrArg Option.isSome (h.constraint?_eq name)) hkind

/-! ### What an operation changes -/

/-- An operation leaves the template and the constraints of every other kind alone. -/
theorem sameAt_perform (h : client.cache.WellFormed) {other : TemplateKind}
    (hkind : operation.kind? = some other) (hne : kind ≠ other) :
    Cache.SameAt kind (client.perform operation).1.cache client.cache := by
  rw [cache_perform]
  rcases updates_cases client hkind with hnone | ⟨update, hone, hupdate, -⟩
  · rw [hnone]
    exact .refl kind client.cache
  · rw [hone]
    exact Cache.sameAt_perform h hupdate hne

/-- What an operation does to its kind depends on this kind alone, and on the next number where a
constraint is stored. -/
theorem sameAt_perform_of_sameAt (ha : a.cache.WellFormed) (hb : b.cache.WellFormed)
    (hsetup : a.setup = b.setup) (h : Cache.SameAt kind a.cache b.cache)
    (hkind : operation.kind? = some kind)
    (hnext : operation.IsOfTemplate ∨ a.cache.nextSeq = b.cache.nextSeq) :
    Cache.SameAt kind (a.perform operation).1.cache (b.perform operation).1.cache := by
  rw [cache_perform, cache_perform, updates_congr hsetup h hkind]
  rcases updates_cases b hkind with hnone | ⟨update, hone, hupdate, htemplate⟩
  · rw [hnone]
    exact h
  · rw [hone]
    exact h.perform ha hb hupdate (hnext.imp_left htemplate)

/-- Operations on templates take no number. -/
theorem nextSeq_perform (client : Client) (hkind : operation.kind? = some kind)
    (htemplate : operation.IsOfTemplate) :
    (client.perform operation).1.cache.nextSeq = client.cache.nextSeq := by
  rw [cache_perform]
  rcases updates_cases client hkind with hnone | ⟨update, hone, -, hupdate⟩
  · rw [hnone]
    rfl
  · rw [hone]
    exact Cache.nextSeq_perform _ (hupdate htemplate)

/-- Whether an operation takes a number depends on its kind alone. -/
theorem nextSeq_perform_of_sameAt (hsetup : a.setup = b.setup)
    (h : Cache.SameAt kind a.cache b.cache) (hkind : operation.kind? = some kind)
    (hnext : a.cache.nextSeq = b.cache.nextSeq) :
    (a.perform operation).1.cache.nextSeq = (b.perform operation).1.cache.nextSeq := by
  rw [cache_perform, cache_perform, updates_congr hsetup h hkind]
  rcases updates_cases b hkind with hnone | ⟨update, hone, hupdate, -⟩
  · rw [hnone]
    exact hnext
  · rw [hone]
    exact h.nextSeq_perform hupdate hnext

/-- Operations on templates and constraints leave the inventories alone. -/
theorem inventories_perform (client : Client) (hkind : operation.kind? = some kind) :
    (client.perform operation).1.store.inventories = client.store.inventories := by
  cases operation with
  | addTemplate t =>
    rw [perform, addTemplate]
    split
    · rfl
    · split <;> rfl
  | removeTemplate removed =>
    rw [perform, removeTemplate]
    split <;> rfl
  | addConstraint c => rfl
  | removeConstraint key => rfl
  | addData v => cases hkind
  | removeData v => cases hkind
  | reset => cases hkind

/-! ### What determines a client -/

/-- Two clients are the same but for the counts of changes of store and cache. -/
structure Agrees (a b : Client) : Prop where
  setup_eq : a.setup = b.setup
  cache_eq : a.cache = { b.cache with generation := a.cache.generation }
  store_eq : a.store = { b.store with generation := a.store.generation }

/-- Coherent clients of one setup agree if they have the same templates, constraints and
inventories, and the same next number. -/
theorem Coherent.agrees (ha : a.Coherent) (hb : b.Coherent) (hsetup : a.setup = b.setup)
    (hsame : ∀ kind, Cache.SameAt kind a.cache b.cache)
    (hnext : a.cache.nextSeq = b.cache.nextSeq)
    (hinventories : a.store.inventories = b.store.inventories) : a.Agrees b where
  setup_eq := hsetup
  cache_eq := hb.wellFormed.eq_of_lookups ha.wellFormed (fun kind => (hsame kind).template?_eq)
    (fun key => (hsame key.kind).constraint?_eq key.name) hnext
  store_eq := by
    have htemplates : a.cache.templates = b.cache.templates :=
      SortedMap.ext_get? fun kind => (hsame kind).template?_eq
    have hmodules : a.store.modules = b.store.modules := by
      refine SortedMap.ext_get? fun id => Option.ext fun source => ?_
      rw [ha.modules_iff, hb.modules_iff, htemplates]
    dsimp only
    rw [← hmodules, ← hinventories]

end PolicyEngine.Client
