import PolicyEngine.Proofs.Client.Reinstatement
import PolicyEngine.Proofs.Store.InPlace
import PolicyEngine.Proofs.Target.DataPaths

/-!
# Operations that change nothing

An operation can come to nothing: it is refused with an error, the template is there already, there
is nothing to remove, or no target keeps the object. It then leaves the client as it was, whatever
the client is and however far the operation got before it came to nothing. Only the count of updates
may differ. A template that was just added is there already, so adding it again comes to nothing and
reports the same failures.

## Main definitions

* `PolicyEngine.Client.Report.IsIdle` — the report of an operation that came to nothing.

## Main results

* `PolicyEngine.Cache.upsertConstraint_of_error`, `PolicyEngine.Cache.removeConstraint_of_notFound`
  — updates of the cache that come to nothing.
* `PolicyEngine.Client.perform_eq_of_isIdle`, `PolicyEngine.Client.agrees_run_of_isIdle` — an
  operation that comes to nothing changes nothing, nor do several.
* `PolicyEngine.Client.addTemplate_addTemplate` — a template is added once.
* `PolicyEngine.Client.idle_run` — the same after any operations.
-/

namespace PolicyEngine

/-! ### Equality of a template with itself -/

instance : ReflBEq Double where
  rfl {x} := by
    change ((x.isZero && x.isZero) || decide (x = x)) = true
    rw [decide_eq_true rfl, Bool.or_true]

instance : ReflBEq Number where
  rfl {n} := by
    cases n with
    | integer n => exact beq_self_eq_true n
    | double x => exact beq_self_eq_true x

namespace Json

mutual

theorem beq_self : (v : Json) → beq v v = true
  | .null => rfl
  | .bool b => beq_self_eq_true b
  | .num n => beq_self_eq_true n
  | .str s => beq_self_eq_true s
  | .arr elements => beqElements_self elements
  | .obj members => beqMembers_self members

theorem beqElements_self : (elements : List Json) → beqElements elements elements = true
  | [] => rfl
  | v :: rest => by rw [beqElements, beq_self v, beqElements_self rest]; rfl

theorem beqMembers_self : (members : List (String × Json)) → beqMembers members members = true
  | [] => rfl
  | (key, v) :: rest => by
    rw [beqMembers, beq_self v, beqMembers_self rest, beq_self_eq_true key]
    rfl

end

instance : ReflBEq Json := ⟨beq_self _⟩

end Json

theorem Template.beq_self (t : Template) : (t == t) = true := by
  change ((t.kind == t.kind && t.shortNames == t.shortNames) &&
    (t.validation.legacySchema == t.validation.legacySchema &&
      t.validation.schema == t.validation.schema) && t.targets.entries == t.targets.entries) = true
  simp only [beq_self_eq_true, Bool.and_self]

/-! ### Updates of the cache -/

namespace Cache

variable {cache : Cache}

theorem upsertConstraint_of_error {c : Constraint} {e : PolicyError}
    (h : (cache.upsertConstraint c).2 = .error e) : (cache.upsertConstraint c).1 = cache := by
  rw [upsertConstraint] at h ⊢
  split
  · rfl
  · rename_i hcheck
    rw [hcheck] at h
    cases h

theorem removeConstraint_of_notFound {key : ConstraintKey}
    (h : (cache.removeConstraint key).2 = .notFound) :
    (cache.removeConstraint key).1 = cache.bump := by
  have hnone : cache.constraints.get? key = none := by
    cases hentry : cache.constraints.get? key with
    | none => rfl
    | some entry =>
      have hcontains := SortedMap.contains_iff.2 ⟨entry, hentry⟩
      rw [removeConstraint, hcontains] at h
      cases h
  rw [removeConstraint, eraseConstraint, hnone]

end Cache

/-! ### Data -/

/-- What a target keeps of an object lists its members in order if the object does. -/
def Target.KeepsCanonical (target : Target) : Prop :=
  ∀ {v e}, target.dataEntry? v = some e → v.Canonical → e.value.Canonical

theorem Target.KeepsApart.keepsCanonical {target : Target} (h : target.KeepsApart) :
    target.KeepsCanonical := fun hentry hv => (h.value_eq hentry).symm ▸ hv

theorem Store.removeData_of_not_found {store : Store} {target : TargetName} {path : List String}
    (h : (store.removeData target path).2 = false) : (store.removeData target path).1 = store := by
  rw [removeData] at h ⊢
  split
  · rfl
  · rename_i hremoved
    rw [hremoved] at h
    cases h

namespace Client

variable {client : Client} {operation : Operation}

theorem le_foldl_removeEntry (entries : List (TargetName × DataEntry)) (state : Store × Nat) :
    state.2 ≤ (entries.foldl removeEntry state).2 := by
  induction entries generalizing state with
  | nil => exact Nat.le_refl _
  | cons e rest ih =>
    refine Nat.le_trans ?_ (ih (removeEntry state e))
    rw [removeEntry]
    dsimp only
    split
    · exact Nat.le_succ _
    · exact Nat.le_refl _

/-- Where nothing is counted nothing is removed. -/
theorem foldl_removeEntry_of_snd_eq (entries : List (TargetName × DataEntry)) (state : Store × Nat)
    (h : (entries.foldl removeEntry state).2 = state.2) :
    (entries.foldl removeEntry state).1 = state.1 := by
  induction entries generalizing state with
  | nil => rfl
  | cons e rest ih =>
    cases hfound : (state.1.removeData e.1 e.2.path).2 with
    | true =>
      -- The count only grows, so that a first entry that is found is counted to the end.
      have hle := le_foldl_removeEntry rest (removeEntry state e)
      have hcount : (removeEntry state e).2 = state.2 + 1 := by
        rw [removeEntry]
        dsimp only
        rw [hfound, if_pos rfl]
      rw [List.foldl_cons] at h
      omega
    | false =>
      have hstep : removeEntry state e = state := by
        change ((state.1.removeData e.1 e.2.path).1,
          if (state.1.removeData e.1 e.2.path).2 then state.2 + 1 else state.2) = state
        rw [Store.removeData_of_not_found hfound, hfound]
        rfl
      rw [List.foldl_cons, hstep] at h ⊢
      exact ih state h

/-! ### Operations -/

theorem Agrees.refl (client : Client) : client.Agrees client := ⟨rfl, rfl, rfl⟩

theorem Agrees.trans {a b c : Client} (hab : a.Agrees b) (hbc : b.Agrees c) : a.Agrees c where
  setup_eq := hab.setup_eq.trans hbc.setup_eq
  cache_eq := by
    rw [hab.cache_eq, hbc.cache_eq]
  store_eq := by
    rw [hab.store_eq, hbc.store_eq]

/-- An operation came to nothing: it was refused, what it adds was there already, or there was
nothing for it to remove or to add. -/
inductive Report.IsIdle : Report → Prop where
  | templateRefused (e : PolicyError) : IsIdle (.template (.error e))
  | constraintRefused (e : PolicyError) : IsIdle (.constraint (.error e))
  | templateUnchanged {status : TemplateStatus} (h : status.change = .unchanged) :
    IsIdle (.template (.ok status))
  | notFound : IsIdle (.removal .notFound)
  | nowhere : IsIdle (.count 0)

/-- An operation that comes to nothing leaves the client as it was, but for counting an update. -/
theorem perform_eq_of_isIdle (h : (client.perform operation).2.IsIdle) :
    (client.perform operation).1 = client ∨
      (client.perform operation).1 = { client with cache := client.cache.bump } := by
  cases operation with
  | addTemplate t =>
    refine .inl ?_
    rw [perform] at h ⊢
    dsimp only at h ⊢
    rw [addTemplate] at h ⊢
    cases hcurrent : client.current? t with
    | some compiled => rfl
    | none =>
      cases hprepared : client.prepareTemplate t with
      | error e => rfl
      | ok result =>
        rw [hcurrent, hprepared] at h
        rcases h with _ | _ | hchange
        cases hchange
  | removeTemplate kind =>
    cases hcompiled : client.cache.template? kind with
    | none =>
      refine .inl ?_
      rw [perform, removeTemplate, hcompiled]
    | some compiled =>
      -- A template that is there is removed, and its modules with it.
      have hreport : (client.perform (.removeTemplate kind)).2 = .removal .removed :=
        congrArg Report.removal (removeTemplate_snd hcompiled)
      rw [hreport] at h
      cases h
  | addConstraint c =>
    change (Report.constraint ((client.cache.upsertConstraint c).2.map fun _ => ())).IsIdle at h
    cases houtcome : (client.cache.upsertConstraint c).2 with
    | error e =>
      exact .inl (congrArg (fun cache => { client with cache })
        (Cache.upsertConstraint_of_error houtcome))
    | ok outcome =>
      rw [houtcome] at h
      cases h
  | removeConstraint key =>
    change (Report.removal (client.cache.removeConstraint key).2).IsIdle at h
    cases hremoval : (client.cache.removeConstraint key).2 with
    | removed =>
      rw [hremoval] at h
      cases h
    | notFound =>
      exact .inr (congrArg (fun cache => { client with cache })
        (Cache.removeConstraint_of_notFound hremoval))
  | addData v =>
    change (Report.count (client.dataEntries v).length).IsIdle at h
    cases hentries : client.dataEntries v with
    | nil =>
      refine .inl ?_
      rw [perform, addData, hentries]
      rfl
    | cons e rest =>
      rw [hentries] at h
      cases h
  | removeData v =>
    change (Report.count ((client.dataEntries v).foldl removeEntry (client.store, 0)).2).IsIdle at h
    cases hcount : ((client.dataEntries v).foldl removeEntry (client.store, 0)).2 with
    | zero =>
      exact .inl (congrArg (fun store => { client with store })
        (foldl_removeEntry_of_snd_eq _ _ hcount))
    | succ n =>
      rw [hcount] at h
      cases h
  | reset => cases h

theorem agrees_perform_of_isIdle (h : (client.perform operation).2.IsIdle) :
    (client.perform operation).1.Agrees client := by
  rcases perform_eq_of_isIdle h with heq | heq
  · rw [heq]
    exact .refl client
  · rw [heq]
    exact ⟨rfl, rfl, rfl⟩

/-- Operations that all come to nothing leave the client as it was. -/
theorem agrees_run_of_isIdle {operations : List Operation}
    (h : ∀ report ∈ (client.run operations).2, report.IsIdle) :
    (client.run operations).1.Agrees client := by
  induction operations generalizing client with
  | nil => exact .refl client
  | cons operation rest ih =>
    obtain ⟨hfirst, hrest⟩ := List.forall_mem_cons.1 h
    exact (ih hrest).trans (agrees_perform_of_isIdle hfirst)

/-! ### Adding a template again -/

/-- A template that equals the one of its kind is there already. -/
theorem addTemplate_of_current? {t : Template} {compiled : CompiledTemplate}
    (h : client.current? t = some compiled) :
    client.addTemplate t = (client, .ok (.ofCompiled compiled .unchanged)) := by
  rw [addTemplate, h]

/-- A template that was added is there, as it was reported. -/
theorem current?_addTemplate {t : Template} {status : TemplateStatus}
    (h : (client.addTemplate t).2 = .ok status) :
    ∃ compiled, (client.addTemplate t).1.current? t = some compiled ∧
      status = .ofCompiled compiled status.change := by
  rw [addTemplate] at h ⊢
  cases hcurrent : client.current? t with
  | some compiled =>
    rw [hcurrent] at h
    obtain rfl := Except.ok.inj h
    exact ⟨compiled, hcurrent, rfl⟩
  | none =>
    cases hprepared : client.prepareTemplate t with
    | error e =>
      rw [hcurrent, hprepared] at h
      cases h
    | ok result =>
      obtain ⟨compiled, prepared⟩ := result
      rw [hcurrent, hprepared] at h
      obtain rfl := Except.ok.inj h
      refine ⟨compiled, ?_, rfl⟩
      obtain ⟨-, htemplate⟩ :=
        CompiledTemplate.IsOutcome.of_compile (Coherent.of_prepareTemplate hprepared).1
      have hkind : t.kind = compiled.kind := (kind_eq_of_prepareTemplate hprepared).symm
      have hinstalled : (client.cache.installTemplate compiled).1.template? t.kind =
          some compiled := by
        rw [Cache.template?_installTemplate, if_pos hkind]
      change ((client.cache.installTemplate compiled).1.template? t.kind).filter
        (fun compiled => compiled.template == t) = some compiled
      rw [hinstalled, Option.filter_some, htemplate, if_pos t.beq_self]

/-- A template that was just added is there already: it is not added again, and fails at the same
targets. -/
theorem addTemplate_addTemplate {t : Template} {status : TemplateStatus}
    (h : (client.addTemplate t).2 = .ok status) :
    (client.addTemplate t).1.addTemplate t =
      ((client.addTemplate t).1, .ok { status with change := .unchanged }) := by
  obtain ⟨compiled, hcurrent, hstatus⟩ := current?_addTemplate h
  rw [addTemplate_of_current? hcurrent, hstatus]
  rfl

/-! ### Removal in place -/

/-- Every inventory lists its members in order after an operation if it did before and an object
that is added does. -/
theorem isCanonical_perform (h : client.store.IsCanonical)
    (htargets : ∀ target ∈ client.setup.registry.targets, target.KeepsCanonical)
    (hadded : ∀ v, operation = .addData v → v.Canonical) :
    (client.perform operation).1.store.IsCanonical := by
  cases hkind : operation.kind? with
  | some kind =>
    intro target tree htree
    rw [inventories_perform client hkind] at htree
    exact h target tree htree
  | none =>
    cases operation with
    | addData v =>
      refine List.foldlRecOn (motive := Store.IsCanonical) _ _ h fun store hstore e he => ?_
      obtain ⟨target, ht, hentry⟩ := List.mem_filterMap.1 he
      obtain ⟨kept, hkept, rfl⟩ := Option.map_eq_some_iff.1 hentry
      exact hstore.putData (htargets target ht hkept (hadded v rfl)) _ _
    | removeData v =>
      refine List.foldlRecOn (motive := fun state => state.1.IsCanonical) (client.dataEntries v)
        removeEntry (b := (client.store, 0)) h fun state hstate e _ => ?_
      exact hstate.removeData e.1 e.2.path
    | reset =>
      intro target tree htree
      cases htree
    | _ => cases hkind

theorem isCanonical_run {operations : List Operation} (h : client.store.IsCanonical)
    (htargets : ∀ target ∈ client.setup.registry.targets, target.KeepsCanonical)
    (hadded : ∀ v, .addData v ∈ operations → v.Canonical) :
    (client.run operations).1.store.IsCanonical := by
  induction operations generalizing client with
  | nil => exact h
  | cons operation rest ih =>
    obtain ⟨hfirst, hrest⟩ : (∀ v, operation = .addData v → v.Canonical) ∧
        ∀ v, .addData v ∈ rest → v.Canonical :=
      ⟨fun v hv => hadded v (hv ▸ List.mem_cons_self),
        fun v hv => hadded v (List.mem_cons_of_mem _ hv)⟩
    have hnext : ∀ target ∈ (client.perform operation).1.setup.registry.targets,
        target.KeepsCanonical := by
      rw [setup_perform]
      exact htargets
    exact ih (isCanonical_perform h htargets hfirst) hnext hrest

/-- **Operations that come to nothing change nothing.** After any operations from a fresh client, an
operation that is refused with an error, finds nothing to remove, or adds or removes data at no
target leaves the client as it was: it has the same templates, the same constraints in the same
order with the same statuses, the same index, the same modules and the same inventories. Adding a
template that equals the one of its kind reports that it is unchanged, with the failures that are
recorded, and leaves the client as it was. Once a template was added, adding it again reports that
it is unchanged, with the same failures. Where objects list their members in order, removing data in
place comes to the same store as removing it, also where it finds nothing. -/
theorem idle_run (setup : Setup) (operations : List Operation) :
    let client := ((Client.fresh setup).run operations).1
    (∀ operation, (client.perform operation).2.IsIdle →
      (client.perform operation).1.Agrees client) ∧
    (∀ t compiled, client.cache.template? t.kind = some compiled → (compiled.template == t) = true →
      client.addTemplate t = (client, .ok (.ofCompiled compiled .unchanged))) ∧
    (∀ t status, (client.addTemplate t).2 = .ok status →
      (client.addTemplate t).1.addTemplate t =
        ((client.addTemplate t).1, .ok { status with change := .unchanged })) ∧
    ((∀ target ∈ setup.registry.targets, target.KeepsCanonical) →
      (∀ v, .addData v ∈ operations → v.Canonical) → ∀ target path,
        client.store.removeDataAlong target path = client.store.removeData target path) := by
  intro client
  refine ⟨fun operation => agrees_perform_of_isIdle, fun t compiled hcompiled hequal => ?_,
    fun t status => addTemplate_addTemplate, fun htargets hadded target path => ?_⟩
  · refine addTemplate_of_current? ?_
    rw [current?, hcompiled, Option.filter_some, if_pos hequal]
  · have hfresh : (Client.fresh setup).store.IsCanonical := by
      intro target tree htree
      cases htree
    exact (isCanonical_run hfresh htargets hadded).removeDataAlong_eq target path

/-! ### An instance -/

namespace Shelf

/-- A client for documents. -/
def setup : Setup where
  evaluator := { parses := fun _ => true, results := fun _ => .ok [] }
  registry := ⟨[Document.target Returning.target.name], List.pairwise_singleton _ _⟩

/-- A document of a given name. -/
def document (name : String) : Json := .obj [("kind", .str "Book"), ("name", .str name)]

/-- A template with a constraint, and an atlas on the shelf. -/
def operations : List Operation :=
  [.addTemplate (Returning.template none), .addConstraint Returning.constraint,
    .addData (document "atlas")]

/-- A constraint without a template. -/
def stray : Constraint where
  kind := ⟨"Stray", by decide +kernel⟩
  name := Returning.constraint.name

end Shelf

theorem idle_run_shelf :
    let client := ((Client.fresh Shelf.setup).run Shelf.operations).1
    (client.perform (.addConstraint Shelf.stray)).1.Agrees client ∧
      (client.perform (.removeConstraint Shelf.stray.key)).1.Agrees client ∧
      (client.perform (.removeData (Shelf.document "globe"))).1.Agrees client ∧
      (∃ status, (client.addTemplate (Returning.template none)).2 = .ok status ∧
        ((client.addTemplate (Returning.template none)).1.addTemplate (Returning.template none)).2 =
          .ok { status with change := .unchanged }) ∧
      client.store.removeDataAlong Returning.target.name ["Book", "globe"] =
        client.store.removeData Returning.target.name ["Book", "globe"] := by
  intro client
  obtain ⟨hidle, -, hagain, hplace⟩ := idle_run Shelf.setup Shelf.operations
  have hrefused : (client.addConstraint Shelf.stray).2.toBool = false := by decide +kernel
  have hmissing : (client.removeConstraint Shelf.stray.key).2 = .notFound := by decide +kernel
  have hnowhere : (client.removeData (Shelf.document "globe")).2 = 0 := by decide +kernel
  have hadded : (client.addTemplate (Returning.template none)).2.toBool = true := by decide +kernel
  refine ⟨hidle _ ?_, hidle _ ?_, hidle _ ?_, ?_, hplace ?_ ?_ _ _⟩
  · change (Report.constraint (client.addConstraint Shelf.stray).2).IsIdle
    cases houtcome : (client.addConstraint Shelf.stray).2 with
    | error e => exact .constraintRefused e
    | ok _ =>
      rw [houtcome] at hrefused
      cases hrefused
  · change (Report.removal (client.removeConstraint Shelf.stray.key).2).IsIdle
    rw [hmissing]
    exact .notFound
  · change (Report.count (client.removeData (Shelf.document "globe")).2).IsIdle
    rw [hnowhere]
    exact .nowhere
  · cases hstatus : (client.addTemplate (Returning.template none)).2 with
    | error e =>
      rw [hstatus] at hadded
      cases hadded
    | ok status => exact ⟨status, rfl, congrArg Prod.snd (hagain _ _ hstatus)⟩
  · intro target ht
    rw [List.mem_singleton.1 ht]
    exact (Document.keepsApart _).keepsCanonical
  · intro v hv
    obtain rfl : v = Shelf.document "atlas" := by simpa [Shelf.operations] using hv
    exact ⟨.cons (List.forall_mem_singleton.2 (by decide +kernel)) (List.pairwise_singleton _ _),
      trivial, trivial, trivial⟩

end Client

end PolicyEngine
