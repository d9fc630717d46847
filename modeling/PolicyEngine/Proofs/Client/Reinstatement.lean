import PolicyEngine.Proofs.Client.DryRun
import PolicyEngine.Proofs.Client.Locality

/-!
# Removing a template and adding it again

Where constraints are retained the removal of a template makes orphans of its constraints, those in
force and those that were orphans before, and takes them out of the index. When the same template
comes back it revives whatever satisfies its schema. If that is so for the constraints that were in
force, then just these return: an orphan beside a template is one that the template's schema
refuses. So removing a template and adding it again changes nothing.

## Main results

* `PolicyEngine.Cache.WellFormed.sameAt_reinstall` — what the removal does to the constraints of the
  kind is undone.
* `PolicyEngine.Client.Coherent.agrees_reinstate` — the client is as it was before.
* `PolicyEngine.Client.reinstate_run` — the same after any operations, with the reports.
-/

namespace PolicyEngine

/-! ### The constraints of the kind -/

namespace Cache

/-- A constraint that is set aside comes back if it was in force and the schema accepts it, and
stays aside if it was so before and the schema refuses it. -/
theorem restate_revives_restate {compiled : CompiledTemplate} {entry : ConstraintEntry}
    (hkind : entry.constraint.kind = compiled.kind)
    (hvalid : (compiled.schema.validate entry.constraint).toBool = entry.isActive) :
    restate .active (revives compiled)
      (restate .orphaned (fun e => e.constraint.kind = compiled.kind) entry) = entry := by
  have haside : restate .orphaned (fun e => e.constraint.kind = compiled.kind) entry =
      { entry with status := .orphaned } := if_pos (decide_eq_true hkind)
  have hrevives : revives compiled { entry with status := .orphaned } = entry.isActive := by
    rw [revives, hvalid, decide_eq_true hkind]
    rfl
  rw [haside, restate, hrevives]
  obtain ⟨constraint, seq, status⟩ := entry
  cases status <;> rfl

/-- Where constraints are retained, removing a template and installing it again gives back the
constraints of its kind, provided that its schema accepts just those in force. -/
theorem WellFormed.sameAt_reinstall {cache : Cache} (h : cache.WellFormed) {kind : TemplateKind}
    {compiled : CompiledTemplate} (hcompiled : cache.template? kind = some compiled)
    (hvalid : ∀ name entry, cache.constraint? ⟨kind, name⟩ = some entry →
      (compiled.schema.validate entry.constraint).toBool = entry.isActive) :
    SameAt kind ((removeTemplate .retain cache kind).1.installTemplate compiled).1 cache := by
  obtain rfl : compiled.kind = kind := h.kind_eq hcompiled
  have hremoved := h.perform (.removeTemplate .retain compiled.kind)
  refine ⟨?_, fun name => ?_⟩
  · rw [template?_installTemplate, if_pos rfl, hcompiled]
  · refine (hremoved.constraint?_installTemplate compiled _).trans ?_
    refine (congrArg _ (h.constraint?_removeTemplate .retain hcompiled _)).trans ?_
    cases hentry : cache.constraint? ⟨compiled.kind, name⟩ with
    | none => rfl
    | some entry =>
      exact congrArg some
        (restate_revives_restate (h.ordered.kind_eq hentry) (hvalid name entry hentry))

end Cache

/-! ### The client -/

namespace Client

variable {client : Client} {kind : TemplateKind} {compiled : CompiledTemplate}

theorem cache_removeTemplate (hcompiled : client.cache.template? kind = some compiled) :
    (client.removeTemplate kind).1.cache =
      (Cache.removeTemplate client.setup.config.orphanPolicy client.cache kind).1 := by
  rw [removeTemplate, hcompiled]

theorem removeTemplate_snd (hcompiled : client.cache.template? kind = some compiled) :
    (client.removeTemplate kind).2 = .removed := by
  have hcontains : client.cache.templates.contains kind = true :=
    SortedMap.contains_iff.2 ⟨compiled, hcompiled⟩
  rw [removeTemplate, hcompiled]
  dsimp only
  rw [Cache.removeTemplate, if_pos hcontains]

/-- A template that compiles is installed where there is none of its kind. -/
theorem addTemplate_of_template?_eq_none {t : Template}
    (hvalid : client.validateTemplate t = .ok compiled)
    (hnone : client.cache.template? t.kind = none) :
    (client.addTemplate t).1.cache = (client.cache.installTemplate compiled).1 ∧
      (client.addTemplate t).2 = .ok (.ofCompiled compiled (.installed false)) := by
  obtain ⟨prepared, hprepared⟩ := exists_prepareTemplate_eq_ok hvalid
  have hcurrent : client.current? t = none := by
    rw [current?, hnone]
    rfl
  have hprevious : client.cache.template? compiled.kind = none := by
    rwa [kind_eq_of_prepareTemplate hprepared]
  rw [addTemplate, hcurrent, hprepared]
  refine ⟨rfl, ?_⟩
  change Except.ok (TemplateStatus.ofCompiled compiled
    (.installed (client.cache.template? compiled.kind).isSome)) = _
  rw [hprevious]
  rfl

namespace Coherent

/-- Once its template is removed a kind has none, and the template still compiles. -/
theorem validateTemplate_removeTemplate (h : client.Coherent)
    (hcompiled : client.cache.template? kind = some compiled) :
    (client.removeTemplate kind).1.validateTemplate compiled.template = .ok compiled ∧
      (client.removeTemplate kind).1.cache.template? compiled.template.kind = none := by
  have hsetup : (client.removeTemplate kind).1.setup = client.setup :=
    setup_perform client (.removeTemplate kind)
  have hkind : compiled.template.kind = kind := h.wellFormed.kind_eq hcompiled
  refine ⟨?_, ?_⟩
  · rw [validateTemplate, hsetup]
    exact h.isOutcome hcompiled
  · rw [cache_removeTemplate hcompiled, Cache.template?_removeTemplate, hkind, if_pos rfl]

/-- Removing a template and adding it again gives the client back, provided that constraints are
retained and that the template's schema accepts just those in force. -/
theorem agrees_reinstate (h : client.Coherent)
    (hpolicy : client.setup.config.orphanPolicy = .retain)
    (hcompiled : client.cache.template? kind = some compiled)
    (hvalid : ∀ name entry, client.cache.constraint? ⟨kind, name⟩ = some entry →
      (compiled.schema.validate entry.constraint).toBool = entry.isActive) :
    ((client.removeTemplate kind).1.addTemplate compiled.template).1.Agrees client := by
  obtain ⟨hcompiles, hnone⟩ := h.validateTemplate_removeTemplate hcompiled
  have hkind : compiled.template.kind = kind := h.wellFormed.kind_eq hcompiled
  have hremoved := h.removeTemplate kind
  have hremove : Operation.kind? (.removeTemplate kind) = some kind := rfl
  have hadd : Operation.kind? (.addTemplate compiled.template) = some kind := congrArg some hkind
  refine (hremoved.addTemplate compiled.template).agrees h ?_ (fun k => ?_) ?_ ?_
  · exact (setup_perform _ (.addTemplate compiled.template)).trans
      (setup_perform client (.removeTemplate kind))
  · by_cases hk : k = kind
    · rw [hk, (addTemplate_of_template?_eq_none hcompiles hnone).1,
        cache_removeTemplate hcompiled, hpolicy]
      exact h.wellFormed.sameAt_reinstall hcompiled hvalid
    · exact (sameAt_perform hremoved.wellFormed hadd hk).trans
        (sameAt_perform h.wellFormed hremove hk)
  · exact (nextSeq_perform _ hadd trivial).trans (nextSeq_perform client hremove trivial)
  · exact (inventories_perform _ hadd).trans (inventories_perform client hremove)

end Coherent

/-- **A template that is removed can be put back.** After any operations from a fresh client that
retains constraints, removing a template and adding it again reports that one was removed and one
installed, in place of none, with the same failures as before. If the constraints of its kind that
are in force satisfy its schema, the client is afterwards as it was: it has the same templates, the
same constraints in the same order with the same statuses and sequence numbers, orphans included,
the same index and the same modules. Only the counts of changes differ. -/
theorem reinstate_run (setup : Setup) (hpolicy : setup.config.orphanPolicy = .retain)
    (operations : List Operation) (kind : TemplateKind) (compiled : CompiledTemplate)
    (hcompiled : ((Client.fresh setup).run operations).1.cache.template? kind = some compiled)
    (hactive : ∀ key entry, ((Client.fresh setup).run operations).1.cache.constraint? key =
      some entry → entry.constraint.kind = kind → entry.status = .active →
        compiled.schema.validate entry.constraint = .ok ()) :
    let client := ((Client.fresh setup).run operations).1
    let removed := client.removeTemplate kind
    let restored := removed.1.addTemplate compiled.template
    removed.2 = .removed ∧
      restored.2 = .ok { kind, change := .installed false, failures := compiled.failures } ∧
      restored.1.Agrees client := by
  intro client removed restored
  have h : client.Coherent := (Coherent.fresh setup).run operations
  have hretain : client.setup.config.orphanPolicy = .retain := by
    rw [show client.setup = setup from setup_run _ _, hpolicy]
  have hkind : compiled.kind = kind := h.wellFormed.kind_eq hcompiled
  obtain ⟨hcompiles, hnone⟩ := h.validateTemplate_removeTemplate hcompiled
  refine ⟨removeTemplate_snd hcompiled, ?_, h.agrees_reinstate hretain hcompiled ?_⟩
  · rw [← hkind]
    exact (addTemplate_of_template?_eq_none hcompiles hnone).2
  · intro name entry hentry
    have hentryKind : entry.constraint.kind = kind := h.wellFormed.ordered.kind_eq hentry
    cases hstatus : entry.status with
    | active =>
      rw [hactive _ entry hentry hentryKind hstatus, ConstraintEntry.isActive, hstatus]
      rfl
    | orphaned =>
      have hsettled := settled_of_constraint? setup operations hentry
      rw [← hentryKind] at hcompiled
      rw [hsettled.validate_eq hstatus hcompiled, ConstraintEntry.isActive, hstatus]
      rfl

/-! ### An instance -/

namespace Reinstated

/-- A schema that asks for an owner. -/
def schema : Json :=
  .obj [("properties", .obj [("owner", .obj [("type", .str "string")])]),
    ("required", .arr [.str "owner"]), ("type", .str "object")]

/-- A constraint that names its owner. -/
def constraint : Constraint where
  kind := Returning.constraint.kind
  name := ⟨"owned", by decide +kernel⟩
  parameters := .obj [("owner", .str "nobody")]

/-- A constraint without an owner outlives its template and is refused by the next, which has a
constraint of its own. -/
def operations : List Operation :=
  [.addTemplate (Returning.template none), .addConstraint Returning.constraint,
    .removeTemplate constraint.kind, .addTemplate (Returning.template (some schema)),
    .addConstraint constraint]

end Reinstated

theorem reinstate_run_refused :
    let client := ((Client.fresh Returning.setup).run Reinstated.operations).1
    let kind := Reinstated.constraint.kind
    Returning.setup.config.orphanPolicy = .retain ∧
      client.cache.entries.map (·.status) = [.orphaned, .active] ∧
      ∃ compiled, client.cache.template? kind = some compiled ∧
        (∀ key entry, client.cache.constraint? key = some entry → entry.constraint.kind = kind →
          entry.status = .active → compiled.schema.validate entry.constraint = .ok ()) ∧
        ((client.removeTemplate kind).1.addTemplate compiled.template).1.Agrees client := by
  intro client kind
  obtain ⟨hstatuses, hvalid⟩ : client.cache.entries.map (·.status) = [.orphaned, .active] ∧
      (client.cache.template? kind).any (fun compiled => client.cache.entries.all fun entry =>
        entry.status = .orphaned ||
          (compiled.schema.validate entry.constraint).toBool) = true := by
    decide +kernel
  rw [Option.any_eq_true] at hvalid
  obtain ⟨compiled, hcompiled, hall⟩ := hvalid
  have hactive : ∀ key entry, client.cache.constraint? key = some entry →
      entry.constraint.kind = kind → entry.status = .active →
        compiled.schema.validate entry.constraint = .ok () := by
    intro key entry hentry _ hstatus
    have hordered : client.cache.Ordered :=
      ((Coherent.fresh Returning.setup).run _).wellFormed.ordered
    have haccepts := List.all_eq_true.1 hall entry (hordered.mem_entries_of_get? hentry)
    rw [hstatus] at haccepts
    cases hvalidate : compiled.schema.validate entry.constraint with
    | ok _ => rfl
    | error e =>
      rw [hvalidate] at haccepts
      cases haccepts
  have hrun := reinstate_run Returning.setup rfl Reinstated.operations kind compiled
  obtain ⟨-, -, hagrees⟩ := hrun hcompiled hactive
  exact ⟨rfl, hstatuses, compiled, hcompiled, hactive, hagrees⟩

end Client

end PolicyEngine
