import PolicyEngine.Proofs.Cache.Considered
import PolicyEngine.Proofs.Cache.Entries

/-!
# Statuses and templates

The status of a constraint tells what became of its template. A constraint in force has one. An
orphan exists only where constraints outlive their templates, and either has none or does not
satisfy the schema of the one that came after. The status is computed when a template goes or comes
and when the constraint is stored, and between these it stays right.

## Main definitions

* `PolicyEngine.Cache.Settled` — the status of a constraint is right.
* `PolicyEngine.Cache.Operation.Obeys` — an update removes templates under a given policy.

## Main results

* `PolicyEngine.Cache.settled_perform`, `PolicyEngine.Cache.settled_run` — updates under one policy
  keep every status right.
-/

namespace PolicyEngine.Cache

variable {cache cache' : Cache} {policy : OrphanPolicy} {entry : ConstraintEntry}

/-- The status of a constraint is right: in force only with a template, and an orphan only where
constraints are retained, and only without a template whose schema it satisfies. -/
structure Settled (policy : OrphanPolicy) (cache : Cache) (entry : ConstraintEntry) : Prop where
  exists_template : entry.status = .active →
    ∃ compiled, cache.template? entry.constraint.kind = some compiled
  retain : entry.status = .orphaned → policy = .retain
  validate_eq : entry.status = .orphaned → ∀ {compiled},
    cache.template? entry.constraint.kind = some compiled →
      (compiled.schema.validate entry.constraint).toBool = false

/-- An update removes templates only under a given policy. -/
def Operation.Obeys (policy : OrphanPolicy) : Operation → Prop
  | .removeTemplate policy' _ => policy' = policy
  | _ => True

namespace Settled

/-- A constraint does not notice changes to templates of other kinds. -/
theorem congr (h : Settled policy cache entry)
    (htemplate : cache'.template? entry.constraint.kind = cache.template? entry.constraint.kind) :
    Settled policy cache' entry where
  exists_template := by
    rw [htemplate]
    exact h.exists_template
  retain := h.retain
  validate_eq := by
    rw [htemplate]
    exact h.validate_eq

/-- A constraint in force is right as long as it has a template. -/
theorem of_active (hactive : entry.status = .active) {compiled : CompiledTemplate}
    (hcompiled : cache.template? entry.constraint.kind = some compiled) :
    Settled policy cache entry where
  exists_template _ := ⟨compiled, hcompiled⟩
  retain horphaned := by
    rw [hactive] at horphaned
    cases horphaned
  validate_eq horphaned := by
    rw [hactive] at horphaned
    cases horphaned

/-- A retained constraint without a template is an orphan. -/
theorem of_orphaned (horphaned : entry.status = .orphaned)
    (hnone : cache.template? entry.constraint.kind = none) : Settled .retain cache entry where
  exists_template hactive := by
    rw [horphaned] at hactive
    cases hactive
  retain _ := rfl
  validate_eq _ {compiled} hcompiled := by
    rw [hnone] at hcompiled
    cases hcompiled

/-- Installing a template settles the constraints of its kind anew. -/
theorem installTemplate (h : Settled policy cache entry) (compiled : CompiledTemplate) :
    Settled policy (cache.installTemplate compiled).1
      (restate .active (revives compiled) entry) := by
  rw [restate]
  by_cases hkind : entry.constraint.kind = compiled.kind
  · have hcompiled : (cache.installTemplate compiled).1.template? entry.constraint.kind =
        some compiled := by rw [template?_installTemplate, if_pos hkind]
    by_cases hrevives : revives compiled entry = true
    · rw [if_pos hrevives]
      exact of_active rfl hcompiled
    · rw [if_neg hrevives]
      cases hstatus : entry.status with
      | active => exact of_active hstatus hcompiled
      | orphaned =>
        refine ⟨fun hactive => ?_, h.retain, fun _ other hother => ?_⟩
        · rw [hstatus] at hactive
          cases hactive
        · rw [hcompiled] at hother
          rw [← Option.some.inj hother]
          simpa [revives, hkind, ConstraintEntry.isActive, hstatus] using hrevives
  · have hrevives : ¬revives compiled entry = true := by simp [revives, hkind]
    rw [if_neg hrevives]
    exact h.congr (by rw [template?_installTemplate, if_neg hkind])

end Settled

/-! ### Updates -/

theorem settled_removeTemplate (ho : cache.Ordered)
    (h : ∀ entry ∈ cache.entries, Settled policy cache entry) (kind : TemplateKind) :
    ∀ entry ∈ (removeTemplate policy cache kind).1.entries,
      Settled policy (removeTemplate policy cache kind).1 entry := by
  cases hcompiled : cache.template? kind with
  | none =>
    rw [removeTemplate_of_template?_eq_none hcompiled]
    exact fun entry hentry => (h entry hentry).congr rfl
  | some compiled =>
    rw [ho.entries_removeTemplate policy hcompiled]
    cases policy with
    | cascade =>
      intro entry hentry
      obtain ⟨hentry, hkind⟩ := List.mem_filter.1 hentry
      refine (h entry hentry).congr ?_
      rw [template?_removeTemplate, if_neg (of_decide_eq_true hkind)]
    | retain =>
      refine List.forall_mem_map.2 fun entry hentry => ?_
      rw [restate]
      by_cases hkind : entry.constraint.kind = kind
      · rw [if_pos (decide_eq_true hkind)]
        exact .of_orphaned rfl (by rw [template?_removeTemplate, if_pos hkind])
      · rw [if_neg (by simpa using hkind)]
        exact (h entry hentry).congr (by rw [template?_removeTemplate, if_neg hkind])

theorem settled_upsertConstraint (ho : cache.Ordered)
    (h : ∀ entry ∈ cache.entries, Settled policy cache entry) (c : Constraint) :
    ∀ entry ∈ (cache.upsertConstraint c).1.entries,
      Settled policy (cache.upsertConstraint c).1 entry := by
  have hold : ∀ entry ∈ cache.entries, Settled policy (cache.upsertConstraint c).1 entry :=
    fun entry hentry => (h entry hentry).congr (template?_upsertConstraint _ _ _)
  cases hcheck : cache.checkConstraint c with
  | error e =>
    have hsame : (cache.upsertConstraint c).1 = cache := by rw [upsertConstraint, hcheck]
    rwa [hsame]
  | ok _ =>
    have hput : (cache.upsertConstraint c).1.entries = (cache.putConstraint c).entries := by
      rw [upsertConstraint, hcheck]
      rfl
    obtain ⟨compiled, hcompiled⟩ :
        ∃ compiled, (cache.upsertConstraint c).1.template? c.kind = some compiled := by
      rw [template?_upsertConstraint]
      rw [checkConstraint] at hcheck
      split at hcheck
      · cases hcheck
      · exact ⟨_, ‹_›⟩
    rw [hput]
    cases hentry : cache.constraints.get? c.key with
    | some found =>
      rw [ho.entries_putConstraint_of_some hentry]
      refine List.forall_mem_map.2 fun entry hmem => ?_
      split
      · exact .of_active rfl hcompiled
      · exact hold entry hmem
    | none =>
      rw [ho.entries_putConstraint_of_none hentry, List.forall_mem_append]
      exact ⟨hold, List.forall_mem_singleton.2 (.of_active rfl hcompiled)⟩

/-- Every update under a policy keeps every status right. -/
theorem settled_perform (ho : cache.Ordered)
    (h : ∀ entry ∈ cache.entries, Settled policy cache entry) {operation : Operation}
    (hobeys : operation.Obeys policy) :
    ∀ entry ∈ (cache.perform operation).entries,
      Settled policy (cache.perform operation) entry := by
  cases operation with
  | installTemplate compiled =>
    change ∀ entry ∈ (cache.installTemplate compiled).1.entries, _
    rw [ho.entries_installTemplate]
    exact List.forall_mem_map.2 fun entry hentry => (h entry hentry).installTemplate compiled
  | removeTemplate policy' kind =>
    rw [← (hobeys : policy' = policy)] at h ⊢
    exact settled_removeTemplate ho h kind
  | upsertConstraint c => exact settled_upsertConstraint ho h c
  | removeConstraint key =>
    change ∀ entry ∈ (cache.removeConstraint key).1.entries, _
    rw [ho.entries_removeConstraint]
    intro entry hentry
    exact (h entry (List.mem_filter.1 hentry).1).congr (template?_removeConstraint _ _ _)
  | clear =>
    intro entry hentry
    cases hentry

/-- Updates under one policy keep every status right. -/
theorem settled_run (hw : cache.WellFormed)
    (h : ∀ entry ∈ cache.entries, Settled policy cache entry) {operations : List Operation}
    (hobeys : ∀ operation ∈ operations, operation.Obeys policy) :
    ∀ entry ∈ (cache.run operations).entries, Settled policy (cache.run operations) entry := by
  induction operations generalizing cache with
  | nil => exact h
  | cons operation rest ih =>
    obtain ⟨hfirst, hrest⟩ := List.forall_mem_cons.1 hobeys
    exact ih (hw.perform operation) (settled_perform hw.ordered h hfirst) hrest

end PolicyEngine.Cache
