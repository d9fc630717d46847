import PolicyEngine.Proofs.Cache.Lookups

/-!
# Updates stay at their kind

An update of the cache is of one kind: that of its template or of its constraint. It reads nothing
but the template and the constraints of this kind, and changes nothing else. Only the next sequence
number is shared between kinds, and only new constraints take one.

## Main definitions

* `PolicyEngine.Cache.SameAt` — caches with the same template and constraints of a kind.
* `PolicyEngine.Cache.Operation.kind?` — the kind of an update.
* `PolicyEngine.Cache.Operation.IsOfTemplate` — updates that install or remove a template.

## Main results

* `PolicyEngine.Cache.sameAt_perform` — an update leaves other kinds alone.
* `PolicyEngine.Cache.SameAt.perform` — what an update does to its kind depends on this kind alone.
* `PolicyEngine.Cache.nextSeq_perform`, `PolicyEngine.Cache.SameAt.nextSeq_perform`.
-/

namespace PolicyEngine.Cache

variable {a b cache : Cache} {kind : TemplateKind} {operation : Operation}

/-- The kind of the template or the constraint that an update is about. -/
def Operation.kind? : Operation → Option TemplateKind
  | .installTemplate compiled => some compiled.kind
  | .removeTemplate _ kind => some kind
  | .upsertConstraint c => some c.kind
  | .removeConstraint key => some key.kind
  | .clear => none

/-- The update installs or removes a template. -/
def Operation.IsOfTemplate : Operation → Prop
  | .installTemplate _ => True
  | .removeTemplate _ _ => True
  | _ => False

/-- Two caches have the same template and the same constraints of a kind. -/
structure SameAt (kind : TemplateKind) (a b : Cache) : Prop where
  template?_eq : a.template? kind = b.template? kind
  constraint?_eq : ∀ name, a.constraint? ⟨kind, name⟩ = b.constraint? ⟨kind, name⟩

namespace SameAt

theorem refl (kind : TemplateKind) (a : Cache) : SameAt kind a a := ⟨rfl, fun _ => rfl⟩

theorem symm (h : SameAt kind a b) : SameAt kind b a :=
  ⟨h.template?_eq.symm, fun name => (h.constraint?_eq name).symm⟩

theorem trans {c : Cache} (h : SameAt kind a b) (h' : SameAt kind b c) : SameAt kind a c :=
  ⟨h.template?_eq.trans h'.template?_eq,
    fun name => (h.constraint?_eq name).trans (h'.constraint?_eq name)⟩

end SameAt

/-! ### Other kinds -/

/-- A change of status of constraints of another kind is none. -/
theorem map_restate_eq_self (h : cache.Ordered) (status : ConstraintStatus)
    {p : ConstraintEntry → Bool} (hp : ∀ entry, entry.constraint.kind = kind → p entry = false)
    (name : ConstraintName) :
    (cache.constraint? ⟨kind, name⟩).map (restate status p) = cache.constraint? ⟨kind, name⟩ := by
  cases hentry : cache.constraint? ⟨kind, name⟩ with
  | none => rfl
  | some entry =>
    rw [Option.map_some, restate, hp entry (h.kind_eq hentry)]
    rfl

/-- A removal of constraints of another kind removes nothing. -/
theorem filter_eq_self (h : cache.Ordered) {p : ConstraintEntry → Bool} {name : ConstraintName}
    (hp : ∀ entry, entry.constraint.key = ⟨kind, name⟩ → p entry = true) :
    (cache.constraint? ⟨kind, name⟩).filter p = cache.constraint? ⟨kind, name⟩ := by
  cases hentry : cache.constraint? ⟨kind, name⟩ with
  | none => rfl
  | some entry => rw [Option.filter_some, if_pos (hp entry (h.key_eq hentry))]

/-- An update leaves the template and the constraints of every other kind alone. -/
theorem sameAt_perform (h : cache.WellFormed) {other : TemplateKind}
    (hkind : operation.kind? = some other) (hne : kind ≠ other) :
    SameAt kind (cache.perform operation) cache := by
  cases operation with
  | installTemplate compiled =>
    cases hkind
    refine ⟨?_, fun name => ?_⟩
    · exact (template?_installTemplate _ _ _).trans (if_neg hne)
    · refine (h.constraint?_installTemplate compiled _).trans ?_
      refine map_restate_eq_self h.ordered _ (fun entry hentry => ?_) name
      rw [revives, hentry, decide_eq_false hne]
      rfl
  | removeTemplate policy removed =>
    cases hkind
    refine ⟨(template?_removeTemplate _ _ _ _).trans (if_neg hne), fun name => ?_⟩
    cases hcompiled : cache.template? other with
    | none =>
      change (removeTemplate policy cache other).1.constraint? _ = _
      rw [removeTemplate_of_template?_eq_none hcompiled]
      rfl
    | some compiled =>
      refine (h.constraint?_removeTemplate policy hcompiled _).trans ?_
      cases policy with
      | cascade =>
        refine filter_eq_self h.ordered fun entry hentry => decide_eq_true ?_
        rw [Constraint.key] at hentry
        rwa [(ConstraintKey.mk.inj hentry).1]
      | retain =>
        refine map_restate_eq_self h.ordered _ (fun entry hentry => ?_) name
        rw [hentry, decide_eq_false hne]
  | upsertConstraint c =>
    cases hkind
    refine ⟨template?_upsertConstraint _ _ _, fun name => ?_⟩
    change (cache.upsertConstraint c).1.constraint? _ = _
    rw [upsertConstraint]
    split
    · rfl
    · refine (constraint?_putConstraint _ _ _).trans (if_neg fun heq => hne ?_)
      exact (ConstraintKey.mk.inj heq).1
  | removeConstraint key =>
    cases hkind
    refine ⟨template?_removeConstraint _ _ _, fun name => ?_⟩
    refine (h.constraint?_removeConstraint key _).trans ?_
    refine filter_eq_self h.ordered fun entry hentry => decide_eq_true fun heq => hne ?_
    rw [← heq, hentry]
  | clear => cases hkind

/-! ### The same kind -/

theorem SameAt.checkConstraint (h : SameAt kind a b) {c : Constraint} (hc : c.kind = kind) :
    a.checkConstraint c = b.checkConstraint c := by
  rw [Cache.checkConstraint, Cache.checkConstraint, hc, h.template?_eq]

/-- What an update does to its kind depends on nothing but the template and the constraints of this
kind, and on the next number where a constraint is stored. -/
theorem SameAt.perform (h : SameAt kind a b) (ha : a.WellFormed) (hb : b.WellFormed)
    (hkind : operation.kind? = some kind)
    (hnext : operation.IsOfTemplate ∨ a.nextSeq = b.nextSeq) :
    SameAt kind (a.perform operation) (b.perform operation) := by
  cases operation with
  | installTemplate compiled =>
    cases hkind
    refine ⟨?_, fun name => ?_⟩
    · exact ((template?_installTemplate _ _ _).trans (if_pos rfl)).trans
        ((template?_installTemplate _ _ _).trans (if_pos rfl)).symm
    · refine (ha.constraint?_installTemplate compiled _).trans ?_
      rw [h.constraint?_eq name]
      exact (hb.constraint?_installTemplate compiled _).symm
  | removeTemplate policy removed =>
    cases hkind
    change SameAt kind (removeTemplate policy a kind).1 (removeTemplate policy b kind).1
    cases hcompiled : a.template? kind with
    | none =>
      rw [removeTemplate_of_template?_eq_none hcompiled,
        removeTemplate_of_template?_eq_none (h.template?_eq.symm.trans hcompiled)]
      exact ⟨h.template?_eq, h.constraint?_eq⟩
    | some compiled =>
      refine ⟨?_, fun name => ?_⟩
      · rw [template?_removeTemplate, template?_removeTemplate, if_pos rfl, if_pos rfl]
      · rw [ha.constraint?_removeTemplate policy hcompiled,
          hb.constraint?_removeTemplate policy (h.template?_eq.symm.trans hcompiled),
          h.constraint?_eq name]
  | upsertConstraint c =>
    cases hkind
    have hnext : a.nextSeq = b.nextSeq := hnext.resolve_left id
    change SameAt c.kind (a.upsertConstraint c).1 (b.upsertConstraint c).1
    refine ⟨?_, fun name => ?_⟩
    · rw [template?_upsertConstraint, template?_upsertConstraint, h.template?_eq]
    · rw [upsertConstraint, upsertConstraint, h.checkConstraint rfl]
      cases b.checkConstraint c with
      | error e => exact h.constraint?_eq name
      | ok _ =>
        refine (constraint?_putConstraint _ _ _).trans (Eq.trans ?_
          (constraint?_putConstraint _ _ _).symm)
        rw [hnext, h.constraint?_eq name, Constraint.key, h.constraint?_eq c.name]
  | removeConstraint key =>
    cases hkind
    change SameAt key.kind (a.removeConstraint key).1 (b.removeConstraint key).1
    refine ⟨?_, fun name => ?_⟩
    · rw [template?_removeConstraint, template?_removeConstraint, h.template?_eq]
    · rw [ha.constraint?_removeConstraint, hb.constraint?_removeConstraint, h.constraint?_eq name]
  | clear => cases hkind

/-! ### The next number -/

/-- Templates take no number. -/
theorem nextSeq_perform (cache : Cache) (h : operation.IsOfTemplate) :
    (cache.perform operation).nextSeq = cache.nextSeq := by
  cases operation with
  | installTemplate compiled => exact nextSeq_installTemplate cache compiled
  | removeTemplate policy kind => exact nextSeq_removeTemplate cache policy kind
  | upsertConstraint c => exact h.elim
  | removeConstraint key => exact h.elim
  | clear => exact h.elim

/-- Whether a number is taken depends on nothing but the kind. -/
theorem SameAt.nextSeq_perform (h : SameAt kind a b) (hkind : operation.kind? = some kind)
    (hnext : a.nextSeq = b.nextSeq) :
    (a.perform operation).nextSeq = (b.perform operation).nextSeq := by
  cases operation with
  | installTemplate compiled =>
    exact (nextSeq_installTemplate a compiled).trans
      (hnext.trans (nextSeq_installTemplate b compiled).symm)
  | removeTemplate policy removed =>
    exact (nextSeq_removeTemplate a policy removed).trans
      (hnext.trans (nextSeq_removeTemplate b policy removed).symm)
  | upsertConstraint c =>
    cases hkind
    change (a.upsertConstraint c).1.nextSeq = (b.upsertConstraint c).1.nextSeq
    rw [upsertConstraint, upsertConstraint, h.checkConstraint rfl]
    cases b.checkConstraint c with
    | error e => exact hnext
    | ok _ =>
      refine (nextSeq_putConstraint _ _).trans (Eq.trans ?_ (nextSeq_putConstraint _ _).symm)
      rw [hnext, Constraint.key, h.constraint?_eq c.name]
  | removeConstraint key =>
    exact (nextSeq_removeConstraint a key).trans (hnext.trans (nextSeq_removeConstraint b key).symm)
  | clear => cases hkind

end PolicyEngine.Cache
