import PolicyEngine.Proofs.Cache.Index

/-!
# What a review considers

A review of a target reads its constraints off the index. The same list can be read off the
constraints themselves: of all of them, in the order of first addition, those that are in force,
whose template declares the target, and whose match specification applies there. In a well-formed
cache the two lists are equal, and every cache that operations lead to is well formed.

## Main definitions

* `PolicyEngine.Cache.WellFormed` — order and index are right, and templates stand under their
  kinds.
* `PolicyEngine.Cache.applies` — whether a constraint is to be considered at a target.
* `PolicyEngine.Cache.considered` — what a review considers, read off the constraints.

## Main results

* `PolicyEngine.Cache.WellFormed.perform`, `PolicyEngine.Cache.WellFormed.run` — every cache that
  operations lead to is well formed.
* `PolicyEngine.Cache.WellFormed.forTarget_eq` — the index gives what the constraints ask for.
* `PolicyEngine.Cache.forTarget_run` — the same for every list of operations.
-/

namespace PolicyEngine.Cache

/-! ### Well-formed caches -/

/-- A cache whose order and index are right and whose templates stand under their kinds. -/
structure WellFormed (cache : Cache) : Prop where
  ordered : cache.Ordered
  indexed : cache.Indexed
  kind_eq : ∀ {kind compiled}, cache.templates.get? kind = some compiled → compiled.kind = kind

namespace WellFormed

variable {cache : Cache}

/-- A cache without templates and constraints is well formed, whatever number comes next. -/
theorem empty (nextSeq generation : Nat) : WellFormed { nextSeq, generation } where
  ordered := Ordered.empty nextSeq generation
  indexed := ⟨fun _ _ => rfl, fun _ _ h => by cases h⟩
  kind_eq h := by cases h

theorem bump (h : cache.WellFormed) : cache.bump.WellFormed :=
  ⟨h.ordered.congr rfl rfl rfl, ⟨h.indexed.get?_keysAt, h.indexed.nonempty⟩, h.kind_eq⟩

theorem setStatus (h : cache.WellFormed) (status : ConstraintStatus) (key : ConstraintKey) :
    (cache.setStatus status key).WellFormed where
  ordered := h.ordered.setStatus status key
  indexed := h.indexed.setStatus h.ordered status key
  kind_eq := by
    rw [templates_setStatus]
    exact h.kind_eq

theorem insertTemplate (h : cache.WellFormed) (compiled : CompiledTemplate) :
    (cache.insertTemplate compiled).WellFormed where
  ordered := h.ordered.congr (constraints_reindexKind _ _) (order_reindexKind _ _)
    (nextSeq_reindexKind _ _)
  indexed := h.indexed.reindexKind h.ordered fun k hk => by
    rw [SortedMap.get?_insert, if_neg hk]
  kind_eq := by
    intro kind c hc
    rw [Cache.insertTemplate, templates_reindexKind] at hc
    rcases SortedMap.get?_insert_eq_some_iff.1 hc with ⟨rfl, rfl⟩ | ⟨-, hc⟩
    · rfl
    · exact h.kind_eq hc

theorem eraseTemplate (h : cache.WellFormed) (kind : TemplateKind) :
    (cache.eraseTemplate kind).WellFormed where
  ordered := h.ordered.congr (constraints_reindexKind _ _) (order_reindexKind _ _)
    (nextSeq_reindexKind _ _)
  indexed := h.indexed.reindexKind h.ordered fun k hk => by
    rw [SortedMap.get?_erase, if_neg hk]
  kind_eq := by
    intro k c hc
    rw [Cache.eraseTemplate, templates_reindexKind] at hc
    exact h.kind_eq (SortedMap.get?_erase_eq_some_iff.1 hc).2

theorem putConstraint (h : cache.WellFormed) (c : Constraint) :
    (cache.putConstraint c).WellFormed where
  ordered := h.ordered.putConstraint c
  indexed := h.indexed.putConstraint h.ordered c
  kind_eq := by
    rw [templates_putConstraint]
    exact h.kind_eq

theorem eraseConstraint (h : cache.WellFormed) (key : ConstraintKey) :
    (cache.eraseConstraint key).WellFormed where
  ordered := h.ordered.eraseConstraint key
  indexed := h.indexed.eraseConstraint h.ordered key
  kind_eq := by
    rw [templates_eraseConstraint]
    exact h.kind_eq

theorem orphan (h : cache.WellFormed) (policy : OrphanPolicy) (key : ConstraintKey) :
    (orphan policy cache key).WellFormed := by
  cases policy with
  | cascade => exact h.eraseConstraint key
  | retain => exact h.setStatus .orphaned key

/-- A change that is made for one constraint after another. -/
theorem foldl (h : cache.WellFormed) {change : Cache → ConstraintKey → Cache}
    (hchange : ∀ {cache : Cache} (key : ConstraintKey), cache.WellFormed →
      (change cache key).WellFormed) (keys : List ConstraintKey) :
    (keys.foldl change cache).WellFormed := by
  induction keys generalizing cache with
  | nil => exact h
  | cons key rest ih => exact ih (hchange key h)

/-! ### Operations -/

/-- Every operation leads from well-formed caches to well-formed caches. -/
theorem perform (h : cache.WellFormed) (operation : Operation) :
    (cache.perform operation).WellFormed := by
  cases operation with
  | installTemplate compiled =>
    exact ((h.foldl (fun key hc => hc.setStatus .active key) _).insertTemplate compiled).bump
  | removeTemplate policy kind =>
    change (removeTemplate policy cache kind).1.WellFormed
    rw [removeTemplate]
    split
    · exact ((h.eraseTemplate kind).foldl (fun key hc => hc.orphan policy key) _).bump
    · exact h.bump
  | upsertConstraint c =>
    change (cache.upsertConstraint c).1.WellFormed
    rw [upsertConstraint]
    split
    · exact h
    · exact (h.putConstraint c).bump
  | removeConstraint key => exact (h.eraseConstraint key).bump
  | clear => exact empty _ _

/-- Operations lead from well-formed caches to well-formed caches. -/
theorem run (h : cache.WellFormed) (operations : List Operation) :
    (cache.run operations).WellFormed := by
  induction operations generalizing cache with
  | nil => exact h
  | cons operation rest ih => exact ih (h.perform operation)

end WellFormed

/-! ### Reading the constraints -/

/-- Whether a constraint is to be considered at a target: it is in force, its template declares the
target, and its match specification applies there. -/
def applies (cache : Cache) (target : TargetName) (entry : ConstraintEntry) : Bool :=
  entry.isActive && (cache.templates.get? entry.constraint.kind).any fun compiled =>
    (declaredTargets compiled).contains target &&
      compiled.schema.matchApplies target entry.constraint.matchSpec

/-- A constraint with the module that its template has for a target, or with the reason why it has
none. -/
def pairing? (cache : Cache) (target : TargetName) (entry : ConstraintEntry) :
    Option TargetConstraint :=
  (cache.templates.get? entry.constraint.kind).bind fun compiled =>
    match compiled.artifact? target with
    | some artifact => some ⟨entry.constraint, .ok artifact.module⟩
    | none => (compiled.failure? target).map fun e => ⟨entry.constraint, .error e⟩

/-- What a review of a target considers, read off the constraints in the order of first addition. -/
def considered (cache : Cache) (target : TargetName) : List TargetConstraint :=
  (cache.entries.filter (cache.applies target)).filterMap (cache.pairing? target)

section Considered

variable {cache : Cache} {target : TargetName}

theorem mem_indexedTargets_iff {entry : ConstraintEntry} :
    target ∈ cache.indexedTargets entry ↔ cache.applies target entry = true := by
  rw [indexedTargets, applies]
  cases cache.templates.get? entry.constraint.kind with
  | none => simp
  | some compiled =>
    by_cases hactive : entry.isActive = true
    · simp [hactive]
    · simp [hactive]

/-- In an indexed cache the index of a target selects from the order the constraints that apply. -/
theorem Indexed.keysAt_eq (h : cache.Indexed) (target : TargetName) :
    keysAt cache.index target = cache.order.filter fun _ key =>
      (cache.constraints.get? key).any (cache.applies target) := by
  refine SortedMap.ext_get? fun seq => ?_
  rw [h.get?_keysAt, SortedMap.get?_filter, due]
  congr 1
  funext key
  cases cache.constraints.get? key with
  | none => rfl
  | some entry =>
    rw [Option.any_some, Option.any_some, Bool.eq_iff_iff, decide_eq_true_eq,
      mem_indexedTargets_iff]

theorem forTarget_eq_filterMap (cache : Cache) (target : TargetName) :
    cache.forTarget target =
      (keysAt cache.index target).values.filterMap (cache.targetConstraint? target) := by
  rw [forTarget, keysAt]
  cases cache.index.get? target <;> rfl

theorem targetConstraint?_eq_bind (cache : Cache) (target : TargetName) (key : ConstraintKey) :
    cache.targetConstraint? target key =
      (cache.constraints.get? key).bind (cache.pairing? target) := by
  rw [targetConstraint?]
  cases cache.constraints.get? key with
  | none => rfl
  | some entry =>
    change Option.bind (cache.templates.get? _) _ = Option.bind (cache.templates.get? _) _
    congr 1
    funext compiled
    change (moduleAt? compiled target).bind _ = _
    rw [moduleAt?]
    cases compiled.artifact? target with
    | some artifact => rfl
    | none => cases compiled.failure? target <;> rfl

/-- The index of a well-formed cache gives what the constraints ask for. -/
theorem WellFormed.forTarget_eq (h : cache.WellFormed) (target : TargetName) :
    cache.forTarget target = cache.considered target := by
  rw [forTarget_eq_filterMap, h.indexed.keysAt_eq,
    SortedMap.values_filter cache.order fun key =>
      (cache.constraints.get? key).any (cache.applies target),
    considered, entries, List.filterMap_filter, List.filter_filterMap, List.filterMap_filterMap]
  congr 1
  funext key
  rw [targetConstraint?_eq_bind]
  cases cache.constraints.get? key with
  | none => rfl
  | some entry =>
    rw [Option.any_some, Option.filter_some]
    split <;> rfl

/-- A constraint that applies at a target has a module there or a reason why it has none. -/
theorem exists_pairing {entry : ConstraintEntry} (h : cache.applies target entry = true) :
    ∃ module, cache.pairing? target entry = some ⟨entry.constraint, module⟩ := by
  rw [applies, Bool.and_eq_true, Option.any_eq_true] at h
  obtain ⟨-, compiled, hcompiled, hdeclared⟩ := h
  rw [Bool.and_eq_true, List.contains_iff_mem, declaredTargets, List.mem_append] at hdeclared
  rw [pairing?, hcompiled]
  cases hartifact : compiled.artifact? target with
  | some artifact => exact ⟨.ok artifact.module, by simp [hartifact]⟩
  | none =>
    cases hfailure : compiled.failure? target with
    | some e => exact ⟨.error e, by simp [hartifact, hfailure]⟩
    | none =>
      rcases hdeclared.1 with hkey | hkey
      · obtain ⟨artifact, ha⟩ := SortedMap.mem_keys_iff.1 hkey
        rw [CompiledTemplate.artifact?, ha] at hartifact
        cases hartifact
      · exact absurd hkey (Assoc.get?_eq_none_iff_notMem.1 hfailure)

/-- Every constraint that applies is considered. -/
theorem map_constraint_considered (cache : Cache) (target : TargetName) :
    (cache.considered target).map (·.constraint) =
      (cache.entries.filter (cache.applies target)).map (·.constraint) := by
  have hall : ∀ entry ∈ cache.entries.filter (cache.applies target),
      cache.applies target entry = true := fun entry he => (List.mem_filter.1 he).2
  rw [considered]
  generalize cache.entries.filter (cache.applies target) = entries at hall
  induction entries with
  | nil => rfl
  | cons entry rest ih =>
    obtain ⟨module, hmodule⟩ := exists_pairing (hall entry List.mem_cons_self)
    rw [List.filterMap_cons_some hmodule, List.map_cons, List.map_cons,
      ih fun e he => hall e (List.mem_cons_of_mem _ he)]

end Considered

/-- **The index of targets is exact.** After any operations a review of a target considers, in the
order of first addition, exactly the constraints that are in force, whose template declares the
target and whose match specification applies there, each with the module of its template or with the
reason why there is none; and none of them is left out. -/
theorem forTarget_run (operations : List Operation) (target : TargetName) :
    (Cache.run {} operations).forTarget target = (Cache.run {} operations).considered target ∧
      ((Cache.run {} operations).forTarget target).map (·.constraint) =
        ((Cache.run {} operations).entries.filter
          ((Cache.run {} operations).applies target)).map (·.constraint) := by
  have h := ((WellFormed.empty 0 0).run operations).forTarget_eq target
  exact ⟨h, h ▸ map_constraint_considered _ target⟩

end PolicyEngine.Cache
