import PolicyEngine.Cache.Operation
import PolicyEngine.Proofs.SortedMap

/-!
# The order of first addition

A cache keeps its constraints under their keys, and beside them the keys by sequence number. The two
maps name each other: the key under a number is that of the one constraint with this number. Every
update keeps this, and the numbers in use stay below the next one.

## Main definitions

* `PolicyEngine.Cache.Ordered` — the keys by number and the constraints by key fit together.

## Main results

* `PolicyEngine.Cache.Ordered.setStatus`, `PolicyEngine.Cache.Ordered.putConstraint`,
  `PolicyEngine.Cache.Ordered.eraseConstraint` — the single changes keep the order.
* `PolicyEngine.Cache.Ordered.nodup_order` — no key has two numbers.
-/

namespace PolicyEngine.Cache

/-! ### What reindexing leaves alone -/

section Frame

variable (cache : Cache)

@[simp]
theorem constraints_unindex (seq : Nat) : (cache.unindex seq).constraints = cache.constraints := rfl

@[simp]
theorem order_unindex (seq : Nat) : (cache.unindex seq).order = cache.order := rfl

/-- Reindexing a constraint changes nothing but the index. -/
theorem exists_index_reindex (key : ConstraintKey) :
    ∃ index, cache.reindex key = { cache with index } := by
  rw [reindex]
  split
  · exact ⟨cache.index, rfl⟩
  · exact ⟨_, rfl⟩

/-- Reindexing constraints changes nothing but the index. -/
theorem exists_index_foldl_reindex (keys : List ConstraintKey) :
    ∃ index, keys.foldl reindex cache = { cache with index } := by
  induction keys generalizing cache with
  | nil => exact ⟨cache.index, rfl⟩
  | cons key rest ih =>
    obtain ⟨first, hfirst⟩ := cache.exists_index_reindex key
    obtain ⟨last, hlast⟩ := ih (cache.reindex key)
    exact ⟨last, by rw [List.foldl_cons, hlast, hfirst]⟩

variable (key : ConstraintKey) (kind : TemplateKind)

@[simp]
theorem templates_reindex : (cache.reindex key).templates = cache.templates := by
  obtain ⟨index, h⟩ := cache.exists_index_reindex key
  rw [h]

@[simp]
theorem constraints_reindex : (cache.reindex key).constraints = cache.constraints := by
  obtain ⟨index, h⟩ := cache.exists_index_reindex key
  rw [h]

@[simp]
theorem order_reindex : (cache.reindex key).order = cache.order := by
  obtain ⟨index, h⟩ := cache.exists_index_reindex key
  rw [h]

@[simp]
theorem nextSeq_reindex : (cache.reindex key).nextSeq = cache.nextSeq := by
  obtain ⟨index, h⟩ := cache.exists_index_reindex key
  rw [h]

@[simp]
theorem templates_reindexKind : (cache.reindexKind kind).templates = cache.templates := by
  obtain ⟨index, h⟩ := cache.exists_index_foldl_reindex (cache.keysOf kind)
  rw [reindexKind, h]

@[simp]
theorem constraints_reindexKind : (cache.reindexKind kind).constraints = cache.constraints := by
  obtain ⟨index, h⟩ := cache.exists_index_foldl_reindex (cache.keysOf kind)
  rw [reindexKind, h]

@[simp]
theorem order_reindexKind : (cache.reindexKind kind).order = cache.order := by
  obtain ⟨index, h⟩ := cache.exists_index_foldl_reindex (cache.keysOf kind)
  rw [reindexKind, h]

@[simp]
theorem nextSeq_reindexKind : (cache.reindexKind kind).nextSeq = cache.nextSeq := by
  obtain ⟨index, h⟩ := cache.exists_index_foldl_reindex (cache.keysOf kind)
  rw [reindexKind, h]

@[simp]
theorem templates_setStatus (status : ConstraintStatus) :
    (cache.setStatus status key).templates = cache.templates := by
  rw [setStatus]
  split
  · rfl
  · rw [templates_reindex]

@[simp]
theorem templates_putConstraint (c : Constraint) :
    (cache.putConstraint c).templates = cache.templates := by
  rw [putConstraint]
  split <;> rw [templates_reindex]

@[simp]
theorem templates_eraseConstraint : (cache.eraseConstraint key).templates = cache.templates := by
  rw [eraseConstraint]
  split <;> rfl

/-! ### What updates do to templates -/

theorem templates_foldl (change : Cache → ConstraintKey → Cache)
    (hchange : ∀ (cache : Cache) (key : ConstraintKey),
      (change cache key).templates = cache.templates) (keys : List ConstraintKey) :
    (keys.foldl change cache).templates = cache.templates := by
  induction keys generalizing cache with
  | nil => rfl
  | cons key rest ih => rw [List.foldl_cons, ih, hchange]

theorem templates_orphan (policy : OrphanPolicy) :
    (orphan policy cache key).templates = cache.templates := by
  cases policy with
  | cascade => exact templates_eraseConstraint cache key
  | retain => exact templates_setStatus cache key .orphaned

theorem templates_installTemplate (compiled : CompiledTemplate) :
    (cache.installTemplate compiled).1.templates =
      cache.templates.insert compiled.kind compiled := by
  have hrevive := templates_foldl cache (fun c k => c.setStatus .active k)
    (fun c k => templates_setStatus c k .active) (cache.revivable compiled)
  change ((_ : Cache).insertTemplate compiled).templates = _
  rw [insertTemplate, templates_reindexKind, hrevive]

theorem templates_removeTemplate (policy : OrphanPolicy) :
    (removeTemplate policy cache kind).1.templates = cache.templates.erase kind := by
  rw [removeTemplate]
  split
  · change (((cache.eraseTemplate kind).keysOf kind).foldl (orphan policy) _).templates = _
    rw [templates_foldl _ (orphan policy) (fun c k => templates_orphan c k policy), eraseTemplate,
      templates_reindexKind]
  · rename_i habsent
    refine SortedMap.ext_get? fun k => ?_
    change cache.templates.get? k = _
    rw [SortedMap.get?_erase]
    split
    · rename_i hk
      rw [hk]
      simpa [SortedMap.contains] using habsent
    · rfl

theorem templates_upsertConstraint (c : Constraint) :
    (cache.upsertConstraint c).1.templates = cache.templates := by
  rw [upsertConstraint]
  split
  · rfl
  · exact templates_putConstraint cache c

theorem templates_removeConstraint :
    (cache.removeConstraint key).1.templates = cache.templates :=
  templates_eraseConstraint cache key

theorem template?_installTemplate (compiled : CompiledTemplate) :
    (cache.installTemplate compiled).1.template? kind =
      if kind = compiled.kind then some compiled else cache.template? kind := by
  rw [template?, templates_installTemplate, SortedMap.get?_insert, template?]

theorem template?_removeTemplate (policy : OrphanPolicy) (k : TemplateKind) :
    (removeTemplate policy cache kind).1.template? k =
      if k = kind then none else cache.template? k := by
  rw [template?, templates_removeTemplate, SortedMap.get?_erase, template?]

theorem template?_upsertConstraint (c : Constraint) :
    (cache.upsertConstraint c).1.template? kind = cache.template? kind := by
  rw [template?, templates_upsertConstraint, template?]

theorem template?_removeConstraint :
    (cache.removeConstraint key).1.template? kind = cache.template? kind := by
  rw [template?, templates_removeConstraint, template?]

end Frame

/-- Without a template of a kind there is nothing to remove. -/
theorem removeTemplate_of_template?_eq_none {cache : Cache} {kind : TemplateKind}
    (h : cache.template? kind = none) (policy : OrphanPolicy) :
    removeTemplate policy cache kind = (cache.bump, .notFound) := by
  have hcontains : ¬cache.templates.contains kind = true := by
    rw [SortedMap.contains_iff]
    rintro ⟨compiled, hcompiled⟩
    rw [template?, hcompiled] at h
    cases h
  rw [removeTemplate, if_neg hcontains]

/-! ### Keys and numbers -/

/-- The constraints by key and the keys by sequence number name each other. -/
structure Ordered (cache : Cache) : Prop where
  /-- A constraint is kept under its own key. -/
  key_eq : ∀ {key entry}, cache.constraints.get? key = some entry → entry.constraint.key = key
  /-- The key under a number is that of the constraint with this number. -/
  order_iff : ∀ {seq key}, cache.order.get? seq = some key ↔
    ∃ entry, cache.constraints.get? key = some entry ∧ entry.seq = seq
  /-- The next number is larger than all that are in use. -/
  seq_lt : ∀ {key entry}, cache.constraints.get? key = some entry → entry.seq < cache.nextSeq

namespace Ordered

variable {cache : Cache}

/-- Without constraints there is nothing to order, whatever number comes next. -/
theorem empty (nextSeq generation : Nat) : Ordered { nextSeq, generation } where
  key_eq h := by cases h
  order_iff := by
    intro seq key
    constructor
    · intro h
      cases h
    · rintro ⟨entry, h, -⟩
      cases h
  seq_lt h := by cases h

theorem get?_order (h : cache.Ordered) {key : ConstraintKey} {entry : ConstraintEntry}
    (hentry : cache.constraints.get? key = some entry) : cache.order.get? entry.seq = some key :=
  h.order_iff.2 ⟨entry, hentry, rfl⟩

/-- A constraint is of the kind that its key names. -/
theorem kind_eq (h : cache.Ordered) {key : ConstraintKey} {entry : ConstraintEntry}
    (hentry : cache.constraints.get? key = some entry) : entry.constraint.kind = key.kind := by
  rw [← h.key_eq hentry]
  rfl

/-- Two constraints with the same number have the same key. -/
theorem key_unique (h : cache.Ordered) {key key' : ConstraintKey} {entry entry' : ConstraintEntry}
    (hentry : cache.constraints.get? key = some entry)
    (hentry' : cache.constraints.get? key' = some entry') (hseq : entry.seq = entry'.seq) :
    key = key' := by
  have hkey := h.get?_order hentry
  rw [hseq, h.get?_order hentry'] at hkey
  exact (Option.some.inj hkey).symm

/-- No key has two numbers. -/
theorem nodup_order (h : cache.Ordered) : cache.order.values.Nodup := by
  refine SortedMap.nodup_values fun {seq seq' key} hseq hseq' => ?_
  obtain ⟨entry, hentry, rfl⟩ := h.order_iff.1 hseq
  obtain ⟨entry', hentry', rfl⟩ := h.order_iff.1 hseq'
  rw [hentry] at hentry'
  rw [Option.some.inj hentry']

/-- No two constraints have the same key. -/
theorem nodup_keys (h : cache.Ordered) :
    (cache.entries.map (·.constraint.key)).Nodup := by
  have hkeys : (cache.order.values.filterMap fun key =>
      (cache.constraints.get? key).map (·.constraint.key)).Sublist cache.order.values := by
    generalize cache.order.values = keys
    induction keys with
    | nil => exact List.Sublist.refl _
    | cons key rest ih =>
      cases hentry : cache.constraints.get? key with
      | none =>
        rw [List.filterMap_cons_none (by rw [hentry]; rfl)]
        exact ih.cons key
      | some entry =>
        have hkey : (cache.constraints.get? key).map (·.constraint.key) = some key := by
          rw [hentry, Option.map_some, h.key_eq hentry]
        simp only [List.filterMap_cons, hkey]
        exact ih.cons_cons key
  rw [entries, List.map_filterMap]
  exact h.nodup_order.sublist hkeys

/-- What is ordered stays so as long as only templates, index and generation change. -/
theorem congr (h : cache.Ordered) {cache' : Cache} (hc : cache'.constraints = cache.constraints)
    (ho : cache'.order = cache.order) (hn : cache'.nextSeq = cache.nextSeq) : cache'.Ordered where
  key_eq := by
    rw [hc]
    exact h.key_eq
  order_iff := by
    rw [hc, ho]
    exact h.order_iff
  seq_lt := by
    rw [hc, hn]
    exact h.seq_lt

/-! ### Single changes -/

/-- A constraint gives way to one of the same key and number. -/
theorem replace (h : cache.Ordered) {key : ConstraintKey} {old : ConstraintEntry}
    (new : ConstraintEntry) (hold : cache.constraints.get? key = some old)
    (hkey : new.constraint.key = key) (hseq : new.seq = old.seq) :
    Ordered { cache with constraints := cache.constraints.insert key new } where
  key_eq := by
    intro k entry hentry
    rcases SortedMap.get?_insert_eq_some_iff.1 hentry with ⟨rfl, rfl⟩ | ⟨-, hentry⟩
    · exact hkey
    · exact h.key_eq hentry
  order_iff := by
    intro seq k
    rw [h.order_iff]
    by_cases hk : k = key
    · subst hk
      simp [hold, hseq]
    · simp [hk]
  seq_lt := by
    intro k entry hentry
    rcases SortedMap.get?_insert_eq_some_iff.1 hentry with ⟨rfl, rfl⟩ | ⟨-, hentry⟩
    · rw [hseq]
      exact h.seq_lt hold
    · exact h.seq_lt hentry

theorem setStatus (h : cache.Ordered) (status : ConstraintStatus) (key : ConstraintKey) :
    (cache.setStatus status key).Ordered := by
  rw [Cache.setStatus]
  split
  · exact h
  · rename_i entry hentry
    have hkey := h.key_eq hentry
    have hput := h.replace { entry with status } hentry hkey rfl
    exact hput.congr (constraints_reindex _ _) (order_reindex _ _) (nextSeq_reindex _ _)

/-- A constraint with a new key takes the next number. -/
theorem append (h : cache.Ordered) {c : Constraint} (hnew : cache.constraints.get? c.key = none) :
    Ordered { cache with
      constraints := cache.constraints.insert c.key { constraint := c, seq := cache.nextSeq }
      order := cache.order.insert cache.nextSeq c.key
      nextSeq := cache.nextSeq + 1 } where
  key_eq := by
    intro k entry hentry
    rcases SortedMap.get?_insert_eq_some_iff.1 hentry with ⟨rfl, rfl⟩ | ⟨-, hentry⟩
    · rfl
    · exact h.key_eq hentry
  order_iff := by
    intro seq k
    simp only [SortedMap.get?_insert_eq_some_iff, h.order_iff]
    constructor
    · rintro (⟨rfl, rfl⟩ | ⟨-, entry, hentry, rfl⟩)
      · exact ⟨_, .inl ⟨rfl, rfl⟩, rfl⟩
      · refine ⟨entry, .inr ⟨?_, hentry⟩, rfl⟩
        rintro rfl
        rw [hnew] at hentry
        cases hentry
    · rintro ⟨entry, ⟨rfl, rfl⟩ | ⟨-, hentry⟩, rfl⟩
      · exact .inl ⟨rfl, rfl⟩
      · exact .inr ⟨Nat.ne_of_lt (h.seq_lt hentry), entry, hentry, rfl⟩
  seq_lt := by
    intro k entry hentry
    rcases SortedMap.get?_insert_eq_some_iff.1 hentry with ⟨rfl, rfl⟩ | ⟨-, hentry⟩
    · exact Nat.lt_succ_self _
    · exact Nat.lt_succ_of_lt (h.seq_lt hentry)

theorem putConstraint (h : cache.Ordered) (c : Constraint) : (cache.putConstraint c).Ordered := by
  rw [Cache.putConstraint]
  split
  · rename_i entry hentry
    have hput := h.replace { entry with constraint := c, status := .active } hentry rfl rfl
    exact hput.congr (constraints_reindex _ _) (order_reindex _ _) (nextSeq_reindex _ _)
  · rename_i hnew
    exact (h.append hnew).congr (constraints_reindex _ _) (order_reindex _ _)
      (nextSeq_reindex _ _)

theorem eraseConstraint (h : cache.Ordered) (key : ConstraintKey) :
    (cache.eraseConstraint key).Ordered := by
  rw [Cache.eraseConstraint]
  split
  · exact h
  · rename_i entry hentry
    refine ⟨fun {k e} he => ?_, fun {seq k} => ?_, fun {k e} he => ?_⟩
    · rw [constraints_unindex] at he
      exact h.key_eq (SortedMap.get?_erase_eq_some_iff.1 he).2
    · rw [constraints_unindex, order_unindex]
      simp only [SortedMap.get?_erase_eq_some_iff, h.order_iff]
      constructor
      · rintro ⟨hseq, e, he, rfl⟩
        refine ⟨e, ⟨?_, he⟩, rfl⟩
        rintro rfl
        rw [Option.some.inj (he.symm.trans hentry)] at hseq
        exact hseq rfl
      · rintro ⟨e, ⟨hk, he⟩, rfl⟩
        exact ⟨fun hseq => hk (h.key_unique he hentry hseq), e, he, rfl⟩
    · rw [constraints_unindex] at he
      exact h.seq_lt (SortedMap.get?_erase_eq_some_iff.1 he).2

end Ordered

end PolicyEngine.Cache
