import PolicyEngine.Proofs.Cache.Considered
import PolicyEngine.Proofs.Cache.Entries

/-!
# Updates by their look-ups

What the updates of a cache do to the constraint of a key and to the next sequence number, read off
from what they do to the list of constraints. Order and index are no state of their own: two
well-formed caches with the same templates, constraints and next number are the same but for the
count of updates.

## Main results

* `PolicyEngine.Cache.WellFormed.constraint?_installTemplate`,
  `PolicyEngine.Cache.WellFormed.constraint?_removeTemplate`,
  `PolicyEngine.Cache.constraint?_putConstraint`,
  `PolicyEngine.Cache.WellFormed.constraint?_removeConstraint` — the constraint of a key after an
  update.
* `PolicyEngine.Cache.nextSeq_installTemplate`, `PolicyEngine.Cache.nextSeq_removeTemplate`,
  `PolicyEngine.Cache.nextSeq_putConstraint`, `PolicyEngine.Cache.nextSeq_removeConstraint`.
* `PolicyEngine.Cache.WellFormed.eq_of_lookups` — look-ups determine a cache.
-/

namespace PolicyEngine.Cache

variable {cache cache' : Cache} {key : ConstraintKey} {entry : ConstraintEntry}

/-! ### Constraints after an update -/

namespace Ordered

theorem constraint?_eq_some_iff (h : cache.Ordered) :
    cache.constraint? key = some entry ↔ entry ∈ cache.entries ∧ entry.constraint.key = key := by
  rw [constraint?, h.mem_entries_iff]
  constructor
  · intro hentry
    have hkey := h.key_eq hentry
    exact ⟨by rwa [hkey], hkey⟩
  · rintro ⟨hentry, rfl⟩
    exact hentry

/-- Where the constraints of the list change in their places, so does the constraint of a key. -/
theorem constraint?_of_entries_eq_map (h : cache.Ordered) (h' : cache'.Ordered)
    {f : ConstraintEntry → ConstraintEntry}
    (hkey : ∀ entry, (f entry).constraint.key = entry.constraint.key)
    (hentries : cache'.entries = cache.entries.map f) (key : ConstraintKey) :
    cache'.constraint? key = (cache.constraint? key).map f := by
  refine Option.ext fun entry => ?_
  rw [h'.constraint?_eq_some_iff, hentries, List.mem_map, Option.map_eq_some_iff]
  simp only [h.constraint?_eq_some_iff]
  constructor
  · rintro ⟨⟨old, hold, rfl⟩, hkeyed⟩
    exact ⟨old, ⟨hold, by rw [← hkey, hkeyed]⟩, rfl⟩
  · rintro ⟨old, ⟨hold, hkeyed⟩, rfl⟩
    exact ⟨⟨old, hold, rfl⟩, by rw [hkey, hkeyed]⟩

/-- Where constraints go from the list, the constraint of a key goes or stays. -/
theorem constraint?_of_entries_eq_filter (h : cache.Ordered) (h' : cache'.Ordered)
    {p : ConstraintEntry → Bool} (hentries : cache'.entries = cache.entries.filter p)
    (key : ConstraintKey) : cache'.constraint? key = (cache.constraint? key).filter p := by
  refine Option.ext fun entry => ?_
  rw [h'.constraint?_eq_some_iff, hentries, List.mem_filter, Option.filter_eq_some_iff,
    h.constraint?_eq_some_iff, and_right_comm]

end Ordered

theorem key_restate (status : ConstraintStatus) (p : ConstraintEntry → Bool)
    (entry : ConstraintEntry) : (restate status p entry).constraint.key = entry.constraint.key := by
  rw [restate]
  split <;> rfl

namespace WellFormed

theorem constraint?_installTemplate (h : cache.WellFormed) (compiled : CompiledTemplate)
    (key : ConstraintKey) : (cache.installTemplate compiled).1.constraint? key =
      (cache.constraint? key).map (restate .active (revives compiled)) :=
  h.ordered.constraint?_of_entries_eq_map (h.perform (.installTemplate compiled)).ordered
    (key_restate _ _) (h.ordered.entries_installTemplate compiled) key

theorem constraint?_removeTemplate (h : cache.WellFormed) (policy : OrphanPolicy)
    {kind : TemplateKind} {compiled : CompiledTemplate}
    (hcompiled : cache.template? kind = some compiled) (key : ConstraintKey) :
    (removeTemplate policy cache kind).1.constraint? key =
      match policy with
      | .cascade => (cache.constraint? key).filter fun e => e.constraint.kind ≠ kind
      | .retain =>
        (cache.constraint? key).map (restate .orphaned fun e => e.constraint.kind = kind) := by
  have h' := (h.perform (.removeTemplate policy kind)).ordered
  have hentries := h.ordered.entries_removeTemplate policy hcompiled
  cases policy with
  | cascade => exact h.ordered.constraint?_of_entries_eq_filter h' hentries key
  | retain => exact h.ordered.constraint?_of_entries_eq_map h' (key_restate _ _) hentries key

theorem constraint?_removeConstraint (h : cache.WellFormed) (key key' : ConstraintKey) :
    (cache.removeConstraint key).1.constraint? key' =
      (cache.constraint? key').filter fun e => e.constraint.key ≠ key :=
  h.ordered.constraint?_of_entries_eq_filter (h.perform (.removeConstraint key)).ordered
    (h.ordered.entries_removeConstraint key) key'

end WellFormed

/-- A constraint that is stored takes the number of the old one of its key, or else the next. -/
theorem constraint?_putConstraint (cache : Cache) (c : Constraint) (key : ConstraintKey) :
    (cache.putConstraint c).constraint? key =
      if key = c.key then
        some { constraint := c, seq := ((cache.constraint? c.key).map (·.seq)).getD cache.nextSeq }
      else cache.constraint? key := by
  rw [constraint?, putConstraint, constraint?]
  split <;> rename_i hentry <;>
    rw [constraints_reindex, SortedMap.get?_insert, hentry] <;> rfl

/-! ### The next number after an update -/

theorem nextSeq_setStatus (cache : Cache) (status : ConstraintStatus) (key : ConstraintKey) :
    (cache.setStatus status key).nextSeq = cache.nextSeq := by
  rw [setStatus]
  split
  · rfl
  · rw [nextSeq_reindex]

theorem nextSeq_eraseConstraint (cache : Cache) (key : ConstraintKey) :
    (cache.eraseConstraint key).nextSeq = cache.nextSeq := by
  rw [eraseConstraint]
  split <;> rfl

theorem nextSeq_foldl (cache : Cache) (change : Cache → ConstraintKey → Cache)
    (hchange : ∀ (cache : Cache) (key : ConstraintKey),
      (change cache key).nextSeq = cache.nextSeq) (keys : List ConstraintKey) :
    (keys.foldl change cache).nextSeq = cache.nextSeq := by
  induction keys generalizing cache with
  | nil => rfl
  | cons key rest ih => rw [List.foldl_cons, ih, hchange]

theorem nextSeq_installTemplate (cache : Cache) (compiled : CompiledTemplate) :
    (cache.installTemplate compiled).1.nextSeq = cache.nextSeq := by
  have hrevive := nextSeq_foldl cache (fun c k => c.setStatus .active k)
    (fun c k => nextSeq_setStatus c .active k) (cache.revivable compiled)
  change ((_ : Cache).insertTemplate compiled).nextSeq = _
  rw [insertTemplate, nextSeq_reindexKind, hrevive]

theorem nextSeq_removeTemplate (cache : Cache) (policy : OrphanPolicy) (kind : TemplateKind) :
    (removeTemplate policy cache kind).1.nextSeq = cache.nextSeq := by
  have horphan : ∀ (cache : Cache) (key : ConstraintKey),
      (orphan policy cache key).nextSeq = cache.nextSeq := by
    intro cache key
    cases policy with
    | cascade => exact nextSeq_eraseConstraint cache key
    | retain => exact nextSeq_setStatus cache .orphaned key
  rw [removeTemplate]
  split
  · change (((cache.eraseTemplate kind).keysOf kind).foldl (orphan policy) _).nextSeq = _
    rw [nextSeq_foldl _ _ horphan, eraseTemplate, nextSeq_reindexKind]
  · rfl

theorem nextSeq_putConstraint (cache : Cache) (c : Constraint) :
    (cache.putConstraint c).nextSeq =
      if (cache.constraint? c.key).isSome then cache.nextSeq else cache.nextSeq + 1 := by
  rw [putConstraint, constraint?]
  split <;> rename_i hentry <;> rw [nextSeq_reindex, hentry] <;> rfl

theorem nextSeq_removeConstraint (cache : Cache) (key : ConstraintKey) :
    (cache.removeConstraint key).1.nextSeq = cache.nextSeq :=
  nextSeq_eraseConstraint cache key

/-! ### Caches with the same look-ups -/

/-- The constraints determine the order. -/
theorem Ordered.order_eq (h : cache.Ordered) (h' : cache'.Ordered)
    (hconstraints : cache'.constraints = cache.constraints) : cache'.order = cache.order := by
  refine SortedMap.ext_get? fun seq => Option.ext fun key => ?_
  rw [h'.order_iff, h.order_iff, hconstraints]

/-- An index without empty targets is determined by what it holds for each. -/
theorem index_eq_of_keysAt {index index' : SortedMap TargetName (SortedMap Nat ConstraintKey)}
    (h : NoneEmpty index) (h' : NoneEmpty index')
    (hkeys : ∀ target, keysAt index' target = keysAt index target) : index' = index := by
  have hempty : ∀ {index : SortedMap TargetName (SortedMap Nat ConstraintKey)}, NoneEmpty index →
      ∀ target keys, index.get? target = some keys ↔
        keysAt index target = keys ∧ keys.isEmpty = false := by
    intro index h target keys
    rw [keysAt]
    cases hget : index.get? target with
    | none =>
      refine iff_of_false (fun hnone => by cases hnone) ?_
      rintro ⟨rfl, hnonempty⟩
      cases hnonempty
    | some found =>
      refine ⟨fun hfound => ⟨Option.some.inj hfound, ?_⟩, fun hfound => congrArg some hfound.1⟩
      rw [← Option.some.inj hfound]
      exact h hget
  refine SortedMap.ext_get? fun target => Option.ext fun keys => ?_
  rw [hempty h, hempty h', hkeys]

/-- Templates, constraints and order determine the index. -/
theorem Indexed.index_eq (h : cache.Indexed) (h' : cache'.Indexed)
    (htemplates : cache'.templates = cache.templates)
    (hconstraints : cache'.constraints = cache.constraints)
    (horder : cache'.order = cache.order) : cache'.index = cache.index := by
  refine index_eq_of_keysAt h.nonempty h'.nonempty fun target => ?_
  refine SortedMap.ext_get? fun seq => ?_
  rw [h.get?_keysAt, h'.get?_keysAt]
  refine due_congr (by rw [horder]) fun key _ => ⟨by rw [hconstraints], fun entry _ => ?_⟩
  rw [htemplates]

/-- Well-formed caches with the same templates, the same constraints and the same next number are
the same but for the count of updates. -/
theorem WellFormed.eq_of_lookups (h : cache.WellFormed) (h' : cache'.WellFormed)
    (htemplates : ∀ kind, cache'.template? kind = cache.template? kind)
    (hconstraints : ∀ key, cache'.constraint? key = cache.constraint? key)
    (hnext : cache'.nextSeq = cache.nextSeq) :
    cache' = { cache with generation := cache'.generation } := by
  have htemplates : cache'.templates = cache.templates := SortedMap.ext_get? htemplates
  have hconstraints : cache'.constraints = cache.constraints := SortedMap.ext_get? hconstraints
  have horder := h.ordered.order_eq h'.ordered hconstraints
  have hindex := h.indexed.index_eq h'.indexed htemplates hconstraints horder
  rw [← htemplates, ← hconstraints, ← horder, ← hindex, ← hnext]

end PolicyEngine.Cache
