import PolicyEngine.Proofs.Cache.Order

/-!
# The list of constraints

A cache lists its constraints in the order of first addition. The list has exactly the constraints
that look-ups find, by increasing sequence number, and this determines it. So what an update does to
the list can be read off from what it does to look-ups: a change of a constraint in its place is a
change of one element, a new constraint goes to the end, and a removal leaves the others in their
order.

## Main definitions

* `PolicyEngine.Cache.restate` — give the constraints of some keys a status.
* `PolicyEngine.Cache.revives` — whether an installed template brings a constraint back.

## Main results

* `PolicyEngine.Cache.Ordered.mem_entries_iff`, `PolicyEngine.Cache.Ordered.entries_eq` — the list
  and the look-ups determine each other.
* `PolicyEngine.Cache.Ordered.entries_installTemplate`,
  `PolicyEngine.Cache.Ordered.entries_removeTemplate`,
  `PolicyEngine.Cache.Ordered.entries_putConstraint_of_some`,
  `PolicyEngine.Cache.Ordered.entries_putConstraint_of_none`,
  `PolicyEngine.Cache.Ordered.entries_removeConstraint` — what updates do to the list.
-/

namespace PolicyEngine.Cache

variable {cache cache' : Cache} {key : ConstraintKey} {entry : ConstraintEntry}

/-! ### List and look-ups -/

theorem entries_congr (ho : cache'.order = cache.order)
    (hc : cache'.constraints = cache.constraints) : cache'.entries = cache.entries := by
  rw [entries, entries, ho, hc]

/-- Constraints that change in their places change in the list. -/
theorem entries_eq_map {f : ConstraintEntry → ConstraintEntry} (ho : cache'.order = cache.order)
    (hc : ∀ key, cache'.constraints.get? key = (cache.constraints.get? key).map f) :
    cache'.entries = cache.entries.map f := by
  rw [entries, entries, ho, List.map_filterMap]
  congr 1
  funext key
  exact hc key

namespace Ordered

/-- The list has exactly the constraints that look-ups find. -/
theorem mem_entries_iff (h : cache.Ordered) :
    entry ∈ cache.entries ↔ cache.constraints.get? entry.constraint.key = some entry := by
  rw [entries, List.mem_filterMap]
  constructor
  · rintro ⟨key, -, hentry⟩
    rwa [h.key_eq hentry]
  · intro hentry
    exact ⟨_, SortedMap.mem_values_iff.2 ⟨entry.seq, h.get?_order hentry⟩, hentry⟩

theorem mem_entries_of_get? (h : cache.Ordered)
    (hentry : cache.constraints.get? key = some entry) : entry ∈ cache.entries := by
  rwa [h.mem_entries_iff, h.key_eq hentry]

/-- A key names one constraint of the list. -/
theorem eq_of_mem_entries (h : cache.Ordered) {entry' : ConstraintEntry}
    (hentry : entry ∈ cache.entries) (hentry' : entry' ∈ cache.entries)
    (hkey : entry.constraint.key = entry'.constraint.key) : entry = entry' := by
  rw [h.mem_entries_iff, hkey, h.mem_entries_iff.1 hentry'] at hentry
  exact (Option.some.inj hentry).symm

/-- The sequence numbers of the list increase. -/
theorem pairwise_seq (h : cache.Ordered) : cache.entries.Pairwise fun a b => a.seq < b.seq := by
  rw [entries, SortedMap.values, List.filterMap_map, List.pairwise_filterMap]
  refine cache.order.sorted.imp_of_mem fun {a b} ha hb hlt entry hentry entry' hentry' => ?_
  have hseq : ∀ {e : Nat × ConstraintKey} {entry : ConstraintEntry}, e ∈ cache.order.entries →
      cache.constraints.get? e.2 = some entry → entry.seq = e.1 := by
    intro e entry he hentry
    obtain ⟨found, hfound, hseq⟩ := h.order_iff.1 (SortedMap.mem_entries_iff.1 he)
    rw [hentry] at hfound
    rwa [Option.some.inj hfound]
  rw [hseq ha hentry, hseq hb hentry']
  exact Nat.compare_eq_lt.1 hlt

theorem nodup_entries (h : cache.Ordered) : cache.entries.Nodup :=
  h.pairwise_seq.imp fun hlt heq => by
    rw [heq] at hlt
    exact Nat.lt_irrefl _ hlt

/-- Searching the list for a key gives what the look-up gives. -/
theorem find?_entries (h : cache.Ordered) (key : ConstraintKey) :
    cache.entries.find? (·.constraint.key = key) = cache.constraints.get? key := by
  cases hfind : cache.entries.find? (·.constraint.key = key) with
  | some found =>
    have hkey : found.constraint.key = key := by simpa using List.find?_some hfind
    rw [← hkey, h.mem_entries_iff.1 (List.mem_of_find?_eq_some hfind)]
  | none =>
    cases hentry : cache.constraints.get? key with
    | none => rfl
    | some entry =>
      have hne := List.find?_eq_none.1 hfind entry (h.mem_entries_of_get? hentry)
      exact absurd (decide_eq_true (h.key_eq hentry)) hne

/-- The list is the only one that has these constraints by increasing sequence number. -/
theorem entries_eq (h : cache.Ordered) {l : List ConstraintEntry}
    (hl : l.Pairwise fun a b => a.seq < b.seq)
    (hmem : ∀ entry, entry ∈ l ↔ cache.constraints.get? entry.constraint.key = some entry) :
    cache.entries = l := by
  have hnodup : l.Nodup := hl.imp fun hlt heq => by
    rw [heq] at hlt
    exact Nat.lt_irrefl _ hlt
  have hperm : cache.entries.Perm l :=
    (List.perm_ext_iff_of_nodup h.nodup_entries hnodup).2 fun entry => by
      rw [h.mem_entries_iff, hmem]
  refine List.Perm.eq_of_pairwise (fun a b _ _ hab hba => ?_) h.pairwise_seq hl hperm
  exact absurd hba (Nat.lt_asymm hab)

/-- The values under the keys are the constraints of the list. -/
theorem perm_entries (h : cache.Ordered) : cache.constraints.values.Perm cache.entries := by
  have hvalues : cache.constraints.values.Nodup := by
    refine SortedMap.nodup_values fun {k k' entry} hk hk' => ?_
    rw [← h.key_eq hk, h.key_eq hk']
  refine (List.perm_ext_iff_of_nodup hvalues h.nodup_entries).2 fun entry => ?_
  rw [SortedMap.mem_values_iff, h.mem_entries_iff]
  constructor
  · rintro ⟨key, hentry⟩
    rwa [h.key_eq hentry]
  · intro hentry
    exact ⟨_, hentry⟩

/-! ### Single changes -/

/-- A constraint that gives way to one of the same key and number changes in its place. -/
theorem get?_insert_eq_map (h : cache.Ordered) {f : ConstraintEntry → ConstraintEntry}
    (hentry : cache.constraints.get? key = some entry) (k : ConstraintKey) :
    (cache.constraints.insert key (f entry)).get? k =
      (cache.constraints.get? k).map fun e => if e.constraint.key = key then f e else e := by
  rw [SortedMap.get?_insert]
  by_cases hk : k = key
  · rw [if_pos hk, hk, hentry, Option.map_some, if_pos (h.key_eq hentry)]
  · rw [if_neg hk]
    cases hother : cache.constraints.get? k with
    | none => rfl
    | some other =>
      have hne : other.constraint.key ≠ key := by rwa [h.key_eq hother]
      rw [Option.map_some, if_neg hne]

/-- Without a constraint of a key the list has none either. -/
theorem key_ne_of_get?_eq_none (h : cache.Ordered) (hnone : cache.constraints.get? key = none) :
    ∀ entry ∈ cache.entries, entry.constraint.key ≠ key := by
  rintro entry hentry rfl
  rw [h.mem_entries_iff, hnone] at hentry
  cases hentry

end Ordered

/-! ### Statuses -/

/-- A constraint with a given status, if it satisfies a test. -/
def restate (status : ConstraintStatus) (p : ConstraintEntry → Bool) (entry : ConstraintEntry) :
    ConstraintEntry :=
  if p entry then { entry with status } else entry

section Restate

variable {status : ConstraintStatus} {p q : ConstraintEntry → Bool}

theorem map_restate_congr {l : List ConstraintEntry} (h : ∀ entry ∈ l, p entry = q entry) :
    l.map (restate status p) = l.map (restate status q) :=
  List.map_congr_left fun entry hentry => by rw [restate, restate, h entry hentry]

theorem map_restate_false (status : ConstraintStatus) (l : List ConstraintEntry) :
    l.map (restate status fun _ => false) = l :=
  List.map_id l

end Restate

/-- Whether an orphan comes back when a template is installed: it is of the template's kind and
satisfies its schema. -/
def revives (compiled : CompiledTemplate) (entry : ConstraintEntry) : Bool :=
  entry.constraint.kind = compiled.kind && !entry.isActive &&
    (compiled.schema.validate entry.constraint).toBool

namespace Ordered

theorem entries_setStatus (h : cache.Ordered) (status : ConstraintStatus) (key : ConstraintKey) :
    (cache.setStatus status key).entries =
      cache.entries.map (restate status fun e => e.constraint.key = key) := by
  rw [Cache.setStatus]
  split
  · rename_i hnone
    have hother : cache.entries.map (restate status fun e => e.constraint.key = key) =
        cache.entries.map (restate status fun _ => false) :=
      map_restate_congr fun entry hentry =>
        decide_eq_false (h.key_ne_of_get?_eq_none hnone entry hentry)
    rw [hother, map_restate_false]
  · rename_i entry hentry
    refine (entries_congr (order_reindex _ _) (constraints_reindex _ _)).trans ?_
    refine entries_eq_map rfl fun k => ?_
    rw [h.get?_insert_eq_map (f := fun e => { e with status }) hentry]
    refine congrArg (Option.map · _) (funext fun e => ?_)
    rw [restate]
    split <;> simp_all

/-- Setting the status of several constraints, one after another. -/
theorem entries_foldl_setStatus (h : cache.Ordered) (status : ConstraintStatus)
    (keys : List ConstraintKey) :
    (keys.foldl (fun c key => c.setStatus status key) cache).entries =
      cache.entries.map (restate status fun e => e.constraint.key ∈ keys) := by
  induction keys generalizing cache with
  | nil =>
    have hnone : cache.entries.map (restate status fun e => e.constraint.key ∈ []) =
        cache.entries.map (restate status fun _ => false) :=
      map_restate_congr fun _ _ => decide_eq_false List.not_mem_nil
    rw [List.foldl_nil, hnone, map_restate_false]
  | cons key rest ih =>
    rw [List.foldl_cons, ih (h.setStatus status key), h.entries_setStatus, List.map_map]
    refine List.map_congr_left fun entry _ => ?_
    rw [Function.comp_apply]
    by_cases hkey : entry.constraint.key = key <;>
      by_cases hrest : entry.constraint.key ∈ rest <;> simp [restate, hkey, hrest]

/-! ### Removals -/

theorem entries_eraseConstraint (h : cache.Ordered) (key : ConstraintKey) :
    (cache.eraseConstraint key).entries =
      cache.entries.filter fun e => e.constraint.key ≠ key := by
  refine (h.eraseConstraint key).entries_eq (h.pairwise_seq.filter _) fun entry => ?_
  have hget : (cache.eraseConstraint key).constraints = cache.constraints.erase key := by
    rw [Cache.eraseConstraint]
    split
    · rename_i hnone
      refine SortedMap.ext_get? fun k => ?_
      rw [SortedMap.get?_erase]
      split
      · rename_i hk
        rw [hk, hnone]
      · rfl
    · rw [constraints_unindex]
  rw [List.mem_filter, h.mem_entries_iff, hget, SortedMap.get?_erase_eq_some_iff,
    decide_eq_true_eq, and_comm]

/-- Removing several constraints, one after another. -/
theorem entries_foldl_eraseConstraint (h : cache.Ordered) (keys : List ConstraintKey) :
    (keys.foldl Cache.eraseConstraint cache).entries =
      cache.entries.filter fun e => e.constraint.key ∉ keys := by
  induction keys generalizing cache with
  | nil => exact (List.filter_eq_self.2 fun _ _ => by simp).symm
  | cons key rest ih =>
    rw [List.foldl_cons, ih (h.eraseConstraint key), h.entries_eraseConstraint,
      List.filter_filter]
    refine List.filter_congr fun entry _ => ?_
    simp [Bool.and_comm]

/-! ### Additions -/

/-- A constraint of a key that the cache has takes the place of the old one. -/
theorem entries_putConstraint_of_some (h : cache.Ordered) {c : Constraint}
    (hentry : cache.constraints.get? c.key = some entry) :
    (cache.putConstraint c).entries = cache.entries.map fun e =>
      if e.constraint.key = c.key then { e with constraint := c, status := .active } else e := by
  rw [Cache.putConstraint, hentry]
  refine (entries_congr (order_reindex _ _) (constraints_reindex _ _)).trans ?_
  exact entries_eq_map rfl
    (h.get?_insert_eq_map (f := fun e => { e with constraint := c, status := .active }) hentry)

/-- A constraint of a new key goes to the end. -/
theorem entries_putConstraint_of_none (h : cache.Ordered) {c : Constraint}
    (hnone : cache.constraints.get? c.key = none) :
    (cache.putConstraint c).entries =
      cache.entries ++ [{ constraint := c, seq := cache.nextSeq }] := by
  refine (h.putConstraint c).entries_eq ?_ fun entry => ?_
  · refine List.pairwise_append.2 ⟨h.pairwise_seq, List.pairwise_singleton _ _, ?_⟩
    intro a ha b hb
    rw [List.mem_singleton.1 hb]
    exact h.seq_lt (h.mem_entries_iff.1 ha)
  · rw [Cache.putConstraint, hnone, constraints_reindex, SortedMap.get?_insert_eq_some_iff,
      List.mem_append, List.mem_singleton, h.mem_entries_iff]
    constructor
    · rintro (hold | rfl)
      · refine .inr ⟨?_, hold⟩
        intro hkey
        rw [hkey, hnone] at hold
        cases hold
      · exact .inl ⟨rfl, rfl⟩
    · rintro (⟨-, rfl⟩ | ⟨-, hold⟩)
      · exact .inr rfl
      · exact .inl hold

/-! ### Templates -/

theorem mem_keysOf_iff (h : cache.Ordered) (hentry : entry ∈ cache.entries)
    {kind : TemplateKind} : entry.constraint.key ∈ cache.keysOf kind ↔
      entry.constraint.kind = kind := by
  rw [keysOf, List.mem_filter, SortedMap.mem_keys_iff, decide_eq_true_eq]
  exact and_iff_right ⟨entry, h.mem_entries_iff.1 hentry⟩

theorem mem_revivable_iff (h : cache.Ordered) (hentry : entry ∈ cache.entries)
    {compiled : CompiledTemplate} : entry.constraint.key ∈ cache.revivable compiled ↔
      revives compiled entry = true := by
  rw [revivable, entriesOf, List.filter_filter, List.mem_map]
  constructor
  · rintro ⟨found, hfound, hkey⟩
    obtain ⟨hmem, htest⟩ := List.mem_filter.1 hfound
    rw [← h.eq_of_mem_entries hmem hentry hkey]
    simpa [revives, and_comm, and_assoc] using htest
  · intro hrevives
    refine ⟨entry, List.mem_filter.2 ⟨hentry, ?_⟩, rfl⟩
    simpa [revives, and_comm, and_assoc] using hrevives

/-- Installing a template brings back orphans of its kind, and leaves the others alone. -/
theorem entries_installTemplate (h : cache.Ordered) (compiled : CompiledTemplate) :
    (cache.installTemplate compiled).1.entries =
      cache.entries.map (restate .active (revives compiled)) := by
  have hinstall : (cache.installTemplate compiled).1.entries =
      ((cache.revivable compiled).foldl (fun c key => c.setStatus .active key) cache).entries :=
    entries_congr (order_reindexKind _ _) (constraints_reindexKind _ _)
  rw [hinstall, h.entries_foldl_setStatus]
  refine map_restate_congr fun entry hentry => ?_
  rw [Bool.eq_iff_iff, decide_eq_true_eq, h.mem_revivable_iff hentry]

/-- Removing a template takes its constraints away or keeps them aside, as the policy says. -/
theorem entries_removeTemplate (h : cache.Ordered) (policy : OrphanPolicy) {kind : TemplateKind}
    {compiled : CompiledTemplate} (hcompiled : cache.template? kind = some compiled) :
    (removeTemplate policy cache kind).1.entries =
      match policy with
      | .cascade => cache.entries.filter fun e => e.constraint.kind ≠ kind
      | .retain => cache.entries.map (restate .orphaned fun e => e.constraint.kind = kind) := by
  have hwithout : (cache.eraseTemplate kind).Ordered :=
    h.congr (constraints_reindexKind _ _) (order_reindexKind _ _) (nextSeq_reindexKind _ _)
  have hsame : (cache.eraseTemplate kind).entries = cache.entries :=
    entries_congr (order_reindexKind _ _) (constraints_reindexKind _ _)
  have hcontains : cache.templates.contains kind = true :=
    SortedMap.contains_iff.2 ⟨compiled, hcompiled⟩
  rw [removeTemplate, if_pos hcontains]
  have hmem : ∀ entry ∈ cache.entries,
      entry.constraint.key ∈ (cache.eraseTemplate kind).keysOf kind ↔
        entry.constraint.kind = kind :=
    fun entry hentry => hwithout.mem_keysOf_iff (by rwa [hsame])
  cases policy with
  | cascade =>
    refine (hwithout.entries_foldl_eraseConstraint _).trans ?_
    rw [hsame]
    exact List.filter_congr fun entry hentry => by simp [hmem entry hentry]
  | retain =>
    refine (hwithout.entries_foldl_setStatus .orphaned _).trans ?_
    rw [hsame]
    exact map_restate_congr fun entry hentry => by simp [hmem entry hentry]

theorem entries_removeConstraint (h : cache.Ordered) (key : ConstraintKey) :
    (cache.removeConstraint key).1.entries =
      cache.entries.filter fun e => e.constraint.key ≠ key :=
  h.entries_eraseConstraint key

end Ordered

end PolicyEngine.Cache
