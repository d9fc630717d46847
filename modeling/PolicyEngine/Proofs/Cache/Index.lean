import PolicyEngine.Proofs.Cache.Order

/-!
# The index of targets

For each target the index names the constraints that a review there has to consider. It is never
read off the constraints again but kept up to date by every update, so what it holds has to be shown
equal to what the constraints and templates ask for. Reindexing a list of constraints makes the
index right at their sequence numbers and leaves it alone elsewhere; an update is right as soon as
it reindexes whatever it touches.

## Main definitions

* `PolicyEngine.Cache.due` — what the index has to hold under a target and a sequence number.
* `PolicyEngine.Cache.NoneEmpty` — an index lists no target without a constraint.
* `PolicyEngine.Cache.Indexed` — the index holds what is due, and no target without a constraint.

## Main results

* `PolicyEngine.Cache.Ordered.get?_keysAt_foldl_reindex` — what reindexing constraints does.
* `PolicyEngine.Cache.Indexed.foldl_reindex` — a change followed by reindexing what it touched.
* `PolicyEngine.Cache.Indexed.putConstraint`, `PolicyEngine.Cache.Indexed.eraseConstraint`,
  `PolicyEngine.Cache.Indexed.setStatus`, `PolicyEngine.Cache.Indexed.reindexKind` — the single
  changes keep the index right.
-/

namespace PolicyEngine.Cache

/-! ### Entries of the index -/

/-- The keys that an index holds for a target, by sequence number. -/
def keysAt (index : SortedMap TargetName (SortedMap Nat ConstraintKey)) (target : TargetName) :
    SortedMap Nat ConstraintKey :=
  (index.get? target).getD .empty

/-- What the index has to hold under a target and a sequence number. -/
def due (cache : Cache) (target : TargetName) (seq : Nat) : Option ConstraintKey :=
  (cache.order.get? seq).filter fun key =>
    (cache.constraints.get? key).any fun entry => decide (target ∈ cache.indexedTargets entry)

/-- An index that lists no target without a constraint. -/
def NoneEmpty (index : SortedMap TargetName (SortedMap Nat ConstraintKey)) : Prop :=
  ∀ ⦃target keys⦄, index.get? target = some keys → keys.isEmpty = false

/-- The index holds what is due, and lists no target without a constraint. -/
structure Indexed (cache : Cache) : Prop where
  get?_keysAt : ∀ target seq, (keysAt cache.index target).get? seq = cache.due target seq
  nonempty : NoneEmpty cache.index

section Entries

variable (index : SortedMap TargetName (SortedMap Nat ConstraintKey)) (seq n : Nat)
  (key : ConstraintKey) (target : TargetName)

theorem isEmpty_insert (keys : SortedMap Nat ConstraintKey) :
    (keys.insert seq key).isEmpty = false := by
  refine Bool.eq_false_iff.2 fun h => ?_
  have hnone := SortedMap.isEmpty_iff.1 h seq
  simp at hnone

theorem get?_keysAt_addToIndex (t : TargetName) :
    (keysAt (addToIndex index seq key t) target).get? n =
      if target = t ∧ n = seq then some key else (keysAt index target).get? n := by
  rw [keysAt, addToIndex, SortedMap.get?_insert]
  by_cases ht : target = t
  · subst ht
    by_cases hn : n = seq <;> simp [hn, keysAt]
  · simp [ht, keysAt]

theorem get?_keysAt_foldl (targets : List TargetName) :
    (keysAt (targets.foldl (fun index t => addToIndex index seq key t) index) target).get? n =
      if target ∈ targets ∧ n = seq then some key else (keysAt index target).get? n := by
  induction targets generalizing index with
  | nil => simp
  | cons t rest ih =>
    rw [List.foldl_cons, ih, get?_keysAt_addToIndex]
    by_cases hn : n = seq
    · by_cases ht : target = t <;> simp [hn, ht]
    · simp [hn]

theorem noneEmpty_foldl (targets : List TargetName) (h : NoneEmpty index) :
    NoneEmpty (targets.foldl (fun index t => addToIndex index seq key t) index) := by
  induction targets generalizing index with
  | nil => exact h
  | cons t rest ih =>
    refine ih _ fun t' keys hkeys => ?_
    change (index.insert t _).get? t' = some keys at hkeys
    rcases SortedMap.get?_insert_eq_some_iff.1 hkeys with ⟨-, rfl⟩ | ⟨-, hkeys⟩
    · exact isEmpty_insert seq key _
    · exact h hkeys

theorem get?_index_unindex (cache : Cache) :
    (cache.unindex seq).index.get? target =
      (cache.index.get? target).bind fun keys =>
        if (keys.erase seq).isEmpty then none else some (keys.erase seq) :=
  SortedMap.get?_filterMap _ _ _

theorem get?_keysAt_unindex (cache : Cache) :
    (keysAt (cache.unindex seq).index target).get? n =
      if n = seq then none else (keysAt cache.index target).get? n := by
  rw [keysAt, get?_index_unindex, keysAt]
  cases cache.index.get? target with
  | none => simp
  | some keys =>
    rw [Option.bind_some, Option.getD_some, ← SortedMap.get?_erase]
    by_cases hempty : (keys.erase seq).isEmpty = true
    · rw [if_pos hempty, SortedMap.isEmpty_iff.1 hempty n]
      rfl
    · rw [if_neg hempty]
      rfl

theorem noneEmpty_unindex (cache : Cache) : NoneEmpty (cache.unindex seq).index := by
  intro target keys hkeys
  rw [get?_index_unindex, Option.bind_eq_some_iff] at hkeys
  obtain ⟨old, -, hold⟩ := hkeys
  split at hold
  · cases hold
  · rename_i hne
    rw [← Option.some.inj hold]
    exact Bool.not_eq_true _ ▸ hne

end Entries

/-! ### Reindexing -/

section Reindexing

variable {cache : Cache}

/-- What is due depends on the number's key, on its constraint and on the template of this. -/
theorem due_congr {cache' : Cache} {target : TargetName} {seq : Nat}
    (ho : cache'.order.get? seq = cache.order.get? seq)
    (h : ∀ key, cache.order.get? seq = some key →
      cache'.constraints.get? key = cache.constraints.get? key ∧
      ∀ entry, cache.constraints.get? key = some entry →
        cache'.templates.get? entry.constraint.kind =
          cache.templates.get? entry.constraint.kind) :
    cache'.due target seq = cache.due target seq := by
  rw [due, due, ho]
  cases hkey : cache.order.get? seq with
  | none => rfl
  | some key =>
    obtain ⟨hc, ht⟩ := h key hkey
    rw [Option.filter_some, Option.filter_some, hc]
    cases hentry : cache.constraints.get? key with
    | none => rfl
    | some entry =>
      have htargets : cache'.indexedTargets entry = cache.indexedTargets entry := by
        rw [indexedTargets, indexedTargets, ht entry hentry]
      rw [Option.any_some, Option.any_some, htargets]

/-- What is due at the number of a constraint. -/
theorem Ordered.due_seq (h : cache.Ordered) {key : ConstraintKey} {entry : ConstraintEntry}
    (hentry : cache.constraints.get? key = some entry) (target : TargetName) :
    cache.due target entry.seq =
      if target ∈ cache.indexedTargets entry then some key else none := by
  rw [due, h.get?_order hentry, Option.filter_some, hentry]
  simp

/-- Reindexing a constraint makes the index right at its number and leaves it alone elsewhere. -/
theorem Ordered.get?_keysAt_reindex (h : cache.Ordered) (key : ConstraintKey)
    (target : TargetName) (n : Nat) :
    (keysAt (cache.reindex key).index target).get? n =
      if cache.order.get? n = some key then cache.due target n
      else (keysAt cache.index target).get? n := by
  rw [reindex]
  split
  · rename_i hnone
    have hne : cache.order.get? n ≠ some key := by
      rw [Ne, h.order_iff, hnone]
      simp
    rw [if_neg hne]
  · rename_i entry hentry
    rw [get?_keysAt_foldl, get?_keysAt_unindex]
    by_cases hn : n = entry.seq
    · rw [hn, if_pos (h.get?_order hentry), h.due_seq hentry]
      simp
    · have hne : cache.order.get? n ≠ some key := by
        rw [Ne, h.order_iff, hentry]
        simpa using Ne.symm hn
      simp [hn, hne]

theorem noneEmpty_reindex (h : NoneEmpty cache.index) (key : ConstraintKey) :
    NoneEmpty (cache.reindex key).index := by
  rw [reindex]
  split
  · exact h
  · exact noneEmpty_foldl _ _ _ _ (noneEmpty_unindex _ _)

theorem Ordered.reindex (h : cache.Ordered) (key : ConstraintKey) : (cache.reindex key).Ordered :=
  h.congr (constraints_reindex _ _) (order_reindex _ _) (nextSeq_reindex _ _)

theorem due_reindex (key : ConstraintKey) (target : TargetName) (seq : Nat) :
    (cache.reindex key).due target seq = cache.due target seq :=
  due_congr (by rw [order_reindex]) fun k _ =>
    ⟨by rw [constraints_reindex], fun entry _ => by rw [templates_reindex]⟩

/-- Reindexing constraints makes the index right at their numbers and leaves it alone elsewhere. -/
theorem Ordered.get?_keysAt_foldl_reindex (h : cache.Ordered) (keys : List ConstraintKey)
    (target : TargetName) (n : Nat) :
    (keysAt (keys.foldl Cache.reindex cache).index target).get? n =
      if ∃ key ∈ keys, cache.order.get? n = some key then cache.due target n
      else (keysAt cache.index target).get? n := by
  induction keys generalizing cache with
  | nil => simp
  | cons key rest ih =>
    rw [List.foldl_cons, ih (h.reindex key), h.get?_keysAt_reindex, order_reindex, due_reindex]
    by_cases hkey : cache.order.get? n = some key
    · simp [hkey]
    · simp [hkey]

theorem noneEmpty_foldl_reindex (h : NoneEmpty cache.index) (keys : List ConstraintKey) :
    NoneEmpty (keys.foldl Cache.reindex cache).index := by
  induction keys generalizing cache with
  | nil => exact h
  | cons key rest ih => exact ih (noneEmpty_reindex h key)

/-- A change leaves the index right if what is due changes only at the numbers of constraints that
are reindexed after it. -/
theorem Indexed.foldl_reindex (h : cache.Indexed) (cache' : Cache) (ho : cache'.Ordered)
    (hi : cache'.index = cache.index) (keys : List ConstraintKey)
    (hdue : ∀ target seq, (∀ key ∈ keys, cache'.order.get? seq ≠ some key) →
      cache'.due target seq = cache.due target seq) :
    (keys.foldl Cache.reindex cache').Indexed where
  get?_keysAt := by
    intro target seq
    have hframe : (keys.foldl Cache.reindex cache').due target seq = cache'.due target seq := by
      obtain ⟨index, hindex⟩ := cache'.exists_index_foldl_reindex keys
      rw [hindex]
      rfl
    rw [hframe, ho.get?_keysAt_foldl_reindex, hi]
    split
    · rfl
    · rename_i hnone
      rw [h.get?_keysAt, hdue target seq fun key hkey hseq => hnone ⟨key, hkey, hseq⟩]
  nonempty := noneEmpty_foldl_reindex (hi ▸ h.nonempty) keys

end Reindexing

/-! ### Single changes -/

namespace Indexed

variable {cache : Cache}

/-- Putting a constraint under the key of an old one of the same number. -/
theorem replace (h : cache.Indexed) (ho : cache.Ordered) {key : ConstraintKey}
    {old : ConstraintEntry} (new : ConstraintEntry) (hold : cache.constraints.get? key = some old)
    (hkey : new.constraint.key = key) (hseq : new.seq = old.seq) :
    ({ cache with constraints := cache.constraints.insert key new }.reindex key).Indexed := by
  refine h.foldl_reindex _ (ho.replace new hold hkey hseq) rfl [key] fun target seq hne => ?_
  refine due_congr rfl fun k hk => ⟨?_, fun _ _ => rfl⟩
  have hk' : k ≠ key := by
    rintro rfl
    exact hne k List.mem_cons_self hk
  rw [SortedMap.get?_insert, if_neg hk']

theorem setStatus (h : cache.Indexed) (ho : cache.Ordered) (status : ConstraintStatus)
    (key : ConstraintKey) : (cache.setStatus status key).Indexed := by
  rw [Cache.setStatus]
  split
  · exact h
  · rename_i entry hentry
    have hkey := ho.key_eq hentry
    exact h.replace ho { entry with status } hentry hkey rfl

theorem putConstraint (h : cache.Indexed) (ho : cache.Ordered) (c : Constraint) :
    (cache.putConstraint c).Indexed := by
  rw [Cache.putConstraint]
  split
  · rename_i entry hentry
    exact h.replace ho { entry with constraint := c, status := .active } hentry rfl rfl
  · rename_i hnew
    refine h.foldl_reindex _ (ho.append hnew) rfl [c.key] fun target seq hne => ?_
    have hseq : seq ≠ cache.nextSeq := by
      rintro rfl
      exact hne c.key List.mem_cons_self (by simp)
    refine due_congr (by rw [SortedMap.get?_insert, if_neg hseq]) fun k hk =>
      ⟨?_, fun _ _ => rfl⟩
    have hk' : k ≠ c.key := by
      rintro rfl
      obtain ⟨entry, hentry, -⟩ := ho.order_iff.1 hk
      rw [hnew] at hentry
      cases hentry
    rw [SortedMap.get?_insert, if_neg hk']

theorem eraseConstraint (h : cache.Indexed) (ho : cache.Ordered) (key : ConstraintKey) :
    (cache.eraseConstraint key).Indexed := by
  rw [Cache.eraseConstraint]
  split
  · exact h
  · rename_i entry hentry
    refine ⟨fun target seq => ?_, noneEmpty_unindex _ _⟩
    rw [get?_keysAt_unindex, h.get?_keysAt]
    by_cases hs : seq = entry.seq
    · rw [if_pos hs, due, order_unindex, SortedMap.get?_erase, if_pos hs]
      rfl
    · rw [if_neg hs]
      symm
      refine due_congr ?_ fun k hk => ⟨?_, fun _ _ => rfl⟩
      · rw [order_unindex, SortedMap.get?_erase, if_neg hs]
      · have hk' : k ≠ key := by
          rintro rfl
          rw [ho.order_iff, hentry] at hk
          obtain ⟨e, he, hseq⟩ := hk
          exact hs (by rw [← hseq, ← Option.some.inj he])
        rw [constraints_unindex, SortedMap.get?_erase, if_neg hk']

/-- A change of the templates of one kind is right once the constraints of this kind
are reindexed. -/
theorem reindexKind (h : cache.Indexed) (ho : cache.Ordered) {kind : TemplateKind}
    {templates : SortedMap TemplateKind CompiledTemplate}
    (ht : ∀ k, k ≠ kind → templates.get? k = cache.templates.get? k) :
    ({ cache with templates }.reindexKind kind).Indexed := by
  refine h.foldl_reindex { cache with templates } (ho.congr rfl rfl rfl) rfl _
    fun target seq hne => ?_
  refine due_congr rfl fun k hk => ⟨rfl, fun entry hentry => ht _ fun hkind => ?_⟩
  refine hne k (List.mem_filter.2 ⟨SortedMap.mem_keys_iff.2 ⟨entry, hentry⟩, ?_⟩) hk
  rw [decide_eq_true_eq, ← hkind, ho.kind_eq hentry]

end Indexed

end PolicyEngine.Cache
