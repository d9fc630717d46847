import PolicyEngine.SortedMap

/-!
# Sorted maps by their look-ups

What the operations of sorted maps do to look-ups, and how entries, keys and values are read off
look-ups. A sorted map is determined by its look-ups, so these laws say all there is to say about an
operation.

## Main results

* `PolicyEngine.SortedMap.mem_entries_iff` — the entries are the pairs that look-ups find.
* `PolicyEngine.SortedMap.get?_filter`, `PolicyEngine.SortedMap.get?_filterMap`.
* `PolicyEngine.SortedMap.get?_insert_eq_some_iff`, `PolicyEngine.SortedMap.get?_erase_eq_some_iff`.
* `PolicyEngine.SortedMap.get?_insertAll` — the last entry of a key wins.
* `PolicyEngine.Assoc.get?_map` — replacing values one by one leaves the keys alone.
* `PolicyEngine.Assoc.get?_ofList_eq_reverse`, `PolicyEngine.Assoc.nodup_ofList` — what is found
  among sorted entries, each under a key of its own.
* `PolicyEngine.Assoc.get?_ofList`, `PolicyEngine.Assoc.mem_ofList_iff` — sorting entries with
  distinct keys leaves look-ups alone, and the entries.
* `PolicyEngine.SortedMap.ofList_entries` — a map is the map of its entries.
* `PolicyEngine.Assoc.insert_of_get?_eq_some`, `PolicyEngine.Assoc.insert_insert` — putting a value
  where it is already, and putting two values under one key.
* `PolicyEngine.SortedMap.nodup_values` — a map that is injective lists no value twice.
-/

namespace PolicyEngine

/-! ### Association lists -/

namespace Assoc

variable {κ α β : Type} [DecidableEq κ]

theorem mem_of_get?_eq_some {k : κ} {x : α} {l : List (κ × α)} (h : get? k l = some x) :
    (k, x) ∈ l := by
  induction l with
  | nil => simp at h
  | cons e rest ih =>
    obtain ⟨k', y⟩ := e
    rw [get?_cons] at h
    split at h
    · rename_i hk
      rw [hk, Option.some.inj h]
      exact List.mem_cons_self
    · exact List.mem_cons_of_mem _ (ih h)

/-- Where no two entries share a key, every entry is found under its key. -/
theorem get?_eq_some_iff {k : κ} {x : α} {l : List (κ × α)} (hl : (l.map Prod.fst).Nodup) :
    get? k l = some x ↔ (k, x) ∈ l := by
  refine ⟨mem_of_get?_eq_some, fun h => ?_⟩
  induction l with
  | nil => simp at h
  | cons e rest ih =>
    obtain ⟨k', y⟩ := e
    have ⟨hk', hrest⟩ := List.nodup_cons.1 hl
    rw [get?_cons]
    rcases List.mem_cons.1 h with heq | hmem
    · obtain ⟨rfl, rfl⟩ := Prod.mk.inj heq
      exact if_pos rfl
    · have hfst : k ∈ rest.map Prod.fst := List.mem_map_of_mem (f := Prod.fst) hmem
      have hne : k ≠ k' := by
        rintro rfl
        exact hk' hfst
      rw [if_neg hne, ih hrest hmem]

theorem get?_append (k : κ) (l l' : List (κ × α)) :
    get? k (l ++ l') = (get? k l).or (get? k l') := by
  induction l with
  | nil => rfl
  | cons e rest ih =>
    obtain ⟨k', y⟩ := e
    rw [List.cons_append, get?_cons, get?_cons]
    split
    · rfl
    · exact ih

/-- Values that are replaced one by one are found under their keys. -/
theorem get?_map (f : α → β) (k : κ) (l : List (κ × α)) :
    get? k (l.map fun e => (e.1, f e.2)) = (get? k l).map f := by
  induction l with
  | nil => rfl
  | cons e rest ih =>
    rw [List.map_cons, get?_cons, ih]
    change _ = Option.map f (if k = e.1 then some e.2 else get? k rest)
    split <;> rfl

theorem get?_eq_none_iff_notMem {k : κ} {l : List (κ × α)} :
    get? k l = none ↔ k ∉ l.map Prod.fst := by
  rw [get?_eq_none_iff]
  constructor
  · rintro h hm
    obtain ⟨e, he, rfl⟩ := List.mem_map.1 hm
    exact h e he rfl
  · rintro h e he rfl
    exact h (List.mem_map_of_mem he)

/-- An entry is found if no entry before it has its key. -/
theorem get?_eq_some_iff_append {k : κ} {x : α} {l : List (κ × α)} :
    get? k l = some x ↔ ∃ front back, l = front ++ (k, x) :: back ∧ k ∉ front.map Prod.fst := by
  constructor
  · intro h
    induction l with
    | nil => cases h
    | cons e rest ih =>
      rw [get?_cons] at h
      split at h
      · rename_i hk
        exact ⟨[], rest, by rw [hk, ← Option.some.inj h]; rfl, List.not_mem_nil⟩
      · rename_i hk
        obtain ⟨front, back, rfl, hfront⟩ := ih h
        exact ⟨e :: front, back, rfl, by simp [hk, hfront]⟩
  · rintro ⟨front, back, rfl, hfront⟩
    rw [get?_append, get?_eq_none_iff_notMem.2 hfront, Option.none_or, get?_cons, if_pos rfl]

/-- In reverse order an entry is found if no later entry has its key. -/
theorem get?_reverse_eq_some_iff {k : κ} {x : α} {l : List (κ × α)} :
    get? k l.reverse = some x ↔
      ∃ front back, l = front ++ (k, x) :: back ∧ k ∉ back.map Prod.fst := by
  rw [get?_eq_some_iff_append]
  constructor
  · rintro ⟨front, back, hl, hfront⟩
    refine ⟨back.reverse, front.reverse, ?_, by simpa using hfront⟩
    rw [← List.reverse_reverse l, hl]
    simp
  · rintro ⟨front, back, rfl, hback⟩
    exact ⟨back.reverse, front.reverse, by simp, by simpa using hback⟩

variable [Ord κ] [Std.TransOrd κ] [Std.LawfulEqOrd κ]

/-- Putting a value where it is already changes nothing. -/
theorem insert_of_get?_eq_some {k : κ} {x : α} {l : List (κ × α)} (hl : Sorted l)
    (h : get? k l = some x) : insert k x l = l := by
  refine eq_of_get?_eq hl.insert hl fun k' => ?_
  rw [get?_insert]
  split
  · rename_i hk
    rw [hk, h]
  · rfl

/-- Of two values that are put under a key the later one stays. -/
theorem insert_insert {k : κ} {x y : α} {l : List (κ × α)} (hl : Sorted l) :
    insert k y (insert k x l) = insert k y l := by
  refine eq_of_get?_eq hl.insert.insert hl.insert fun k' => ?_
  rw [get?_insert, get?_insert, get?_insert]
  split <;> rfl

end Assoc

/-! ### Maps -/

namespace SortedMap

variable {κ α β : Type} [Ord κ] [Std.TransOrd κ] [Std.LawfulEqOrd κ] [DecidableEq κ]

omit [DecidableEq κ] [Std.TransOrd κ] [Std.LawfulEqOrd κ] in
/-- Maps with the same entries are the same. -/
theorem ext_entries {m m' : SortedMap κ α} (h : m.entries = m'.entries) : m = m' := by
  cases m
  cases m'
  cases h
  rfl

omit [DecidableEq κ] [Std.TransOrd κ] in
/-- The keys of a map are distinct. -/
theorem nodup_keys (m : SortedMap κ α) : m.keys.Nodup := by
  refine List.pairwise_map.2 (m.sorted.imp fun {a b} hlt heq => ?_)
  have hself : compare b.1 b.1 = .eq := Std.ReflCmp.compare_self
  rw [heq, hself] at hlt
  cases hlt

omit [Std.TransOrd κ] in
/-- The entries of a map are the pairs that look-ups find. -/
theorem mem_entries_iff {m : SortedMap κ α} {k : κ} {x : α} :
    (k, x) ∈ m.entries ↔ m.get? k = some x :=
  (Assoc.get?_eq_some_iff m.nodup_keys).symm

omit [Std.TransOrd κ] in
theorem mem_keys_iff {m : SortedMap κ α} {k : κ} : k ∈ m.keys ↔ ∃ x, m.get? k = some x := by
  constructor
  · intro h
    obtain ⟨⟨k', x⟩, he, rfl⟩ := List.mem_map.1 h
    exact ⟨x, mem_entries_iff.1 he⟩
  · rintro ⟨x, h⟩
    exact List.mem_map_of_mem (mem_entries_iff.2 h)

omit [Std.TransOrd κ] in
theorem mem_values_iff {m : SortedMap κ α} {x : α} :
    x ∈ m.values ↔ ∃ k, m.get? k = some x := by
  constructor
  · intro h
    obtain ⟨⟨k, x'⟩, he, rfl⟩ := List.mem_map.1 h
    exact ⟨k, mem_entries_iff.1 he⟩
  · rintro ⟨k, h⟩
    exact List.mem_map_of_mem (mem_entries_iff.2 h)

omit [Std.TransOrd κ] in
theorem exists_mem_values_iff {m : SortedMap κ α} {P : α → Prop} :
    (∃ x ∈ m.values, P x) ↔ ∃ k x, m.get? k = some x ∧ P x := by
  constructor
  · rintro ⟨x, hx, hP⟩
    obtain ⟨k, hk⟩ := mem_values_iff.1 hx
    exact ⟨k, x, hk, hP⟩
  · rintro ⟨k, x, hk, hP⟩
    exact ⟨x, mem_values_iff.2 ⟨k, hk⟩, hP⟩

omit [Std.TransOrd κ] [Std.LawfulEqOrd κ] in
theorem contains_iff {m : SortedMap κ α} {k : κ} :
    m.contains k = true ↔ ∃ x, m.get? k = some x :=
  Option.isSome_iff_exists

omit [Std.TransOrd κ] in
theorem isEmpty_iff {m : SortedMap κ α} : m.isEmpty = true ↔ ∀ k, m.get? k = none := by
  constructor
  · intro h k
    have hnil : m.entries = [] := List.isEmpty_iff.1 h
    rw [get?, hnil]
    rfl
  · intro h
    refine List.isEmpty_iff.2 (List.eq_nil_iff_forall_not_mem.2 ?_)
    rintro ⟨k, x⟩ he
    have hx := mem_entries_iff.1 he
    rw [h k] at hx
    cases hx

omit [Std.TransOrd κ] in
@[simp]
theorem get?_filter (m : SortedMap κ α) (p : κ → α → Bool) (k : κ) :
    (m.filter p).get? k = (m.get? k).filter (p k) := by
  refine Option.ext fun x => ?_
  rw [← mem_entries_iff, Option.filter_eq_some_iff, ← mem_entries_iff]
  exact List.mem_filter

omit [Std.TransOrd κ] in
@[simp]
theorem get?_filterMap (m : SortedMap κ α) (f : κ → α → Option β) (k : κ) :
    (m.filterMap f).get? k = (m.get? k).bind (f k) := by
  refine Option.ext fun y => ?_
  rw [← mem_entries_iff, Option.bind_eq_some_iff]
  constructor
  · intro h
    obtain ⟨⟨k', x⟩, he, hy⟩ := List.mem_filterMap.1 h
    obtain ⟨y', hy', heq⟩ := Option.map_eq_some_iff.1 hy
    obtain ⟨rfl, rfl⟩ := Prod.mk.inj heq
    exact ⟨x, mem_entries_iff.1 he, hy'⟩
  · rintro ⟨x, hx, hy⟩
    exact List.mem_filterMap.2 ⟨(k, x), mem_entries_iff.2 hx, by simp [hy]⟩

theorem get?_insert_eq_some_iff {m : SortedMap κ α} {k k' : κ} {x y : α} :
    (m.insert k x).get? k' = some y ↔ (k' = k ∧ x = y) ∨ (k' ≠ k ∧ m.get? k' = some y) := by
  rw [get?_insert]
  by_cases hk : k' = k <;> simp [hk]

omit [Std.TransOrd κ] [Std.LawfulEqOrd κ] in
theorem get?_erase_eq_some_iff {m : SortedMap κ α} {k k' : κ} {y : α} :
    (m.erase k).get? k' = some y ↔ k' ≠ k ∧ m.get? k' = some y := by
  rw [get?_erase]
  by_cases hk : k' = k <;> simp [hk]

/-- Of the entries that are inserted under a key the last one is found. -/
theorem get?_insertAll (m : SortedMap κ α) (l : List (κ × α)) (k : κ) :
    (m.insertAll l).get? k = (Assoc.get? k l.reverse).or (m.get? k) := by
  induction l generalizing m with
  | nil => rfl
  | cons e rest ih =>
    obtain ⟨k', x⟩ := e
    have hstep : (m.insertAll ((k', x) :: rest)) = (m.insert k' x).insertAll rest := rfl
    rw [hstep, ih, get?_insert, List.reverse_cons, Assoc.get?_append, Option.or_assoc,
      Assoc.get?_cons]
    by_cases hk : k = k'
    · rw [if_pos hk, if_pos hk]
      rfl
    · rw [if_neg hk, if_neg hk]
      rfl

/-- Entries with distinct keys are all found after their insertion. -/
theorem get?_insertAll_eq_some_iff {m : SortedMap κ α} {l : List (κ × α)}
    (hl : (l.map Prod.fst).Nodup) {k : κ} {x : α} :
    (m.insertAll l).get? k = some x ↔
      (k, x) ∈ l ∨ (k ∉ l.map Prod.fst ∧ m.get? k = some x) := by
  have hrev : (l.reverse.map Prod.fst).Nodup := by
    rw [List.map_reverse]
    exact List.pairwise_reverse.2 (List.Pairwise.imp Ne.symm hl)
  rw [get?_insertAll, Option.or_eq_some_iff, Assoc.get?_eq_some_iff hrev,
    Assoc.get?_eq_none_iff_notMem, List.mem_reverse, List.map_reverse, List.mem_reverse]

omit [Std.TransOrd κ] [Std.LawfulEqOrd κ] [DecidableEq κ] in
/-- The values of the entries that satisfy a test on values. -/
theorem values_filter (m : SortedMap κ α) (p : α → Bool) :
    (m.filter fun _ x => p x).values = m.values.filter p := by
  rw [values, values, List.filter_map]
  rfl

omit [Std.TransOrd κ] in
/-- A map under which no value has two keys lists no value twice. -/
theorem nodup_values {m : SortedMap κ α}
    (h : ∀ {k k' x}, m.get? k = some x → m.get? k' = some x → k = k') : m.values.Nodup := by
  refine List.pairwise_map.2 ?_
  have hkeys : m.entries.Pairwise fun a b => a.1 ≠ b.1 := List.pairwise_map.1 m.nodup_keys
  refine hkeys.imp_of_mem fun {a b} ha hb hne heq => hne ?_
  have hb' : m.get? b.1 = some a.2 := by
    rw [heq]
    exact mem_entries_iff.1 hb
  exact h (mem_entries_iff.1 ha) hb'

omit [Std.TransOrd κ] in
/-- Pairs that the values of a map list are distinct in their first components if those of one value
are, and those of two values share none. -/
theorem nodup_flatMap_values {γ : Type} {m : SortedMap κ α} {f : α → List (β × γ)}
    (heach : ∀ {k x}, m.get? k = some x → ((f x).map Prod.fst).Nodup)
    (hapart : ∀ {k k' x x' e e'}, m.get? k = some x → m.get? k' = some x' → e ∈ f x → e' ∈ f x' →
      e.1 = e'.1 → k = k') : ((m.values.flatMap f).map Prod.fst).Nodup := by
  refine List.pairwise_map.2 (List.pairwise_flatMap.2 ⟨fun x hx => ?_, ?_⟩)
  · obtain ⟨k, hk⟩ := mem_values_iff.1 hx
    exact List.pairwise_map.1 (heach hk)
  · refine List.pairwise_map.2 ?_
    have hkeys : m.entries.Pairwise fun a b => a.1 ≠ b.1 := List.pairwise_map.1 m.nodup_keys
    refine hkeys.imp_of_mem fun {a b} ha hb hne e he e' he' heq => hne ?_
    exact hapart (mem_entries_iff.1 ha) (mem_entries_iff.1 hb) he he' heq

omit [DecidableEq κ] in
theorem entries_insertAll (m : SortedMap κ α) (l : List (κ × α)) :
    (m.insertAll l).entries = l.foldl (fun m e => Assoc.insert e.1 e.2 m) m.entries := by
  induction l generalizing m with
  | nil => rfl
  | cons e rest ih => exact ih (m.insert e.1 e.2)

end SortedMap

/-- The map of the entries of a map is the map itself. -/
theorem SortedMap.ofList_entries {κ α : Type} [DecidableEq κ] [Ord κ] [Std.TransOrd κ]
    [Std.LawfulEqOrd κ] (m : SortedMap κ α) : ofList m.entries = m := by
  refine ext_get? fun k => Option.ext fun x => ?_
  have hempty : (empty : SortedMap κ α).get? k ≠ some x := fun h => nomatch h
  rw [ofList, get?_insertAll_eq_some_iff m.nodup_keys, mem_entries_iff]
  exact or_iff_left fun hnone => hempty hnone.2

/-- No two entries of a sorted list share a key. -/
theorem Assoc.nodup_ofList {κ α : Type} [Ord κ] [Std.TransOrd κ] [Std.LawfulEqOrd κ]
    (l : List (κ × α)) : ((ofList l).map Prod.fst).Nodup := by
  have hentries : (SortedMap.ofList l).entries = ofList l := SortedMap.entries_insertAll .empty l
  rw [← hentries]
  exact (SortedMap.ofList l).nodup_keys

/-- Of the entries with a key the last one is found in the sorted list. -/
theorem Assoc.get?_ofList_eq_reverse {κ α : Type} [DecidableEq κ] [Ord κ] [Std.TransOrd κ]
    [Std.LawfulEqOrd κ] (k : κ) (l : List (κ × α)) : get? k (ofList l) = get? k l.reverse := by
  have hinserted := SortedMap.get?_insertAll (.empty : SortedMap κ α) l k
  rwa [SortedMap.get?, SortedMap.entries_insertAll, SortedMap.get?_empty, Option.or_none]
    at hinserted

/-- Entries with distinct keys are found in the sorted list as in their own. -/
theorem Assoc.get?_ofList {κ α : Type} [DecidableEq κ] [Ord κ] [Std.TransOrd κ]
    [Std.LawfulEqOrd κ] {l : List (κ × α)} (hl : (l.map Prod.fst).Nodup) (k : κ) :
    get? k (ofList l) = get? k l := by
  refine Option.ext fun x => ?_
  have hempty : (SortedMap.empty : SortedMap κ α).get? k ≠ some x := fun h => nomatch h
  have hinserted := SortedMap.get?_insertAll_eq_some_iff (m := .empty) hl (k := k) (x := x)
  rw [SortedMap.get?, SortedMap.entries_insertAll] at hinserted
  rw [get?_eq_some_iff hl]
  exact hinserted.trans (or_iff_left fun hnone => hempty hnone.2)

/-- Entries with distinct keys are the entries of the sorted list. -/
theorem Assoc.mem_ofList_iff {κ α : Type} [DecidableEq κ] [Ord κ] [Std.TransOrd κ]
    [Std.LawfulEqOrd κ] {l : List (κ × α)} (hl : (l.map Prod.fst).Nodup) {e : κ × α} :
    e ∈ ofList l ↔ e ∈ l := by
  have hentries : (SortedMap.ofList l).entries = ofList l := SortedMap.entries_insertAll .empty l
  rw [← hentries, SortedMap.mem_entries_iff, SortedMap.get?, hentries, get?_ofList hl,
    get?_eq_some_iff hl]

end PolicyEngine
