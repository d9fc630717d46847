/-!
# Sorted maps

A sorted map lists its entries by strictly increasing key, so that two maps with the same look-ups
are the same list. The operations come first on plain association lists (`PolicyEngine.Assoc`),
where their look-up laws need no sortedness; `PolicyEngine.SortedMap` bundles a list with its order.

## Main definitions

* `PolicyEngine.Assoc.get?`, `PolicyEngine.Assoc.insert`, `PolicyEngine.Assoc.erase`.
* `PolicyEngine.SortedMap` — an association list with strictly increasing keys.

## Main results

* `PolicyEngine.Assoc.get?_insert`, `PolicyEngine.Assoc.get?_erase` — look-ups after an update.
* `PolicyEngine.Assoc.erase_insert_of_get?_eq_none` — a new entry is erased without a trace.
* `PolicyEngine.SortedMap.ext_get?` — a sorted map is determined by its look-ups.
-/

namespace PolicyEngine

/-! ### Association lists -/

namespace Assoc

variable {κ α β : Type}

section Lookup

variable [DecidableEq κ]

/-- The value of the first entry under a key. -/
def get? (k : κ) : List (κ × α) → Option α
  | [] => none
  | (k', x) :: rest => if k = k' then some x else get? k rest

/-- Whether some entry has the key. -/
def contains (k : κ) (l : List (κ × α)) : Bool :=
  (get? k l).isSome

/-- Drop every entry under a key. -/
def erase (k : κ) (l : List (κ × α)) : List (κ × α) :=
  l.filter fun e => e.1 ≠ k

@[simp]
theorem get?_nil (k : κ) : get? k ([] : List (κ × α)) = none := rfl

theorem get?_cons (k k' : κ) (x : α) (rest : List (κ × α)) :
    get? k ((k', x) :: rest) = if k = k' then some x else get? k rest := rfl

theorem get?_eq_none_iff {k : κ} {l : List (κ × α)} :
    get? k l = none ↔ ∀ e ∈ l, e.1 ≠ k := by
  induction l with
  | nil => simp
  | cons e rest ih =>
    obtain ⟨k', y⟩ := e
    rw [get?_cons]
    by_cases h : k = k'
    · simp [h]
    · simp [h, ih, Ne.symm h]

/-- After an erasure the key is absent and every other key has its old value. -/
theorem get?_erase (k k' : κ) (l : List (κ × α)) :
    get? k' (erase k l) = if k' = k then none else get? k' l := by
  induction l with
  | nil => simp [erase]
  | cons e rest ih =>
    obtain ⟨k'', y⟩ := e
    rw [erase] at ih ⊢
    by_cases h : k'' = k <;> by_cases hk : k' = k <;> simp_all [get?_cons]
    · intro heq
      exact absurd heq.symm h

/-- Erasing a key that is absent changes nothing. -/
theorem erase_of_get?_eq_none {k : κ} {l : List (κ × α)} (h : get? k l = none) :
    erase k l = l := by
  rw [erase, List.filter_eq_self]
  intro e he
  simpa using get?_eq_none_iff.1 h e he

end Lookup

variable [Ord κ]

/-- Put a value under a key: replace the entry of the key, or insert before the first larger key. -/
def insert (k : κ) (x : α) : List (κ × α) → List (κ × α)
  | [] => [(k, x)]
  | (k', x') :: rest =>
    match compare k k' with
    | .lt => (k, x) :: (k', x') :: rest
    | .eq => (k, x) :: rest
    | .gt => (k', x') :: insert k x rest

/-- Insert the entries one after another, so that of two entries under a key the later one stays. -/
def ofList (l : List (κ × α)) : List (κ × α) :=
  l.foldl (fun m e => insert e.1 e.2 m) []

/-- The keys increase strictly. -/
def Sorted (l : List (κ × α)) : Prop :=
  l.Pairwise fun a b => compare a.1 b.1 = .lt

theorem mem_insert {k : κ} {x : α} {e : κ × α} {l : List (κ × α)} (h : e ∈ insert k x l) :
    e = (k, x) ∨ e ∈ l := by
  induction l with
  | nil => simpa [insert] using h
  | cons e' rest ih =>
    obtain ⟨k', y⟩ := e'
    rw [insert] at h
    split at h
    · simpa using h
    · rcases List.mem_cons.1 h with h | h
      · exact .inl h
      · exact .inr (List.mem_cons_of_mem _ h)
    · rcases List.mem_cons.1 h with h | h
      · exact .inr (h ▸ List.mem_cons_self)
      · exact (ih h).imp id (List.mem_cons_of_mem _)

theorem sorted_nil : Sorted ([] : List (κ × α)) := List.Pairwise.nil

theorem Sorted.filter {l : List (κ × α)} (h : Sorted l) (p : κ × α → Bool) :
    Sorted (l.filter p) :=
  List.Pairwise.filter p h

theorem Sorted.filterMap {l : List (κ × α)} (h : Sorted l) (f : κ × α → Option β) :
    Sorted (l.filterMap fun e => (f e).map (e.1, ·)) := by
  refine List.Pairwise.filterMap _ (fun a b hab x hx y hy => ?_) h
  obtain ⟨x', -, rfl⟩ := Option.map_eq_some_iff.1 hx
  obtain ⟨y', -, rfl⟩ := Option.map_eq_some_iff.1 hy
  exact hab

variable [Std.TransOrd κ] [Std.LawfulEqOrd κ]

/-- Insertion keeps the keys strictly increasing. -/
theorem Sorted.insert {k : κ} {x : α} {l : List (κ × α)} (h : Sorted l) :
    Sorted (Assoc.insert k x l) := by
  induction l with
  | nil => simp [Assoc.insert, Sorted]
  | cons e rest ih =>
    obtain ⟨k', y⟩ := e
    have ⟨hhead, htail⟩ := List.pairwise_cons.1 h
    rw [Assoc.insert]
    split
    · rename_i hc
      refine List.pairwise_cons.2 ⟨fun e he => ?_, h⟩
      rcases List.mem_cons.1 he with rfl | he
      · exact hc
      · exact Std.TransCmp.lt_trans hc (hhead e he)
    · rename_i hc
      obtain rfl : k = k' := Std.LawfulEqOrd.eq_of_compare hc
      exact List.pairwise_cons.2 ⟨hhead, htail⟩
    · rename_i hc
      refine List.pairwise_cons.2 ⟨fun e he => ?_, ih htail⟩
      rcases mem_insert he with rfl | he
      · exact Std.OrientedCmp.gt_iff_lt.1 hc
      · exact hhead e he

variable [DecidableEq κ]

omit [Std.TransOrd κ] in
/-- After an insertion the key has the new value and every other key its old one. -/
theorem get?_insert (k k' : κ) (x : α) (l : List (κ × α)) :
    get? k' (insert k x l) = if k' = k then some x else get? k' l := by
  induction l with
  | nil => simp [insert, get?_cons]
  | cons e rest ih =>
    obtain ⟨k'', y⟩ := e
    rw [insert]
    split
    · simp [get?_cons]
    · rename_i h
      obtain rfl : k = k'' := Std.LawfulEqOrd.eq_of_compare h
      by_cases hk : k' = k <;> simp [get?_cons, hk]
    · rename_i h
      have hne : k ≠ k'' := by
        rintro rfl
        simp at h
      by_cases hk : k' = k
      · subst hk
        simp [get?_cons, ih, hne]
      · simp [get?_cons, ih, hk]

omit [Std.TransOrd κ] in
/-- Inserting a new key and erasing it again gives the list back. -/
theorem erase_insert_of_get?_eq_none {k : κ} {x : α} {l : List (κ × α)} (h : get? k l = none) :
    erase k (insert k x l) = l := by
  induction l with
  | nil => simp [insert, erase]
  | cons e rest ih =>
    obtain ⟨k', y⟩ := e
    have hall := get?_eq_none_iff.1 h
    have hne : k' ≠ k := hall _ List.mem_cons_self
    have hrest : get? k rest = none :=
      get?_eq_none_iff.2 fun e he => hall e (List.mem_cons_of_mem _ he)
    have hself := erase_of_get?_eq_none hrest
    rw [erase] at hself
    rw [insert]
    split
    · simpa [erase, hne] using hself
    · rename_i hc
      exact absurd (Std.LawfulEqOrd.eq_of_compare hc).symm hne
    · have := ih hrest
      rw [erase] at this
      simpa [erase, hne] using this

/-- Two sorted lists with the same look-ups are the same list. -/
theorem eq_of_get?_eq {l₁ l₂ : List (κ × α)} (h₁ : Sorted l₁) (h₂ : Sorted l₂)
    (h : ∀ k, get? k l₁ = get? k l₂) : l₁ = l₂ := by
  induction l₁ generalizing l₂ with
  | nil =>
    cases l₂ with
    | nil => rfl
    | cons e rest => exact absurd (h e.1).symm (by simp [get?])
  | cons e₁ rest₁ ih =>
    cases l₂ with
    | nil => exact absurd (h e₁.1) (by simp [get?])
    | cons e₂ rest₂ =>
      obtain ⟨k₁, x₁⟩ := e₁
      obtain ⟨k₂, x₂⟩ := e₂
      have ⟨hd₁, tl₁⟩ := List.pairwise_cons.1 h₁
      have ⟨hd₂, tl₂⟩ := List.pairwise_cons.1 h₂
      have hk : k₁ = k₂ := by
        have absent {k k' : κ} {x : α} {rest : List (κ × α)} (hlt : compare k k' = .lt)
            (hd : ∀ e ∈ rest, compare k' e.1 = .lt) : get? k ((k', x) :: rest) = none := by
          refine get?_eq_none_iff.2 fun e he heq => ?_
          subst heq
          rcases List.mem_cons.1 he with rfl | he
          · simp at hlt
          · have := Std.TransCmp.lt_trans hlt (hd e he)
            simp at this
        match hc : compare k₁ k₂ with
        | .eq => exact Std.LawfulEqOrd.eq_of_compare hc
        | .lt =>
          have := h k₁
          rw [absent hc hd₂] at this
          simp [get?] at this
        | .gt =>
          have := h k₂
          rw [absent (Std.OrientedCmp.gt_iff_lt.1 hc) hd₁] at this
          simp [get?] at this
      subst hk
      have hx : x₁ = x₂ := by
        have := h k₁
        simpa [get?] using this
      subst hx
      have hrest : rest₁ = rest₂ := by
        refine ih tl₁ tl₂ fun k => ?_
        by_cases hk : k = k₁
        · subst hk
          have none_of {rest : List (κ × α)} (hd : ∀ e ∈ rest, compare k e.1 = .lt) :
              get? k rest = none :=
            get?_eq_none_iff.2 fun e he heq => by
              have := hd e he
              simp [heq] at this
          rw [none_of hd₁, none_of hd₂]
        · have := h k
          simpa [get?_cons, hk] using this
      rw [hrest]

end Assoc

/-! ### Maps -/

/-- An association list whose keys increase strictly. -/
structure SortedMap (κ α : Type) [Ord κ] where
  /-- The entries, by increasing key. -/
  entries : List (κ × α)
  /-- The keys increase strictly. -/
  sorted : Assoc.Sorted entries

namespace SortedMap

variable {κ α β : Type} [Ord κ]

instance [DecidableEq κ] [DecidableEq α] : DecidableEq (SortedMap κ α)
  | ⟨l₁, _⟩, ⟨l₂, _⟩ => decidable_of_iff (l₁ = l₂) (by simp)

instance [BEq κ] [BEq α] : BEq (SortedMap κ α) where
  beq m₁ m₂ := m₁.entries == m₂.entries

/-- The map without entries. -/
def empty : SortedMap κ α := ⟨[], Assoc.sorted_nil⟩

instance : Inhabited (SortedMap κ α) := ⟨empty⟩

/-- The number of entries. -/
def size (m : SortedMap κ α) : Nat := m.entries.length

/-- Whether there is no entry. -/
def isEmpty (m : SortedMap κ α) : Bool := m.entries.isEmpty

/-- The keys in increasing order. -/
def keys (m : SortedMap κ α) : List κ := m.entries.map (·.1)

/-- The values by increasing key. -/
def values (m : SortedMap κ α) : List α := m.entries.map (·.2)

/-- Keep the entries that satisfy a test. -/
def filter (m : SortedMap κ α) (p : κ → α → Bool) : SortedMap κ α :=
  ⟨m.entries.filter fun e => p e.1 e.2, m.sorted.filter _⟩

/-- Keep the entries for which a function of key and value gives a new value. -/
def filterMap (m : SortedMap κ α) (f : κ → α → Option β) : SortedMap κ β :=
  ⟨m.entries.filterMap fun e => (f e.1 e.2).map (e.1, ·), m.sorted.filterMap fun e => f e.1 e.2⟩

section Lookup

variable [DecidableEq κ]

/-- The value under a key. -/
def get? (m : SortedMap κ α) (k : κ) : Option α := Assoc.get? k m.entries

/-- Whether the key has a value. -/
def contains (m : SortedMap κ α) (k : κ) : Bool := (m.get? k).isSome

/-- Drop the entry of a key. -/
def erase (m : SortedMap κ α) (k : κ) : SortedMap κ α :=
  ⟨Assoc.erase k m.entries, m.sorted.filter _⟩

@[simp]
theorem get?_empty (k : κ) : (empty : SortedMap κ α).get? k = none := rfl

@[simp]
theorem get?_erase (m : SortedMap κ α) (k k' : κ) :
    (m.erase k).get? k' = if k' = k then none else m.get? k' :=
  Assoc.get?_erase k k' m.entries

end Lookup

variable [Std.TransOrd κ] [Std.LawfulEqOrd κ]

/-- Put a value under a key, replacing the value that was there. -/
def insert (m : SortedMap κ α) (k : κ) (x : α) : SortedMap κ α :=
  ⟨Assoc.insert k x m.entries, m.sorted.insert⟩

/-- Insert entries one after another; of two entries under a key the later one stays. -/
def insertAll (m : SortedMap κ α) (l : List (κ × α)) : SortedMap κ α :=
  l.foldl (fun m e => m.insert e.1 e.2) m

/-- The map of a list of entries; of two entries under a key the later one stays. -/
def ofList (l : List (κ × α)) : SortedMap κ α :=
  empty.insertAll l

variable [DecidableEq κ]

@[simp]
theorem get?_insert (m : SortedMap κ α) (k k' : κ) (x : α) :
    (m.insert k x).get? k' = if k' = k then some x else m.get? k' :=
  Assoc.get?_insert k k' x m.entries

/-- A sorted map is determined by its look-ups. -/
theorem ext_get? {m₁ m₂ : SortedMap κ α} (h : ∀ k, m₁.get? k = m₂.get? k) : m₁ = m₂ := by
  obtain ⟨l₁, h₁⟩ := m₁
  obtain ⟨l₂, h₂⟩ := m₂
  obtain rfl := Assoc.eq_of_get?_eq h₁ h₂ h
  rfl

end SortedMap

end PolicyEngine
