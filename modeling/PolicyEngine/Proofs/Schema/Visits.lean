import PolicyEngine.Proofs.Schema.Walk

/-!
# The parts of a value that are checked

The walk over a tree and a value visits the value with the root of the tree. From an object it goes
on to the members that a schema describes, and from an array to the elements if a schema describes
them. What is wrong with the value is what is wrong at the visits, each of which looks at one node
only: at its annotations, its type, the names that it requires and those that it refuses. So in a
value that is accepted nothing is wrong at any visit, and a node that lists its values has been
visited with one of these. Null is the exception: it is not compared with the list where the node is
nullable, and neither where the node has no type.

## Main definitions

* `PolicyEngine.Schema.Visits` — the parts of a value that are checked, with their nodes.
* `PolicyEngine.Schema.bare` — a node without what it says of members and elements.

## Main results

* `PolicyEngine.Schema.mem_violations_iff` — the faults of a value are those found at the visits.
* `PolicyEngine.Schema.accepts_iff` — a value is accepted if nothing is found at any visit.
* `PolicyEngine.Schema.allowed_of_visits` — nodes that list values are visited with these, or with
  null.
* `PolicyEngine.Schema.exists_accepts_null` — null passes by the list of a node without a type.
-/

namespace PolicyEngine.Schema

/-! ### Visits -/

/-- The schema of the members that are not declared, if there is one. -/
def unknownSchema? : UnknownFields Schema → Option Schema
  | .validate values => some values
  | _ => none

/-- The schema of a member of an object, if there is one. -/
def memberSchema? (properties : List (String × Schema)) (unknown : UnknownFields Schema)
    (name : String) : Option Schema :=
  (Assoc.get? name properties).or (unknownSchema? unknown)

/-- The walk over a tree and a value visits a part of the value, at a place, with a node. -/
inductive Visits : Schema → Json → Pointer → Schema → Json → Prop where
  /-- The walk starts at the root. -/
  | root (s : Schema) (v : Json) : Visits s v [] s v
  /-- It goes on to the members of an object. -/
  | member {notes : Annotations} {properties : List (String × Schema)} {required : List String}
      {unknown : UnknownFields Schema} {members : List (String × Json)} {name : String}
      {value : Json} {s t : Schema} {place : Pointer} {w : Json}
      (hvalue : (name, value) ∈ members) (hs : memberSchema? properties unknown name = some s)
      (h : Visits s value place t w) :
      Visits (.object notes properties required unknown) (.obj members) (name :: place) t w
  /-- It goes on to the elements of an array. -/
  | element {notes : Annotations} {elements : List Json} {i : Nat} {value : Json} {s t : Schema}
      {place : Pointer} {w : Json} (hvalue : elements[i]? = some value)
      (h : Visits s value place t w) :
      Visits (.array notes (some s)) (.arr elements) (toString i :: place) t w

/-! ### Single nodes -/

/-- What a node says of undeclared members without looking at them. -/
def bareUnknown : UnknownFields Schema → UnknownFields Schema
  | .validate _ => .preserve
  | unknown => unknown

/-- A node without what it says of its members and elements: these may hold anything. -/
def bare : Schema → Schema
  | .object notes properties required unknown =>
    .object notes (properties.map fun m => (m.1, anything)) required (bareUnknown unknown)
  | .array notes _ => .array notes none
  | .scalar notes type => .scalar notes type
  | .any notes => .any notes

theorem notes_bare (s : Schema) : s.bare.notes = s.notes := by
  cases s <;> rfl

theorem violations_anything (v : Json) : anything.violations v = [] :=
  violations_any rfl v

section Members

variable {properties : List (String × Schema)} {unknown : UnknownFields Schema} {name : String}

/-- A member is refused as undeclared, or has the faults that its schema finds. -/
theorem mem_memberViolations_iff {v : Json} {x : Violation} :
    x ∈ memberViolations properties unknown name v ↔
      x ∈ memberViolations (properties.map fun m => (m.1, anything)) (bareUnknown unknown) name v ∨
        ∃ s, memberSchema? properties unknown name = some s ∧ x ∈ s.violations v := by
  rw [memberSchema?]
  have hbare := Assoc.get?_map (fun _ => anything) name properties
  cases hget : Assoc.get? name properties with
  | some s =>
    rw [hget] at hbare
    rw [memberViolations_of_get?_eq_some hget, memberViolations_of_get?_eq_some hbare,
      violations_anything]
    simp
  | none =>
    rw [hget] at hbare
    rw [memberViolations_of_get?_eq_none hget, memberViolations_of_get?_eq_none hbare]
    cases unknown with
    | unset => simp [unknownSchema?, bareUnknown]
    | reject => simp [unknownSchema?, bareUnknown]
    | preserve => simp [unknownSchema?, bareUnknown]
    | validate values =>
      change x ∈ values.violations v ↔ x ∈ [] ∨ _
      simp [unknownSchema?]

variable {notes : Annotations} {required : List String}

/-- An object has the faults that its node finds, and those of its members. -/
theorem mem_violations_object_iff {members : List (String × Json)} {x : Violation} :
    x ∈ (object notes properties required unknown).violations (.obj members) ↔
      x ∈ (object notes properties required unknown).bare.violations (.obj members) ∨
        ∃ m ∈ members, ∃ s, memberSchema? properties unknown m.1 = some s ∧
          ∃ y ∈ s.violations m.2, y.beneath [m.1] = x := by
  rw [violations_object, bare, violations_object]
  simp only [List.mem_append, List.mem_flatMap, List.mem_map]
  constructor
  · rintro (h | h | ⟨m, hm, y, hy, rfl⟩)
    · exact .inl (.inl h)
    · exact .inl (.inr (.inl h))
    · rcases mem_memberViolations_iff.1 hy with hy | ⟨s, hs, hy⟩
      · exact .inl (.inr (.inr ⟨m, hm, y, hy, rfl⟩))
      · exact .inr ⟨m, hm, s, hs, y, hy, rfl⟩
  · rintro ((h | h | ⟨m, hm, y, hy, rfl⟩) | ⟨m, hm, s, hs, y, hy, rfl⟩)
    · exact .inl h
    · exact .inr (.inl h)
    · exact .inr (.inr ⟨m, hm, y, mem_memberViolations_iff.2 (.inl hy), rfl⟩)
    · exact .inr (.inr ⟨m, hm, y, mem_memberViolations_iff.2 (.inr ⟨s, hs, hy⟩), rfl⟩)

/-- An array has the faults that its node finds, and those of its elements. -/
theorem mem_violations_array_iff {items : Option Schema} {elements : List Json} {x : Violation} :
    x ∈ (array notes items).violations (.arr elements) ↔
      x ∈ (array notes items).bare.violations (.arr elements) ∨
        ∃ s, items = some s ∧ ∃ (i : Nat) (v : Json), elements[i]? = some v ∧
          ∃ y ∈ s.violations v, y.beneath [toString i] = x := by
  have hnone : ∀ v, elementViolations none v = [] := fun _ => rfl
  rw [violations_array, bare, violations_array]
  simp only [List.mem_append, List.mem_flatMap, List.mem_map, hnone, List.not_mem_nil, false_and,
    exists_false, and_false, or_false]
  refine or_congr_right ?_
  constructor
  · rintro ⟨⟨v, i⟩, he, y, hy, rfl⟩
    cases items with
    | none => cases hy
    | some s => exact ⟨s, rfl, i, v, List.mem_zipIdx_iff_getElem?.1 he, y, hy, rfl⟩
  · rintro ⟨s, rfl, i, v, hv, y, hy, rfl⟩
    exact ⟨(v, i), List.mem_zipIdx_iff_getElem?.2 hv, y, hy, rfl⟩

end Members

/-- What a single node finds wrong is wrong. -/
theorem mem_violations_of_bare {s : Schema} {v : Json} {x : Violation}
    (h : x ∈ s.bare.violations v) : x ∈ s.violations v := by
  cases s with
  | object notes properties required unknown =>
    cases v with
    | obj members => exact mem_violations_object_iff.2 (.inl h)
    | null | bool | num | str | arr => exact h
  | array notes items =>
    cases v with
    | arr elements => exact mem_violations_array_iff.2 (.inl h)
    | null | bool | num | str | obj => exact h
  | scalar notes type => exact h
  | any notes => exact h

/-! ### The walk -/

/-- What a node finds wrong at a visit is wrong with the value. -/
theorem Visits.beneath_mem_violations {s t : Schema} {v w : Json} {place : Pointer}
    (h : Visits s v place t w) {y : Violation} (hy : y ∈ t.bare.violations w) :
    y.beneath place ∈ s.violations v := by
  induction h with
  | root s v => exact mem_violations_of_bare hy
  | @member _ _ _ _ _ name _ _ _ place _ hvalue hs _ ih =>
    exact mem_violations_object_iff.2
      (.inr ⟨_, hvalue, _, hs, _, ih hy, y.beneath_beneath [name] place⟩)
  | @element _ _ i _ _ _ place _ hvalue _ ih =>
    exact mem_violations_array_iff.2
      (.inr ⟨_, rfl, i, _, hvalue, _, ih hy, y.beneath_beneath [toString i] place⟩)

/-- What is wrong with a value is found at a visit. -/
theorem exists_visits_of_mem_violations (s : Schema) : ∀ {v : Json} {x : Violation},
    x ∈ s.violations v → ∃ place t w, Visits s v place t w ∧
      ∃ y ∈ t.bare.violations w, y.beneath place = x := by
  induction s using Schema.induction with
  | object notes properties required unknown hproperties hunknown =>
    intro v x h
    cases v with
    | obj members =>
      rcases mem_violations_object_iff.1 h with h | ⟨m, hm, s, hs, y, hy, rfl⟩
      · exact ⟨[], _, _, .root _ _, x, h, rfl⟩
      · obtain ⟨place, t, w, hvisit, z, hz, rfl⟩ :
            ∃ place t w, Visits s m.2 place t w ∧
              ∃ z ∈ t.bare.violations w, z.beneath place = y := by
          rcases Option.or_eq_some_iff.1 hs with hget | ⟨-, hvalues⟩
          · exact hproperties _ (Assoc.mem_of_get?_eq_some hget) hy
          · cases unknown with
            | validate values => exact hunknown s (congrArg _ (Option.some.inj hvalues)) hy
            | unset | reject | preserve => cases hvalues
        exact ⟨m.1 :: place, t, w, .member hm hs hvisit, z, hz,
          (z.beneath_beneath [m.1] place).symm⟩
    | null | bool | num | str | arr => exact ⟨[], _, _, .root _ _, x, h, rfl⟩
  | array notes items hitems =>
    intro v x h
    cases v with
    | arr elements =>
      rcases mem_violations_array_iff.1 h with h | ⟨s, hs, i, v, hv, y, hy, rfl⟩
      · exact ⟨[], _, _, .root _ _, x, h, rfl⟩
      · obtain ⟨place, t, w, hvisit, z, hz, rfl⟩ := hitems s hs hy
        subst hs
        exact ⟨toString i :: place, t, w, .element hv hvisit, z, hz,
          (z.beneath_beneath [toString i] place).symm⟩
    | null | bool | num | str | obj => exact ⟨[], _, _, .root _ _, x, h, rfl⟩
  | scalar notes type => exact fun h => ⟨[], _, _, .root _ _, _, h, rfl⟩
  | any notes => exact fun h => ⟨[], _, _, .root _ _, _, h, rfl⟩

/-- The faults of a value are those that single nodes find at the visits. -/
theorem mem_violations_iff {s : Schema} {v : Json} {x : Violation} :
    x ∈ s.violations v ↔ ∃ place t w, Visits s v place t w ∧
      ∃ y ∈ t.bare.violations w, y.beneath place = x := by
  refine ⟨exists_visits_of_mem_violations s, ?_⟩
  rintro ⟨place, t, w, hvisit, y, hy, rfl⟩
  exact hvisit.beneath_mem_violations hy

/-- A value is accepted if no node finds anything wrong where it is visited. -/
theorem accepts_iff {s : Schema} {v : Json} :
    s.accepts v = true ↔ ∀ place t w, Visits s v place t w → t.bare.accepts w = true := by
  rw [accepts, List.isEmpty_iff, List.eq_nil_iff_forall_not_mem]
  constructor
  · intro h place t w hvisit
    refine List.isEmpty_iff.2 (List.eq_nil_iff_forall_not_mem.2 fun y hy => ?_)
    exact h _ (mem_violations_iff.2 ⟨place, t, w, hvisit, y, hy, rfl⟩)
  · intro h x hx
    obtain ⟨place, t, w, hvisit, y, hy, -⟩ := mem_violations_iff.1 hx
    exact List.eq_nil_iff_forall_not_mem.1 (List.isEmpty_iff.1 (h place t w hvisit)) y hy

/-! ### Listed values -/

theorem checkAllowed_eq_nil {s : Schema} {v : Json} (hv : v.isNull = false)
    (h : s.violations v = []) : checkAllowed s.notes [] v = [] := by
  have hcheck : s.check [] v = [] := by
    rw [violations, violationsAt, hv] at h
    exact h
  cases s with
  | object => exact (List.append_eq_nil_iff.1 hcheck).1
  | array => exact (List.append_eq_nil_iff.1 hcheck).1
  | scalar => exact (List.append_eq_nil_iff.1 hcheck).1
  | any => exact hcheck

/-- Null is accepted where a node is nullable, and where it has no type. -/
theorem violations_null_eq_nil_iff {s : Schema} :
    s.violations .null = [] ↔ s.notes.nullable = true ∨ ∃ notes, s = .any notes := by
  rw [violations_null]
  cases s with
  | any notes => exact iff_of_true rfl (.inr ⟨notes, rfl⟩)
  | object notes | array notes | scalar notes =>
    change (if notes.nullable = true then [] else [_]) = [] ↔ notes.nullable = true ∨ _
    cases notes.nullable <;> simp

/-- A value that a node accepts is one that it lists, if it lists any, or null. -/
theorem allowed_of_violations_eq_nil {s : Schema} {v : Json} (h : s.violations v = [])
    {allowed : List Json} (hallowed : s.notes.allowed = some allowed) :
    (∃ a ∈ allowed, (a == v) = true) ∨
      v = .null ∧ (s.notes.nullable = true ∨ ∃ notes, s = .any notes) := by
  cases hv : v.isNull with
  | true =>
    obtain rfl : v = .null := by cases v <;> first | rfl | cases hv
    exact .inr ⟨rfl, violations_null_eq_nil_iff.1 h⟩
  | false =>
    have hlisted := checkAllowed_eq_nil hv h
    rw [checkAllowed, hallowed] at hlisted
    dsimp only at hlisted
    split at hlisted
    · rename_i hany
      exact .inl (List.any_eq_true.1 hany)
    · cases hlisted

theorem exists_eq_any_of_bare {s : Schema} (h : ∃ notes, s.bare = .any notes) :
    ∃ notes, s = .any notes := by
  cases s with
  | any notes => exact ⟨notes, rfl⟩
  | object | array | scalar => exact nomatch h

/-- **Nodes that list values are visited with these, or with null.** Wherever the walk over a tree
and a value that it accepts visits a part of the value with a node that lists its values, the part
is one of these; or it is null, and the node is nullable or has no type. -/
theorem allowed_of_visits {s : Schema} {v : Json} (h : s.accepts v = true) {place : Pointer}
    {t : Schema} {w : Json} (hvisit : Visits s v place t w) {allowed : List Json}
    (hallowed : t.notes.allowed = some allowed) :
    (∃ a ∈ allowed, (a == w) = true) ∨
      w = .null ∧ (t.notes.nullable = true ∨ ∃ notes, t = .any notes) := by
  have hnothing := List.isEmpty_iff.1 (accepts_iff.1 h place t w hvisit)
  have hlisted := allowed_of_violations_eq_nil hnothing (t.notes_bare ▸ hallowed)
  rw [notes_bare] at hlisted
  exact hlisted.imp_right (.imp_right (.imp_right exists_eq_any_of_bare))

/-- Bookings of rooms, each of which is a lounge or a hall. -/
def bookings : Schema :=
  .record [("rooms", .arrayOf (Schema.string.withAllowed [.str "lounge", .str "hall"]))]

theorem allowed_of_visits_bookings :
    let booked := Json.obj [("rooms", .arr [.str "hall"])]
    bookings.accepts booked = true ∧
      Visits bookings booked ["rooms", "0"]
        (Schema.string.withAllowed [.str "lounge", .str "hall"]) (.str "hall") ∧
      ∃ a ∈ [Json.str "lounge", .str "hall"], (a == .str "hall") = true := by
  intro booked
  have haccepts : bookings.accepts booked = true := rfl
  have hvisit : Visits bookings booked ["rooms", "0"]
      (Schema.string.withAllowed [.str "lounge", .str "hall"]) (.str "hall") :=
    .member List.mem_cons_self rfl (.element (i := 0) rfl (.root _ _))
  rcases allowed_of_visits haccepts hvisit rfl with hlisted | ⟨hnull, -⟩
  · exact ⟨haccepts, hvisit, hlisted⟩
  · cases hnull

/-- The document of a node that lists a room and does not state its type. -/
def listedRoom : Json := .obj [("enum", .arr [.str "lounge"])]

/-- Null passes by the list of a node without a type, also where the node is not nullable. -/
theorem exists_accepts_null :
    ∃ s allowed, ofJson listedRoom = .ok s ∧ s.accepts .null = true ∧
      Visits s .null [] s .null ∧ s.notes.allowed = some allowed ∧
      (∀ a ∈ allowed, (a == .null) = false) ∧ s.notes.nullable = false :=
  ⟨.any { allowed := some [.str "lounge"], explicitType := false }, [.str "lounge"], rfl, rfl,
    .root _ _, rfl, List.forall_mem_singleton.2 rfl, rfl⟩

end PolicyEngine.Schema
