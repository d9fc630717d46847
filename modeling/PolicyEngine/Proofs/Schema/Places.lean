import PolicyEngine.Proofs.Json.Pointer
import PolicyEngine.Proofs.Schema.Visits

/-!
# Where the faults of a value are

Every fault of a value is found at a visit, by a single node that looks at the visited part. It is
about this part, as when the part has another type, or about one of its members, when this is not
declared. The path of the fault is the place of the visit, followed in the latter case by the name
of the member; so it leads to what the fault is about.

## Main definitions

* `PolicyEngine.Schema.holdsType` — whether a value has the type of a node.
* `PolicyEngine.Schema.Violation.IsFaultOf` — the faults of a value that a single node finds, with
  what they are about.
* `PolicyEngine.Schema.Violation.IsAbout` — what the faults of a value are about.

## Main results

* `PolicyEngine.Schema.Visits.resolve?_eq` — the place of a visit leads to the visited part.
* `PolicyEngine.Schema.exists_isAbout` — the path of a fault leads to what it is about.
-/

namespace PolicyEngine.Schema

/-! ### Places of visits -/

/-- The place of a visit leads to the visited part. -/
theorem Visits.resolve?_eq {s t : Schema} {v w : Json} {place : Pointer} (h : Visits s v place t w)
    (hv : v.Canonical) : place.resolve? v = some w ∧ w.Canonical := by
  induction h with
  | root s v => exact ⟨rfl, hv⟩
  | @member _ _ _ _ members name value _ _ place _ hvalue _ _ ih =>
    have hstep : Pointer.step? name (.obj members) = some value :=
      hv.get?_eq_some_iff.2 hvalue
    rw [Pointer.resolve?, hstep]
    exact ih (hv.of_mem_members hvalue)
  | @element _ elements i value _ _ place _ hvalue _ ih =>
    have hstep : Pointer.step? (toString i) (.arr elements) = some value := by
      rw [Pointer.step?, Pointer.index?_toString]
      exact hvalue
    rw [Pointer.resolve?, hstep]
    exact ih (hv.of_mem_elements (List.mem_of_getElem? hvalue))

/-! ### Faults of single nodes -/

/-- Whether a value has the type of a node. -/
def holdsType : Schema → Json → Bool
  | .object .., v => v.isObject
  | .array .., v => v.elements?.isSome
  | .scalar _ type, v => type.holds v
  | .any _, _ => true

/-- The faults of a value that a single node finds, with what each is about: the value, or a member
of it that the node refuses. -/
inductive Violation.IsFaultOf : Schema → Json → Violation → Json → Prop where
  | null {s : Schema} (h : s.notes.nullable = false) : IsFaultOf s .null ⟨[], .null⟩ .null
  | notAllowed {s : Schema} {v : Json} {allowed : List Json} (h : s.notes.allowed = some allowed)
      (hv : ∀ a ∈ allowed, (a == v) = false) : IsFaultOf s v ⟨[], .notAllowed v⟩ v
  | wrongType {s : Schema} {v : Json} {expected : String} (h : s.typeName? = some expected)
      (hv : s.holdsType v = false) : IsFaultOf s v ⟨[], .wrongType expected v⟩ v
  | missingProperty {notes : Annotations} {properties : List (String × Schema)}
      {required : List String} {unknown : UnknownFields Schema} {members : List (String × Json)}
      {name : String} (h : name ∈ required) (hname : Assoc.contains name members = false) :
      IsFaultOf (.object notes properties required unknown) (.obj members)
        ⟨[], .missingProperty name⟩ (.obj members)
  | unknownField {notes : Annotations} {properties : List (String × Schema)}
      {required : List String} {unknown : UnknownFields Schema} {members : List (String × Json)}
      {name : String} {value : Json} (h : Assoc.get? name properties = none)
      (hunknown : unknown = .unset ∨ unknown = .reject) (hvalue : (name, value) ∈ members) :
      IsFaultOf (.object notes properties required unknown) (.obj members)
        ⟨[name], .unknownField⟩ value

theorem isFaultOf_of_mem_checkNull {s : Schema} {x : Violation} (h : x ∈ checkNull s []) :
    x.IsFaultOf s .null .null := by
  cases s with
  | any notes => cases h
  | object notes | array notes | scalar notes =>
    change x ∈ if notes.nullable = true then [] else [_] at h
    split at h
    · cases h
    · rename_i hnullable
      obtain rfl := List.mem_singleton.1 h
      exact .null (Bool.eq_false_iff.2 hnullable)

theorem isFaultOf_of_mem_checkAllowed {s : Schema} {v : Json} {x : Violation}
    (h : x ∈ checkAllowed s.notes [] v) : x.IsFaultOf s v v := by
  rw [checkAllowed] at h
  split at h
  · cases h
  · rename_i allowed hallowed
    split at h
    · cases h
    · rename_i hany
      obtain rfl := List.mem_singleton.1 h
      exact .notAllowed hallowed fun a ha =>
        Bool.eq_false_iff.2 fun ha' => hany (List.any_eq_true.2 ⟨a, ha, ha'⟩)

theorem isFaultOf_of_mem_checkRequired {notes : Annotations} {properties : List (String × Schema)}
    {required : List String} {unknown : UnknownFields Schema} {members : List (String × Json)}
    {x : Violation} (h : x ∈ checkRequired required [] members) :
    x.IsFaultOf (.object notes properties required unknown) (.obj members) (.obj members) := by
  obtain ⟨name, hname, rfl⟩ := List.mem_map.1 h
  obtain ⟨hrequired, habsent⟩ := List.mem_filter.1 hname
  exact .missingProperty hrequired (Bool.not_eq_true' _ ▸ habsent)

/-- A node refuses members of an object only as undeclared, if it leaves their values to others. -/
theorem eq_unknownField_of_mem_memberViolations {properties : List (String × Schema)}
    {unknown : UnknownFields Schema} {name : String} {v : Json} {x : Violation}
    (h : x ∈ memberViolations (properties.map fun m => (m.1, anything)) (bareUnknown unknown)
      name v) :
    Assoc.get? name properties = none ∧ (unknown = .unset ∨ unknown = .reject) ∧
      x = ⟨[], .unknownField⟩ := by
  have hbare := Assoc.get?_map (fun _ => anything) name properties
  cases hget : Assoc.get? name properties with
  | some s =>
    rw [hget] at hbare
    rw [memberViolations_of_get?_eq_some hbare, violations_anything] at h
    cases h
  | none =>
    rw [hget] at hbare
    rw [memberViolations_of_get?_eq_none hbare] at h
    cases unknown with
    | unset => exact ⟨rfl, .inl rfl, List.mem_singleton.1 h⟩
    | reject => exact ⟨rfl, .inr rfl, List.mem_singleton.1 h⟩
    | preserve => cases h
    | validate values => cases h

/-- A value of another type than the node has this fault, besides that of not being listed. -/
theorem isFaultOf_of_mem_append_wrongType {s : Schema} {v : Json} {expected : String}
    {x : Violation} (hs : s.typeName? = some expected) (hv : s.holdsType v = false)
    (h : x ∈ checkAllowed s.notes [] v ++ [⟨[], .wrongType expected v⟩]) : x.IsFaultOf s v v := by
  rcases List.mem_append.1 h with hallowed | htype
  · exact isFaultOf_of_mem_checkAllowed hallowed
  · obtain rfl := List.mem_singleton.1 htype
    exact .wrongType hs hv

/-- What a single node finds wrong with a value that is not null, with what it is about. -/
theorem exists_isFaultOf_of_mem_check {s : Schema} {v : Json} {x : Violation}
    (hnull : v.isNull = false) (h : x ∈ s.bare.check [] v) : ∃ w, x.IsFaultOf s v w := by
  have hx : x ∈ s.bare.violations v := by
    rw [violations, violationsAt, hnull]
    exact h
  cases s with
  | any notes => exact ⟨v, isFaultOf_of_mem_checkAllowed h⟩
  | scalar notes type =>
    rw [bare, check] at h
    dsimp only at h
    cases hholds : type.holds v with
    | true =>
      rw [hholds, if_pos rfl, List.append_nil] at h
      exact ⟨v, isFaultOf_of_mem_checkAllowed h⟩
    | false =>
      rw [hholds, if_neg Bool.false_ne_true] at h
      exact ⟨v, isFaultOf_of_mem_append_wrongType rfl hholds h⟩
  | array notes items =>
    cases v with
    | arr elements =>
      rw [bare, violations_array] at hx
      rcases List.mem_append.1 hx with hallowed | helement
      · exact ⟨_, isFaultOf_of_mem_checkAllowed (s := .array notes items) hallowed⟩
      · obtain ⟨_, -, hx⟩ := List.mem_flatMap.1 helement
        cases hx
    | null | bool | num | str | obj => exact ⟨_, isFaultOf_of_mem_append_wrongType rfl rfl h⟩
  | object notes properties required unknown =>
    cases v with
    | obj members =>
      rw [bare, violations_object] at hx
      rcases List.mem_append.1 hx with hallowed | hx
      · exact ⟨_, isFaultOf_of_mem_checkAllowed
          (s := .object notes properties required unknown) hallowed⟩
      · rcases List.mem_append.1 hx with hrequired | hmember
        · exact ⟨_, isFaultOf_of_mem_checkRequired hrequired⟩
        · obtain ⟨m, hm, hx⟩ := List.mem_flatMap.1 hmember
          obtain ⟨y, hy, rfl⟩ := List.mem_map.1 hx
          obtain ⟨hdeclared, hunknown, rfl⟩ := eq_unknownField_of_mem_memberViolations hy
          exact ⟨m.2, .unknownField hdeclared hunknown hm⟩
    | null | bool | num | str | arr => exact ⟨_, isFaultOf_of_mem_append_wrongType rfl rfl h⟩

/-- What a single node finds wrong, with what it is about. -/
theorem exists_isFaultOf {s : Schema} {v : Json} {x : Violation} (h : x ∈ s.bare.violations v) :
    ∃ w, x.IsFaultOf s v w := by
  cases hnull : v.isNull with
  | true =>
    obtain rfl : v = .null := by cases v <;> first | rfl | cases hnull
    have hs : x ∈ s.violations .null := mem_violations_of_bare h
    exact ⟨_, isFaultOf_of_mem_checkNull (s.violations_null ▸ hs)⟩
  | false =>
    refine exists_isFaultOf_of_mem_check hnull ?_
    rw [violations, violationsAt, hnull] at h
    exact h

/-- From a value the path of a fault that a single node finds leads to what the fault is about. -/
theorem Violation.IsFaultOf.resolve?_eq {s : Schema} {v w : Json} {x : Violation}
    (h : x.IsFaultOf s v w) (hv : v.Canonical) : x.path.resolve? v = some w := by
  cases h with
  | null | notAllowed | wrongType | missingProperty => rfl
  | @unknownField _ _ _ _ members name _ _ _ hvalue =>
    have hstep : Pointer.step? name (.obj members) = some w := hv.get?_eq_some_iff.2 hvalue
    rw [Pointer.resolve?, hstep]
    rfl

/-! ### Faults of values -/

/-- What a fault of a value is about, at the visit where it is found. -/
def Violation.IsAbout (s : Schema) (v : Json) (x : Violation) (part : Json) : Prop :=
  ∃ place t w, Visits s v place t w ∧ ∃ y : Violation, y.IsFaultOf t w part ∧ y.beneath place = x

/-- The path of a fault leads to what the fault is about. -/
theorem exists_isAbout {s : Schema} {v : Json} (hv : v.Canonical) {x : Violation}
    (h : x ∈ s.violations v) : ∃ part, x.IsAbout s v part ∧ x.path.resolve? v = some part := by
  obtain ⟨place, t, w, hvisit, y, hy, rfl⟩ := mem_violations_iff.1 h
  obtain ⟨part, hpart⟩ := exists_isFaultOf hy
  obtain ⟨hplace, hw⟩ := hvisit.resolve?_eq hv
  refine ⟨part, ⟨place, t, w, hvisit, y, hpart, rfl⟩, ?_⟩
  change (place ++ y.path).resolve? v = some part
  rw [Pointer.resolve?_append, hplace]
  exact hpart.resolve?_eq hw

end PolicyEngine.Schema
