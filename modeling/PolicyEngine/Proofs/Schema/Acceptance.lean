import PolicyEngine.Proofs.Schema.Resolution

/-!
# The values that built schemas accept

A schema that is put together from strings, arrays and objects accepts exactly the values of its
shape: arrays of what the elements may be, and objects with no members but the declared ones, each
of which is what it is declared to be. Null is none of these values, so a member that is there has
its shape and does not stand for an absent one.

## Main results

* `PolicyEngine.Schema.accepts_string_iff`, `PolicyEngine.Schema.accepts_listed_iff` — strings, and
  those of a list.
* `PolicyEngine.Schema.accepts_arrayOf_iff`, `PolicyEngine.Schema.accepts_mapOf_iff` — arrays, and
  objects with members of one shape.
* `PolicyEngine.Schema.accepts_record_iff` — objects with declared members.
-/

namespace PolicyEngine.Schema

variable {v : Json}

theorem accepts_eq_true_iff {s : Schema} : s.accepts v = true ↔ s.violations v = [] :=
  List.isEmpty_iff

/-- A strictly resolved tree accepts what the tree accepts. -/
@[simp]
theorem accepts_resolve_false (s : Schema) (v : Json) :
    (s.resolve false).accepts v = s.accepts v := by
  rw [accepts, accepts, violations_resolve_false]

/-! ### Strings -/

/-- A scalar that is not nullable accepts the allowed values of its type. -/
theorem accepts_scalar_iff {notes : Annotations} {type : ScalarType}
    (hnullable : notes.nullable = false) : (scalar notes type).accepts v = true ↔
      checkAllowed notes [] v = [] ∧ type.holds v = true := by
  rw [accepts_eq_true_iff]
  by_cases hnull : v.isNull = true
  · obtain rfl : v = .null := by cases v <;> simp_all [Json.isNull]
    have hholds : type.holds .null = false := by cases type <;> rfl
    simp [violations_null, checkNull, Schema.notes, hnullable, hholds]
  · simp [violations, violationsAt, hnull, check]

@[simp]
theorem holds_string_iff : ScalarType.string.holds v = true ↔ ∃ text, v = .str text := by
  cases v <;> simp [ScalarType.holds]

@[simp]
theorem accepts_string_iff : string.accepts v = true ↔ ∃ text, v = .str text := by
  simp [string, accepts_scalar_iff, checkAllowed]

/-- Of the strings those of the list are accepted, and nothing else. -/
@[simp]
theorem accepts_listed_iff (texts : List String) :
    (string.withAllowed (texts.map .str)).accepts v = true ↔ ∃ text ∈ texts, v = .str text := by
  have hbeq : ∀ a b, (Json.str a == Json.str b) = (a == b) := fun _ _ => rfl
  change (scalar { allowed := some (texts.map .str) } .string).accepts v = true ↔ _
  rw [accepts_scalar_iff rfl, holds_string_iff]
  constructor
  · rintro ⟨hallowed, text, rfl⟩
    refine ⟨text, ?_, rfl⟩
    simpa [checkAllowed, hbeq] using hallowed
  · rintro ⟨text, htext, rfl⟩
    simp [checkAllowed, hbeq, htext]

/-! ### Arrays and objects -/

/-- Arrays are accepted whose elements all are. -/
@[simp]
theorem accepts_arrayOf_iff {items : Schema} : (arrayOf items).accepts v = true ↔
    ∃ elements, v = .arr elements ∧ ∀ e ∈ elements, items.accepts e = true := by
  have harr : ∀ elements, (arrayOf items).accepts (.arr elements) = true ↔
      ∀ e ∈ elements, items.accepts e = true := by
    intro elements
    rw [accepts_eq_true_iff, arrayOf, violations_array]
    change List.flatMap _ _ = [] ↔ _
    simp only [List.flatMap_eq_nil_iff, List.map_eq_nil_iff, accepts_eq_true_iff]
    constructor
    · intro h e he
      obtain ⟨i, hi, rfl⟩ := List.getElem_of_mem he
      exact h (elements[i], i) (List.mk_mem_zipIdx_iff_getElem?.2 (List.getElem?_eq_getElem hi))
    · rintro h ⟨e, i⟩ he
      exact h e (List.fst_mem_of_mem_zipIdx he)
  constructor
  · intro h
    cases v with
    | arr elements => exact ⟨elements, rfl, (harr elements).1 h⟩
    | null | bool | num | str | obj => cases h
  · rintro ⟨elements, rfl, h⟩
    exact (harr elements).2 h

/-- An object node that lists no values and is not nullable accepts objects with the required
members, of which it accepts each. -/
theorem accepts_object_iff {properties : List (String × Schema)} {required : List String}
    {unknown : UnknownFields Schema} :
    (object {} properties required unknown).accepts v = true ↔
      ∃ members, v = .obj members ∧ (∀ name ∈ required, Assoc.contains name members = true) ∧
        ∀ m ∈ members, memberViolations properties unknown m.1 m.2 = [] := by
  have hobj : ∀ members,
      (object {} properties required unknown).accepts (.obj members) = true ↔
        (∀ name ∈ required, Assoc.contains name members = true) ∧
          ∀ m ∈ members, memberViolations properties unknown m.1 m.2 = [] := by
    intro members
    rw [accepts_eq_true_iff, violations_object]
    simp [checkAllowed, checkRequired]
  constructor
  · intro h
    cases v with
    | obj members => exact ⟨members, rfl, (hobj members).1 h⟩
    | null | bool | num | str | arr => cases h
  · rintro ⟨members, rfl, h⟩
    exact (hobj members).2 h

/-- Objects are accepted whose members all are. -/
@[simp]
theorem accepts_mapOf_iff {values : Schema} : (mapOf values).accepts v = true ↔
    ∃ members, v = .obj members ∧ ∀ m ∈ members, values.accepts m.2 = true := by
  rw [mapOf, accepts_object_iff]
  simp only [accepts_eq_true_iff, List.not_mem_nil, false_imp_iff, implies_true, true_and]
  rfl

/-- Objects are accepted that have the required members and no undeclared ones, each of them what it
is declared to be. -/
theorem accepts_record_iff {properties : List (String × Schema)} {required : List String}
    (hproperties : (properties.map Prod.fst).Nodup) :
    ((record properties).withRequired required).accepts v = true ↔
      ∃ members, v = .obj members ∧ (∀ name ∈ required, Assoc.contains name members = true) ∧
        ∀ m ∈ members, ∃ s, Assoc.get? m.1 properties = some s ∧ s.accepts m.2 = true := by
  change (object {} (Assoc.ofList properties) ([] ++ required) .unset).accepts v = true ↔ _
  rw [accepts_object_iff]
  have hmember : ∀ name w, memberViolations (Assoc.ofList properties) .unset name w = [] ↔
      ∃ s, Assoc.get? name properties = some s ∧ s.accepts w = true := by
    intro name w
    cases hget : Assoc.get? name (Assoc.ofList properties) with
    | some s =>
      rw [memberViolations_of_get?_eq_some hget, ← Assoc.get?_ofList hproperties, hget]
      simp [accepts_eq_true_iff]
    | none =>
      rw [memberViolations_of_get?_eq_none hget, ← Assoc.get?_ofList hproperties, hget]
      simp [checkUnknown]
  simp only [hmember, List.nil_append]

section Members

variable {properties : List (String × Schema)} (required : List String)
  (hproperties : (properties.map Prod.fst).Nodup)
  (h : ((record properties).withRequired required).accepts v = true) {key : String} {w : Json}

include hproperties h

/-- A member of an accepted object is declared. -/
theorem exists_declared_of_accepts (hw : v.get? key = some w) :
    ∃ s, Assoc.get? key properties = some s ∧ s.accepts w = true := by
  obtain ⟨members, rfl, -, hmembers⟩ := (accepts_record_iff hproperties).1 h
  exact hmembers (key, w) (Assoc.mem_of_get?_eq_some hw)

/-- A member of an accepted object is what it is declared to be. -/
theorem accepts_of_declared {s : Schema} (hs : Assoc.get? key properties = some s)
    (hw : v.get? key = some w) : s.accepts w = true := by
  obtain ⟨s', hs', haccepts⟩ := exists_declared_of_accepts required hproperties h hw
  rwa [← Option.some.inj (hs.symm.trans hs')] at haccepts

/-- A required member of an accepted object is there. -/
theorem exists_get?_of_accepts (hkey : key ∈ required) : ∃ w, v.get? key = some w := by
  obtain ⟨members, rfl, hrequired, -⟩ := (accepts_record_iff hproperties).1 h
  exact Option.isSome_iff_exists.1 (hrequired key hkey)

end Members

end PolicyEngine.Schema
