import Mathlib.Data.List.Forall2
import PolicyEngine.Proofs.Outcome
import PolicyEngine.Proofs.SortedMap
import PolicyEngine.Schema.Document

/-!
# Reading equal documents

Documents that are equal as values may differ in the sign of a zero. Reading a document as a schema
looks at the types of its parts, at strings and at booleans, and at no number. So of two equal
documents both are schemas or none is.

## Main definitions

* `PolicyEngine.Schema.Part.Alike` — parts of documents that are equal and read alike.

## Main results

* `PolicyEngine.Schema.readNode_alike` — nodes with like keywords are read alike.
* `PolicyEngine.Schema.ofJson_alike` — equal documents are read alike.
-/

namespace PolicyEngine

/-! ### Equal values -/

namespace Json

variable {a b : Json}

theorem isObject_eq_of_beq (h : a.beq b = true) : a.isObject = b.isObject := by
  cases a <;> cases b <;> first | rfl | cases h

theorem text?_eq_of_beq (h : a.beq b = true) : a.text? = b.text? := by
  cases a <;> cases b <;> first | rfl | cases h | skip
  rw [beq, beq_iff_eq] at h
  rw [h]

theorem elements?_of_beq (h : a.beq b = true) :
    Option.Rel (fun as bs => beqElements as bs = true) a.elements? b.elements? := by
  cases a <;> cases b <;> first | exact .none | cases h | skip
  exact .some h

theorem exists_obj_of_isObject (h : a.isObject = true) : ∃ members, a = .obj members := by
  cases a with
  | obj members => exact ⟨members, rfl⟩
  | null | bool | num | str | arr => cases h

/-- What equals an object is one with equal members. -/
theorem exists_obj_of_beq {as : List (String × Json)} (h : (Json.obj as).beq b = true) :
    ∃ bs, b = .obj bs ∧ beqMembers as bs = true := by
  cases b <;> first | cases h | skip
  exact ⟨_, rfl, h⟩

end Json

namespace Schema

open Outcome (Alike)

theorem bool?_eq_of_beq {a b : Json} (h : a.beq b = true) : bool? a = bool? b := by
  cases a <;> cases b <;> first | rfl | cases h | skip
  rw [Json.beq, beq_iff_eq] at h
  rw [h]

/-! ### Like parts -/

/-- Parts of two documents that are equal as values and read alike. -/
structure Part.Alike (p q : Part) : Prop where
  value : p.value.beq q.value = true
  schema : ∀ path, Outcome.Alike (fun _ _ => True) (p.schema path) (q.schema path)
  members : ∀ path, Outcome.Alike (fun _ _ => True) (p.members path) (q.members path)

/-- Members of two nodes that have the same names and are alike. -/
def PartsAlike (ps qs : List (String × Part)) : Prop :=
  List.Forall₂ (fun p q => p.1 = q.1 ∧ p.2.Alike q.2) ps qs

section Parts

variable {ps qs : List (String × Part)}

/-- Two nodes have no member of a name, or members that are alike. -/
theorem get?_alike (h : PartsAlike ps qs) (name : String) :
    (Assoc.get? name ps = none ∧ Assoc.get? name qs = none) ∨
      ∃ p q, Assoc.get? name ps = some p ∧ Assoc.get? name qs = some q ∧ p.Alike q := by
  induction h with
  | nil => exact .inl ⟨rfl, rfl⟩
  | @cons p q ps qs hpq _ ih =>
    rw [Assoc.get?_cons, Assoc.get?_cons, hpq.1]
    split
    · exact .inr ⟨p.2, q.2, rfl, rfl, hpq.2⟩
    · exact ih

theorem contains_eq_of_alike (h : PartsAlike ps qs) (name : String) :
    Assoc.contains name ps = Assoc.contains name qs := by
  rw [Assoc.contains, Assoc.contains]
  rcases get?_alike h name with ⟨hps, hqs⟩ | ⟨p, q, hps, hqs, -⟩
  · rw [hps, hqs]
  · rw [hps, hqs]
    rfl

/-- Keywords are read alike if equal values of them are. -/
theorem keyword?_alike (h : PartsAlike ps qs) {R : α → α → Prop} {read : Json → Option α}
    (hread : ∀ {a b : Json}, a.beq b = true → Option.Rel R (read a) (read b)) (path : Pointer)
    (name expected : String) :
    Alike (Option.Rel R) (keyword? ps path name expected read)
      (keyword? qs path name expected read) := by
  rw [keyword?, keyword?]
  rcases get?_alike h name with ⟨hps, hqs⟩ | ⟨p, q, hps, hqs, hpart⟩
  · rw [hps, hqs]
    exact .ok .none
  · have hvalue := hread hpart.value
    rw [hps, hqs]
    dsimp only
    generalize read p.value = x at hvalue ⊢
    generalize read q.value = y at hvalue ⊢
    cases hvalue with
    | none => exact .error
    | some hx => exact .ok (.some hx)

/-- Keywords of which equal values mean the same are read as the same. -/
theorem keyword?_alike_eq (h : PartsAlike ps qs) {read : Json → Option α}
    (hread : ∀ {a b : Json}, a.beq b = true → read a = read b) (path : Pointer)
    (name expected : String) :
    Alike Eq (keyword? ps path name expected read) (keyword? qs path name expected read) := by
  rw [keyword?, keyword?]
  rcases get?_alike h name with ⟨hps, hqs⟩ | ⟨p, q, hps, hqs, hpart⟩
  · rw [hps, hqs]
    exact .ok rfl
  · rw [hps, hqs]
    dsimp only
    rw [hread hpart.value]
    split
    · exact .ok rfl
    · exact .error

/-! ### Like nodes -/

theorem readRequired_alike {as bs : List Json} (h : Json.beqElements as bs = true) (path : Pointer)
    (i : Nat) : Alike (fun _ _ => True) (readRequired path i as) (readRequired path i bs) := by
  induction as generalizing bs i with
  | nil =>
    cases bs with
    | nil => exact .ok trivial
    | cons b bs => cases h
  | cons a as ih =>
    cases bs with
    | nil => cases h
    | cons b bs =>
      rw [Json.beqElements, Bool.and_eq_true] at h
      obtain ⟨hab, hrest⟩ := h
      cases a <;> cases b <;> first | exact .error | cases hab | skip
      exact (ih hrest (i + 1)).map fun _ => trivial

theorem readUnknown_alike (h : PartsAlike ps qs) (path : Pointer) (preserve : Bool) :
    Alike (fun _ _ => True) (readUnknown ps path preserve) (readUnknown qs path preserve) := by
  rw [readUnknown, readUnknown]
  split
  · exact .ok trivial
  · rcases get?_alike h "additionalProperties" with ⟨hps, hqs⟩ | ⟨p, q, hps, hqs, hpart⟩
    · rw [hps, hqs]
      exact .ok trivial
    · rw [hps, hqs]
      obtain ⟨hvalue, hschema, -⟩ := hpart
      obtain ⟨value, schema, members⟩ := p
      obtain ⟨value', schema', members'⟩ := q
      cases value <;> cases value' <;> first | exact .error | cases hvalue | skip
      · rename_i b b'
        cases b <;> cases b' <;> exact .ok trivial
      · exact (hschema _).map fun _ => trivial

theorem readProperties_alike (h : PartsAlike ps qs) (path : Pointer) :
    Alike (fun _ _ => True) (readProperties ps path) (readProperties qs path) := by
  rw [readProperties, readProperties]
  rcases get?_alike h "properties" with ⟨hps, hqs⟩ | ⟨p, q, hps, hqs, hpart⟩
  · rw [hps, hqs]
    exact .ok trivial
  · rw [hps, hqs]
    dsimp only
    rw [Json.isObject_eq_of_beq hpart.value]
    split
    · exact hpart.members _
    · exact .error

theorem readItems_alike (h : PartsAlike ps qs) (path : Pointer) :
    Alike (fun _ _ => True) (readItems ps path) (readItems qs path) := by
  rw [readItems, readItems]
  rcases get?_alike h "items" with ⟨hps, hqs⟩ | ⟨p, q, hps, hqs, hpart⟩
  · rw [hps, hqs]
    exact .ok trivial
  · rw [hps, hqs]
    obtain ⟨hvalue, hschema, -⟩ := hpart
    obtain ⟨value, schema, members⟩ := p
    obtain ⟨value', schema', members'⟩ := q
    cases value <;> cases value' <;> first | exact .error | cases hvalue | skip
    exact (hschema _).map fun _ => trivial

theorem readObject_alike (h : PartsAlike ps qs) (path : Pointer) (preserve : Bool)
    (notes notes' : Annotations) : Alike (fun _ _ => True) (readObject ps path preserve notes)
      (readObject qs path preserve notes') := by
  rw [readObject, readObject]
  refine (readProperties_alike h path).bind fun _ => ?_
  refine (keyword?_alike h Json.elements?_of_beq path "required" "an array").bind fun hnames => ?_
  refine Alike.bind (R := fun _ _ => True) ?_ fun _ => ?_
  · cases hnames with
    | none => exact readRequired_alike rfl path 0
    | some hnames => exact readRequired_alike hnames path 0
  · exact (readUnknown_alike h path preserve).bind fun _ => .ok trivial

theorem readArray_alike (h : PartsAlike ps qs) (path : Pointer) (notes notes' : Annotations) :
    Alike (fun _ _ => True) (readArray ps path notes) (readArray qs path notes') :=
  (readItems_alike h path).map fun _ => trivial

/-- Nodes with like keywords are read alike. -/
theorem readNode_alike (h : PartsAlike ps qs) (path : Pointer) :
    Alike (fun _ _ => True) (readNode ps path) (readNode qs path) := by
  rw [readNode, readNode]
  refine (keyword?_alike_eq h Json.text?_eq_of_beq path "type" "a string").bind ?_
  rintro type _ rfl
  refine (keyword?_alike_eq h bool?_eq_of_beq path preserveKeyword "a boolean").bind ?_
  rintro preserve _ rfl
  refine (keyword?_alike_eq h bool?_eq_of_beq path "nullable" "a boolean").bind ?_
  rintro nullable _ rfl
  refine (keyword?_alike_eq h Json.text?_eq_of_beq path "description" "a string").bind ?_
  rintro description _ rfl
  refine (keyword?_alike h Json.elements?_of_beq path "enum" "an array").bind fun _ => ?_
  dsimp only
  split
  · exact readObject_alike h path _ _ _
  · exact readArray_alike h path _ _
  · exact .ok trivial
  · exact .ok trivial
  · exact .ok trivial
  · exact .ok trivial
  · exact .error
  · rw [contains_eq_of_alike h "properties", contains_eq_of_alike h "additionalProperties",
      contains_eq_of_alike h "items"]
    split
    · exact readObject_alike h path _ _ _
    · split
      · exact readArray_alike h path _ _
      · exact .ok trivial

theorem readMembers_alike (h : PartsAlike ps qs) (path : Pointer) :
    Alike (fun _ _ => True) (readMembers ps path) (readMembers qs path) := by
  induction h with
  | nil => exact .ok trivial
  | @cons p q ps qs hpq _ ih =>
    rw [readMembers, readMembers, hpq.1]
    exact (hpq.2.schema _).bind fun _ => ih.bind fun _ => .ok trivial

end Parts

/-! ### Like documents -/

theorem value_part (a : Json) : (part a).value = a := by
  cases a <;> rfl

theorem parts_eq_map (l : List (String × Json)) : parts l = l.map fun m => (m.1, part m.2) := by
  induction l with
  | nil => rfl
  | cons m rest ih =>
    rw [parts, ih]
    rfl

theorem get?_parts (name : String) (l : List (String × Json)) :
    Assoc.get? name (parts l) = (Assoc.get? name l).map part := by
  rw [parts_eq_map]
  exact Assoc.get?_map part name l

theorem contains_parts (name : String) (l : List (String × Json)) :
    Assoc.contains name (parts l) = Assoc.contains name l := by
  rw [Assoc.contains, get?_parts, Option.isSome_map]
  rfl

/-- What is no object is no schema, and has no members. -/
theorem exists_error_of_not_isObject {a : Json} (h : a.isObject = false) (path : Pointer) :
    (∃ e, (part a).schema path = .error e) ∧ ∃ e, (part a).members path = .error e := by
  cases a with
  | obj members => simp [Json.isObject] at h
  | null => exact ⟨⟨_, rfl⟩, _, rfl⟩
  | bool value => exact ⟨⟨_, rfl⟩, _, rfl⟩
  | num value => exact ⟨⟨_, rfl⟩, _, rfl⟩
  | str value => exact ⟨⟨_, rfl⟩, _, rfl⟩
  | arr elements => exact ⟨⟨_, rfl⟩, _, rfl⟩

theorem part_alike_of_not_isObject {a b : Json} (ha : a.isObject = false)
    (h : a.beq b = true) : (part a).Alike (part b) := by
  have hb : b.isObject = false := by rw [← Json.isObject_eq_of_beq h, ha]
  refine ⟨by rwa [value_part, value_part], fun path => ?_, fun path => ?_⟩
  · obtain ⟨⟨e, he⟩, -⟩ := exists_error_of_not_isObject ha path
    obtain ⟨⟨e', he'⟩, -⟩ := exists_error_of_not_isObject hb path
    rw [he, he']
    exact .error
  · obtain ⟨-, e, he⟩ := exists_error_of_not_isObject ha path
    obtain ⟨-, e', he'⟩ := exists_error_of_not_isObject hb path
    rw [he, he']
    exact .error

mutual

/-- Parts of documents are alike if they are equal as values. -/
theorem part_alike : ∀ (a : Json) {b : Json}, a.beq b = true → (part a).Alike (part b)
  | .obj as, b, h => by
    obtain ⟨bs, rfl, hmembers⟩ := Json.exists_obj_of_beq h
    have hparts := parts_alike as hmembers
    exact ⟨h, readNode_alike hparts, readMembers_alike hparts⟩
  | .null, _, h => part_alike_of_not_isObject rfl h
  | .bool _, _, h => part_alike_of_not_isObject rfl h
  | .num _, _, h => part_alike_of_not_isObject rfl h
  | .str _, _, h => part_alike_of_not_isObject rfl h
  | .arr _, _, h => part_alike_of_not_isObject rfl h

theorem parts_alike : ∀ (as : List (String × Json)) {bs : List (String × Json)},
    Json.beqMembers as bs = true → PartsAlike (parts as) (parts bs)
  | [], [], _ => .nil
  | (k, a) :: as, (l, b) :: bs, h => by
    rw [Json.beqMembers, Bool.and_eq_true, Bool.and_eq_true, beq_iff_eq] at h
    exact .cons ⟨h.1.1, part_alike a h.1.2⟩ (parts_alike as h.2)

end

/-- Equal documents are read alike. -/
theorem ofJson_alike {a b : Json} (h : a.beq b = true) :
    Alike (fun _ _ => True) (ofJson a) (ofJson b) :=
  (part_alike a h).schema []

end Schema

end PolicyEngine
