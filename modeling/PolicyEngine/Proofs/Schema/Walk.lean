import Mathlib.Data.List.Basic
import PolicyEngine.Proofs.SortedMap
import PolicyEngine.Schema.Validate

/-!
# What is wrong with a value and with its parts

A value is checked by walking it together with a tree, and the walk carries along the place where it
is. That is all it carries: a part of a value has the same faults wherever it stands, at places that
begin with its own. So what is wrong with a value is what is wrong at its root, and what is wrong
with its members or its elements as values of their own.

## Main definitions

* `PolicyEngine.Schema.Violation.beneath` — a fault of a part as a fault of the whole.
* `PolicyEngine.Schema.memberViolations`, `PolicyEngine.Schema.elementViolations` — what is wrong
  with a member of an object, and with an element of an array, as values of their own.

## Main results

* `PolicyEngine.Schema.isRelative_violationsAt` — a value has the same faults at every place.
* `PolicyEngine.Schema.violations_object`, `PolicyEngine.Schema.violations_array` — what is wrong
  with an object and with an array.
-/

namespace PolicyEngine.Schema

/-! ### Places -/

/-- A fault of the part at a place as a fault of the whole. -/
def Violation.beneath (place : Pointer) (v : Violation) : Violation :=
  { v with path := place ++ v.path }

@[simp]
theorem Violation.beneath_mk (place path : Pointer) (fault : Violation.Fault) :
    Violation.beneath place ⟨path, fault⟩ = ⟨place ++ path, fault⟩ := rfl

theorem Violation.beneath_beneath (p q : Pointer) (v : Violation) :
    (v.beneath q).beneath p = v.beneath (p ++ q) :=
  congrArg (Violation.mk · v.fault) (List.append_assoc p q v.path).symm

/-- A check that uses the place of a value only to say where its faults are. -/
def IsRelative (check : Check) : Prop :=
  ∀ place value, check place value = (check [] value).map (Violation.beneath place)

namespace IsRelative

variable {c d : Check}

theorem append (hc : IsRelative c) (hd : IsRelative d) :
    IsRelative fun place value => c place value ++ d place value := fun place value => by
  dsimp only
  rw [hc place, hd place, List.map_append]

/-- A single fault at the place itself. -/
theorem fault (fault : Json → Violation.Fault) :
    IsRelative fun place value => [⟨place, fault value⟩] := fun place value => by
  rw [List.map_singleton, Violation.beneath_mk, List.append_nil]

theorem nothing : IsRelative fun _ _ => [] := fun _ _ => rfl

theorem ite (p : Json → Bool) (hc : IsRelative c) (hd : IsRelative d) :
    IsRelative fun place value => if p value then c place value else d place value :=
  fun place value => by
    dsimp only
    split
    · exact hc place value
    · exact hd place value

end IsRelative

theorem isRelative_checkNull (s : Schema) : IsRelative fun place _ => checkNull s place := by
  cases s with
  | any notes => exact .nothing
  | object notes => exact .ite (fun _ => notes.nullable) .nothing (.fault _)
  | array notes => exact .ite (fun _ => notes.nullable) .nothing (.fault _)
  | scalar notes => exact .ite (fun _ => notes.nullable) .nothing (.fault _)

theorem isRelative_checkAllowed (notes : Annotations) : IsRelative (checkAllowed notes) := by
  intro place value
  rw [checkAllowed, checkAllowed]
  cases notes.allowed with
  | none => rfl
  | some allowed => exact IsRelative.ite (fun v => allowed.any (· == v)) .nothing (.fault _) ..

theorem checkRequired_eq_map (required : List String) (place : Pointer)
    (members : List (String × Json)) : checkRequired required place members =
      (checkRequired required [] members).map (Violation.beneath place) := by
  rw [checkRequired, checkRequired, List.map_map]
  refine List.map_congr_left fun name _ => ?_
  rw [Function.comp_apply, Violation.beneath_mk, List.append_nil]

/-! ### Members and elements -/

/-- The checks of declared properties are those of their schemas. -/
theorem checkProperties_eq_map (properties : List (String × Schema)) :
    checkProperties properties = properties.map fun m => (m.1, m.2.violationsAt) := by
  induction properties with
  | nil => rfl
  | cons m rest ih =>
    rw [checkProperties, ih]
    rfl

/-- The check of a member of an object. -/
def checkMember (properties : List (String × Schema)) (unknown : UnknownFields Schema)
    (name : String) : Check :=
  ((Assoc.get? name properties).map violationsAt).getD (checkUnknown unknown)

/-- What is wrong with a member of an object as a value of its own. -/
def memberViolations (properties : List (String × Schema)) (unknown : UnknownFields Schema)
    (name : String) (value : Json) : List Violation :=
  checkMember properties unknown name [] value

/-- What is wrong with an element of an array as a value of its own. -/
def elementViolations (items : Option Schema) (value : Json) : List Violation :=
  checkItems items [] value

theorem checkMembers_eq (properties : List (String × Schema)) (unknown : UnknownFields Schema)
    (place : Pointer) (members : List (String × Json)) :
    checkMembers (checkProperties properties) (checkUnknown unknown) place members =
      members.flatMap fun m => checkMember properties unknown m.1 (place ++ [m.1]) m.2 := by
  simp only [checkMembers, checkMember, checkProperties_eq_map, Assoc.get?_map]

theorem checkElements_eq (check : Check) (place : Pointer) (i : Nat) (elements : List Json) :
    checkElements check place i elements =
      (elements.zipIdx i).flatMap fun e => check (place ++ [toString e.2]) e.1 := by
  induction elements generalizing i with
  | nil => rfl
  | cons v rest ih => rw [checkElements, ih, List.zipIdx_cons, List.flatMap_cons]

section Children

variable {properties : List (String × Schema)} {unknown : UnknownFields Schema}
  {items : Option Schema}

theorem isRelative_checkMember (hproperties : ∀ m ∈ properties, IsRelative m.2.violationsAt)
    (hunknown : ∀ values, unknown = .validate values → IsRelative values.violationsAt)
    (name : String) : IsRelative (checkMember properties unknown name) := by
  rw [checkMember]
  cases hget : Assoc.get? name properties with
  | some s => exact hproperties _ (Assoc.mem_of_get?_eq_some hget)
  | none =>
    cases unknown with
    | unset => exact .fault _
    | reject => exact .fault _
    | preserve => exact .nothing
    | validate values => exact hunknown values rfl

theorem isRelative_checkItems (hitems : ∀ s, items = some s → IsRelative s.violationsAt) :
    IsRelative (checkItems items) := by
  cases items with
  | none => exact .nothing
  | some s => exact hitems s rfl

/-- What is wrong with the members of an object, from what is wrong with each. -/
theorem checkMembers_eq_flatMap
    (h : ∀ name, IsRelative (checkMember properties unknown name)) (place : Pointer)
    (members : List (String × Json)) :
    checkMembers (checkProperties properties) (checkUnknown unknown) place members =
      members.flatMap fun m => (memberViolations properties unknown m.1 m.2).map
        (Violation.beneath (place ++ [m.1])) := by
  rw [checkMembers_eq]
  exact List.flatMap_congr fun m _ => h m.1 _ m.2

/-- What is wrong with the elements of an array, from what is wrong with each. -/
theorem checkElements_eq_flatMap (h : IsRelative (checkItems items)) (place : Pointer)
    (elements : List Json) : checkElements (checkItems items) place 0 elements =
      elements.zipIdx.flatMap fun e => (elementViolations items e.1).map
        (Violation.beneath (place ++ [toString e.2])) := by
  rw [checkElements_eq]
  exact List.flatMap_congr fun e _ => h _ e.1

/-! ### Nodes -/

variable {notes : Annotations} {required : List String}

theorem isRelative_check_object
    (h : ∀ name, IsRelative (checkMember properties unknown name)) :
    IsRelative (check (.object notes properties required unknown)) := by
  refine (isRelative_checkAllowed notes).append fun place value => ?_
  cases value with
  | obj members =>
    change checkRequired required place members ++ checkMembers _ _ place members =
      (checkRequired required [] members ++ checkMembers _ _ [] members).map _
    rw [checkRequired_eq_map, checkMembers_eq_flatMap h, checkMembers_eq_flatMap h,
      List.map_append, List.map_flatMap]
    simp only [List.map_map, Function.comp_def, Violation.beneath_beneath, List.nil_append]
  | null | bool | num | str | arr => exact IsRelative.fault _ place _

theorem isRelative_check_array (h : IsRelative (checkItems items)) :
    IsRelative (check (.array notes items)) := by
  refine (isRelative_checkAllowed notes).append fun place value => ?_
  cases value with
  | arr elements =>
    change checkElements _ place 0 elements = (checkElements _ [] 0 elements).map _
    rw [checkElements_eq_flatMap h, checkElements_eq_flatMap h, List.map_flatMap]
    simp only [List.map_map, Function.comp_def, Violation.beneath_beneath, List.nil_append]
  | null | bool | num | str | obj => exact IsRelative.fault _ place _

end Children

/-- The walk over a tree uses the place of a value only to say where its faults are. -/
theorem isRelative_violationsAt (s : Schema) : IsRelative s.violationsAt := by
  induction s using Schema.induction with
  | object notes properties required unknown hproperties hunknown =>
    exact .ite Json.isNull (isRelative_checkNull _)
      (isRelative_check_object (isRelative_checkMember hproperties hunknown))
  | array notes items hitems =>
    exact .ite Json.isNull (isRelative_checkNull _)
      (isRelative_check_array (isRelative_checkItems hitems))
  | scalar notes type =>
    exact .ite Json.isNull (isRelative_checkNull _)
      ((isRelative_checkAllowed notes).append (.ite type.holds .nothing (.fault _)))
  | any notes => exact .ite Json.isNull (isRelative_checkNull _) (isRelative_checkAllowed notes)

/-! ### Values -/

theorem violations_null (s : Schema) : s.violations .null = checkNull s [] := rfl

/-- A node of any type finds nothing wrong unless it lists values. -/
theorem violations_any {notes : Annotations} (h : notes.allowed = none) (value : Json) :
    (any notes).violations value = [] := by
  have hcheck : checkAllowed notes [] value = [] := by rw [checkAllowed, h]
  change (if value.isNull then [] else checkAllowed notes [] value) = []
  rw [hcheck, ite_self]

section Values

variable {notes : Annotations} {properties : List (String × Schema)} {required : List String}
  {unknown : UnknownFields Schema}

/-- What is wrong with an object: at its root, and with its members in their order. -/
theorem violations_object (members : List (String × Json)) :
    (object notes properties required unknown).violations (.obj members) =
      checkAllowed notes [] (.obj members) ++ (checkRequired required [] members ++
        members.flatMap fun m => (memberViolations properties unknown m.1 m.2).map
          (Violation.beneath [m.1])) := by
  change _ ++ (_ ++ checkMembers _ _ [] members) = _
  rw [checkMembers_eq_flatMap]
  · rfl
  · exact isRelative_checkMember (fun m _ => isRelative_violationsAt m.2)
      fun values _ => isRelative_violationsAt values

/-- What is wrong with an array: at its root, and with its elements in their order. -/
theorem violations_array (items : Option Schema) (elements : List Json) :
    (array notes items).violations (.arr elements) =
      checkAllowed notes [] (.arr elements) ++ elements.zipIdx.flatMap fun e =>
        (elementViolations items e.1).map (Violation.beneath [toString e.2]) := by
  change _ ++ checkElements _ [] 0 elements = _
  rw [checkElements_eq_flatMap]
  · rfl
  · exact isRelative_checkItems fun s _ => isRelative_violationsAt s

variable {name : String}

theorem memberViolations_of_get?_eq_some {s : Schema} (h : Assoc.get? name properties = some s)
    (value : Json) : memberViolations properties unknown name value = s.violations value := by
  rw [memberViolations, checkMember, h]
  rfl

theorem memberViolations_of_get?_eq_none (h : Assoc.get? name properties = none) (value : Json) :
    memberViolations properties unknown name value = checkUnknown unknown [] value := by
  rw [memberViolations, checkMember, h]
  rfl

end Values

end PolicyEngine.Schema
