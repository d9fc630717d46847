import PolicyEngine.Proofs.Json.Pointer
import PolicyEngine.Proofs.Schema.Grammar

/-!
# Where documents are malformed

A document that is no schema is refused with a place. The reader goes down the document along the
keywords that name schemas, and along the members of `properties`, and adds to the place the steps
by which it goes. So the place leads to the part of the document that the refusal is about, such as
the value of a keyword with another form, or the element of `required` that is no string.

## Main definitions

* `PolicyEngine.Schema.Malformed.Reason.IsAbout` — the parts of documents that are refused for a
  reason.
* `PolicyEngine.Schema.Locates` — an outcome whose error leads to what it is about.

## Main results

* `PolicyEngine.Schema.locates_readNode` — reading a node locates its faults if reading the
  documents beneath it does.
* `PolicyEngine.Schema.locates_ofJson` — so does reading a document.
-/

namespace PolicyEngine.Schema

/-! ### Located faults -/

/-- The parts of documents that are refused for a reason. -/
inductive Malformed.Reason.IsAbout : Malformed.Reason → Json → Prop where
  | notAnObject {found : Json} (h : found.isObject = false) : IsAbout (.notAnObject found) found
  | keyword {name expected : String} {found : Json} : IsAbout (.keyword name expected found) found
  | unknownType {name : String} (h : name ∉ typeNames) : IsAbout (.unknownType name) (.str name)
  | requiredName {found : Json} (h : found.text? = none) : IsAbout (.requiredName found) found
  | tupleItems {elements : List Json} : IsAbout .tupleItems (.arr elements)

/-- An outcome whose error, if it is one, leads to what it is about, from a document that stands
at a place. -/
def Locates {α : Type} (place : Pointer) (document : Json) (x : Except Malformed α) : Prop :=
  ∀ m, x = .error m → ∃ route part, m.path = place ++ route ∧
    route.resolve? document = some part ∧ m.reason.IsAbout part

namespace Locates

variable {α β : Type} {place : Pointer} {document : Json} {x : Except Malformed α}

theorem ok (a : α) : Locates place document (.ok a : Except Malformed α) :=
  fun _ h => nomatch h

/-- A fault of the document itself. -/
theorem error {reason : Malformed.Reason} (h : reason.IsAbout document) :
    Locates place document (.error ⟨place, reason⟩ : Except Malformed α) := by
  intro m hm
  obtain rfl := Except.error.inj hm
  exact ⟨[], document, (List.append_nil place).symm, rfl, h⟩

/-- A fault of a part is one of the document. -/
theorem of_step {step : String} {part : Json} (hstep : Pointer.step? step document = some part)
    (h : Locates (place ++ [step]) part x) : Locates place document x := by
  intro m hm
  obtain ⟨route, w, hpath, hw, hreason⟩ := h m hm
  refine ⟨step :: route, w, ?_, ?_, hreason⟩
  · rw [hpath, List.append_assoc, List.singleton_append]
  · rw [Pointer.resolve?, hstep]
    exact hw

theorem bind (h : Locates place document x) {f : α → Except Malformed β}
    (hnext : ∀ a, x = .ok a → Locates place document (f a)) : Locates place document (x >>= f) := by
  cases x with
  | error m => exact fun m' hm' => h m' (congrArg _ (Except.error.inj hm'))
  | ok a => exact hnext a rfl

theorem map (h : Locates place document x) (f : α → β) : Locates place document (x.map f) :=
  fun m hm => h m (Outcome.map_eq_error.1 hm)

end Locates

/-! ### Keywords -/

/-- A document of which reading it, as a schema and as an object of schemas, locates the faults. -/
structure Located (document : Json) : Prop where
  schema : ∀ place, Locates place document ((part document).schema place)
  members : ∀ place, Locates place document ((part document).members place)

section Nodes

variable {members : List (String × Json)} {path : Pointer}

theorem locates_keyword? {α : Type} (name expected : String) (read : Json → Option α) :
    Locates path (.obj members) (keyword? (parts members) path name expected read) := by
  rw [keyword?, get?_parts]
  cases hget : Assoc.get? name members with
  | none => exact .ok _
  | some v =>
    simp only [Option.map_some, value_part]
    split
    · exact .ok _
    · exact .of_step hget (.error .keyword)

/-- What a keyword gives that is read. -/
theorem eq_of_keyword?_eq_ok {α : Type} {name expected : String} {read : Json → Option α}
    {a : Option α} (h : keyword? (parts members) path name expected read = .ok a) :
    a = (Assoc.get? name members).bind read := by
  rw [keyword?, get?_parts] at h
  cases hget : Assoc.get? name members with
  | none =>
    rw [hget] at h
    exact (Except.ok.inj h).symm
  | some v =>
    rw [hget] at h
    simp only [Option.map_some, value_part] at h
    rw [Option.bind_some]
    split at h
    · rename_i hread
      exact (Except.ok.inj h).symm.trans hread.symm
    · cases h

/-- Names of required properties are counted like the elements of the array they are in. -/
theorem locates_readRequired {elements : List Json} {i : Nat} {values : List Json}
    (h : elements.drop i = values) :
    Locates (path ++ ["required"]) (.arr elements) (readRequired path i values) := by
  induction values generalizing i with
  | nil => exact .ok _
  | cons v rest ih =>
    have hrest : elements.drop (i + 1) = rest := by
      rw [← List.drop_drop, h, List.drop_one, List.tail_cons]
    have hstep : Pointer.step? (toString i) (.arr elements) = some v := by
      rw [Pointer.step?, Pointer.index?_toString, Option.bind_some, ← List.head?_drop, h,
        List.head?_cons]
    have hpath : path ++ ["required", toString i] = path ++ ["required"] ++ [toString i] := by
      rw [List.append_assoc, List.singleton_append]
    cases v with
    | str name => exact (ih hrest).map _
    | null | bool | num | arr | obj =>
      rw [readRequired, hpath]
      · exact .of_step hstep (.error (.requiredName rfl))
      · rintro _ ⟨⟩

theorem locates_readRequired_keyword (path : Pointer) :
    Locates path (.obj members)
      (readRequired path 0 (((Assoc.get? "required" members).bind Json.elements?).getD [])) := by
  cases hget : Assoc.get? "required" members with
  | none => exact .ok _
  | some v =>
    cases v with
    | arr elements => exact .of_step hget (locates_readRequired rfl)
    | null | bool | num | str | obj => exact .ok _

/-! ### Nodes -/

variable (hlocated : ∀ m ∈ members, Located m.2)

include hlocated

theorem located_of_get? {name : String} {v : Json} (h : Assoc.get? name members = some v) :
    Located v :=
  hlocated _ (Assoc.mem_of_get?_eq_some h)

/-- The document under a keyword is read as a schema at the place of the keyword. -/
theorem locates_schema {name : String} {v : Json} (h : Assoc.get? name members = some v) :
    Locates path (.obj members) ((part v).schema (path ++ [name])) :=
  .of_step h ((located_of_get? hlocated h).schema _)

theorem locates_readProperties :
    Locates path (.obj members) (readProperties (parts members) path) := by
  rw [readProperties, get?_parts]
  cases hget : Assoc.get? "properties" members with
  | none => exact .ok _
  | some v =>
    simp only [Option.map_some, value_part]
    split
    · exact .of_step hget ((located_of_get? hlocated hget).members _)
    · exact .of_step hget (.error .keyword)

theorem locates_readUnknown (preserve : Bool) :
    Locates path (.obj members) (readUnknown (parts members) path preserve) := by
  rw [readUnknown, get?_parts]
  split
  · exact .ok _
  · cases hget : Assoc.get? "additionalProperties" members with
    | none => exact .ok _
    | some v =>
      simp only [Option.map_some, value_part]
      cases v with
      | bool b => cases b <;> exact .ok _
      | obj declared => exact (locates_schema hlocated hget).map _
      | null | num | str | arr => exact .of_step hget (.error .keyword)

theorem locates_readItems : Locates path (.obj members) (readItems (parts members) path) := by
  rw [readItems, get?_parts]
  cases hget : Assoc.get? "items" members with
  | none => exact .ok _
  | some v =>
    simp only [Option.map_some, value_part]
    cases v with
    | obj declared => exact (locates_schema hlocated hget).map _
    | arr elements => exact .of_step hget (.error .tupleItems)
    | null | bool | num | str => exact .of_step hget (.error .keyword)

theorem locates_readObject (preserve : Bool) (notes : Annotations) :
    Locates path (.obj members) (readObject (parts members) path preserve notes) := by
  rw [readObject]
  refine (locates_readProperties hlocated).bind fun _ _ => ?_
  refine (locates_keyword? _ _ _).bind fun names hnames => ?_
  obtain rfl := eq_of_keyword?_eq_ok hnames
  refine (locates_readRequired_keyword path).bind fun _ _ => ?_
  exact (locates_readUnknown hlocated preserve).bind fun _ _ => .ok _

theorem locates_readArray (notes : Annotations) :
    Locates path (.obj members) (readArray (parts members) path notes) :=
  (locates_readItems hlocated).map _

/-- Reading a node locates its faults if reading the documents beneath it does. -/
theorem locates_readNode : Locates path (.obj members) (readNode (parts members) path) := by
  rw [readNode]
  refine (locates_keyword? _ _ _).bind fun type htype => ?_
  refine (locates_keyword? _ _ _).bind fun _ _ => ?_
  refine (locates_keyword? _ _ _).bind fun _ _ => ?_
  refine (locates_keyword? _ _ _).bind fun _ _ => ?_
  refine (locates_keyword? _ _ _).bind fun _ _ => ?_
  dsimp only
  split
  case h_1 => exact locates_readObject hlocated _ _
  case h_2 => exact locates_readArray hlocated _
  case h_7 name hobject harray hstring hinteger hnumber hboolean =>
    obtain ⟨v, hget, hread⟩ := Option.bind_eq_some_iff.1 (eq_of_keyword?_eq_ok htype).symm
    obtain rfl : v = .str name := by cases v <;> cases hread; rfl
    refine .of_step hget (.error (.unknownType ?_))
    simp only [typeNames, List.mem_cons, List.not_mem_nil, or_false]
    tauto
  case h_8 =>
    split
    · exact locates_readObject hlocated _ _
    · split
      · exact locates_readArray hlocated _
      · exact .ok _
  all_goals exact .ok _

end Nodes

/-- Reading the members of an object one after another locates their faults. -/
theorem locates_readMembers {members rest : List (String × Json)} {path : Pointer}
    (hmembers : ∀ m ∈ rest, Assoc.get? m.1 members = some m.2)
    (hlocated : ∀ m ∈ rest, Located m.2) :
    Locates path (.obj members) (readMembers (parts rest) path) := by
  induction rest with
  | nil => exact .ok _
  | cons m rest ih =>
    obtain ⟨hget, hgets⟩ := List.forall_mem_cons.1 hmembers
    obtain ⟨hfirst, hrest⟩ := List.forall_mem_cons.1 hlocated
    rw [parts, readMembers]
    have hschema : Locates path (.obj members) ((part m.2).schema (path ++ [m.1])) :=
      .of_step hget (hfirst.schema _)
    refine hschema.bind fun _ _ => ?_
    exact (ih hgets hrest).bind fun _ _ => .ok _

/-! ### Documents -/

theorem located_of_not_isObject {v : Json} (h : v.isObject = false) : Located v := by
  cases v with
  | obj members => cases h
  | null | bool | num | str | arr =>
    exact ⟨fun _ => .error (.notAnObject rfl), fun _ => .error (.notAnObject rfl)⟩

mutual

theorem located : ∀ {document : Json}, document.Canonical → Located document
  | .obj _, h =>
    have hlocated := located_members h.2
    ⟨fun _ => locates_readNode hlocated, fun _ =>
      locates_readMembers (fun _ hm => h.get?_eq_some_iff.2 hm) hlocated⟩
  | .null, _ => located_of_not_isObject rfl
  | .bool _, _ => located_of_not_isObject rfl
  | .num _, _ => located_of_not_isObject rfl
  | .str _, _ => located_of_not_isObject rfl
  | .arr _, _ => located_of_not_isObject rfl

theorem located_members : ∀ {members : List (String × Json)}, Json.CanonicalMembers members →
    ∀ m ∈ members, Located m.2
  | [], _ => List.forall_mem_nil _
  | (_, _) :: _, h => List.forall_mem_cons.2 ⟨located h.1, located_members h.2⟩

end

/-- The place with which a document is refused leads to the part that the refusal is about. -/
theorem locates_ofJson {document : Json} (h : document.Canonical) :
    Locates [] document (ofJson document) :=
  (located h).schema []

end PolicyEngine.Schema
