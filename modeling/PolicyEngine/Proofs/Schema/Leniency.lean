import PolicyEngine.Proofs.Schema.Walk

/-!
# Strict and legacy schemas

The two ways to resolve a tree differ only where a node leaves open what holds for the members that
it does not declare: they are refused in strict mode and preserved in legacy mode. So the faults of
a value under the legacy tree are those under the strict tree, in their order, without some of the
undeclared members.

## Main definitions

* `PolicyEngine.Remains` — a list without some elements that have a property.

## Main results

* `PolicyEngine.Schema.remains_violations_resolve` — what legacy mode finds wrong remains of what
  strict mode finds wrong when undeclared members are left out.
* `PolicyEngine.Schema.violations_resolve_legacy` — legacy mode is lenient to undeclared members,
  and to nothing else.
-/

namespace PolicyEngine

/-! ### Lists without some elements -/

/-- A list that remains of another one when some elements are left out, all of which have a
property. -/
structure Remains {α : Type} (p : α → Prop) (rest all : List α) : Prop where
  sublist : rest.Sublist all
  exists_left_out : ∃ out, all.Perm (rest ++ out) ∧ ∀ a ∈ out, p a

namespace Remains

variable {α β : Type} {p : α → Prop} {q : β → Prop}

theorem refl (l : List α) : Remains p l l :=
  ⟨List.Sublist.refl l, [], by rw [List.append_nil], List.forall_mem_nil _⟩

/-- Nothing remains when all elements are left out. -/
theorem nil {l : List α} (h : ∀ a ∈ l, p a) : Remains p [] l :=
  ⟨List.nil_sublist l, l, List.Perm.refl l, h⟩

theorem append {l₁ l₂ m₁ m₂ : List α} (h₁ : Remains p l₁ m₁) (h₂ : Remains p l₂ m₂) :
    Remains p (l₁ ++ l₂) (m₁ ++ m₂) := by
  obtain ⟨hsub₁, out₁, hperm₁, hout₁⟩ := h₁
  obtain ⟨hsub₂, out₂, hperm₂, hout₂⟩ := h₂
  refine ⟨hsub₁.append hsub₂, out₁ ++ out₂, (hperm₁.append hperm₂).trans ?_,
    List.forall_mem_append.2 ⟨hout₁, hout₂⟩⟩
  rw [List.append_assoc, List.append_assoc]
  exact (List.perm_append_comm_assoc out₁ l₂ out₂).append_left l₁

theorem map {l m : List α} (h : Remains p l m) {f : α → β} (hf : ∀ a, p a → q (f a)) :
    Remains q (l.map f) (m.map f) := by
  obtain ⟨hsub, out, hperm, hout⟩ := h
  refine ⟨hsub.map f, out.map f, List.map_append ▸ hperm.map f, fun b hb => ?_⟩
  obtain ⟨a, ha, rfl⟩ := List.mem_map.1 hb
  exact hf a (hout a ha)

theorem flatMap {f g : β → List α} (l : List β) (h : ∀ b ∈ l, Remains p (f b) (g b)) :
    Remains p (l.flatMap f) (l.flatMap g) := by
  induction l with
  | nil => exact refl []
  | cons b rest ih =>
    obtain ⟨hfirst, hrest⟩ := List.forall_mem_cons.1 h
    rw [List.flatMap_cons, List.flatMap_cons]
    exact hfirst.append (ih hrest)

end Remains

namespace Schema

/-! ### Resolved nodes -/

theorem resolveProperties_eq_map (legacy : Bool) (properties : List (String × Schema)) :
    resolveProperties legacy properties = properties.map fun m => (m.1, m.2.resolve legacy) := by
  induction properties with
  | nil => rfl
  | cons m rest ih =>
    rw [resolveProperties, ih]
    rfl

/-! ### The two modes -/

/-- A fault that is a member which is not declared. -/
def Violation.IsUnknownField (v : Violation) : Prop := v.fault = .unknownField

section Children

variable {properties : List (String × Schema)} {unknown : UnknownFields Schema}

theorem remains_memberViolations
    (hproperties : ∀ m ∈ properties, ∀ v, Remains Violation.IsUnknownField
      ((m.2.resolve true).violations v) ((m.2.resolve false).violations v))
    (hunknown : ∀ values, unknown = .validate values → ∀ v, Remains Violation.IsUnknownField
      ((values.resolve true).violations v) ((values.resolve false).violations v))
    (name : String) (v : Json) :
    Remains Violation.IsUnknownField
      (memberViolations (resolveProperties true properties) (resolveUnknown true unknown) name v)
      (memberViolations (resolveProperties false properties) (resolveUnknown false unknown)
        name v) := by
  rw [resolveProperties_eq_map, resolveProperties_eq_map]
  have hget := fun legacy => Assoc.get?_map (resolve legacy) name properties
  cases hfound : Assoc.get? name properties with
  | some s =>
    rw [hfound] at hget
    rw [memberViolations_of_get?_eq_some (hget true), memberViolations_of_get?_eq_some (hget false)]
    exact hproperties _ (Assoc.mem_of_get?_eq_some hfound) v
  | none =>
    rw [hfound] at hget
    rw [memberViolations_of_get?_eq_none (hget true), memberViolations_of_get?_eq_none (hget false)]
    cases unknown with
    | unset => exact .nil (List.forall_mem_singleton.2 rfl)
    | reject => exact .refl _
    | preserve => exact .refl _
    | validate values => exact hunknown values rfl v

end Children

/-- What legacy mode finds wrong with a value remains of what strict mode finds wrong when
undeclared members are left out. -/
theorem remains_violations_resolve (s : Schema) : ∀ v, Remains Violation.IsUnknownField
    ((s.resolve true).violations v) ((s.resolve false).violations v) := by
  induction s using Schema.induction with
  | object notes properties required unknown hproperties hunknown =>
    rintro (_ | _ | _ | _ | _ | members)
    case obj =>
      rw [resolve, resolve, violations_object, violations_object]
      refine (Remains.refl _).append ((Remains.refl _).append (Remains.flatMap _ fun m _ => ?_))
      exact (remains_memberViolations hproperties hunknown m.1 m.2).map fun _ h => h
    all_goals exact .refl _
  | array notes items hitems =>
    rintro (_ | _ | _ | _ | elements | _)
    case arr =>
      rw [resolve, resolve, violations_array, violations_array]
      refine (Remains.refl _).append (Remains.flatMap _ fun e _ => ?_)
      cases items with
      | none => exact .refl _
      | some s => exact (hitems s rfl e.1).map fun _ h => h
    all_goals exact .refl _
  | scalar notes type => exact fun _ => .refl _
  | any notes => exact fun _ => .refl _

/-- **Legacy mode is lenient to undeclared members, and to nothing else.** What is wrong with a
value under a tree resolved in legacy mode is part of what is wrong under the tree resolved
strictly, in the same order, and each fault that is left out is an unknown field. So legacy mode
accepts every value that strict mode accepts. -/
theorem violations_resolve_legacy (s : Schema) (v : Json) :
    let legacy := (s.resolve true).violations v
    let strict := (s.resolve false).violations v
    (legacy.Sublist strict ∧ ∃ out, strict.Perm (legacy ++ out) ∧
        ∀ x ∈ out, x.fault.message = "unknown field") ∧
      ((s.resolve false).accepts v = true → (s.resolve true).accepts v = true) := by
  intro legacy strict
  obtain ⟨hsub, out, hperm, hout⟩ := remains_violations_resolve s v
  refine ⟨⟨hsub, out, hperm, fun x hx => ?_⟩, fun haccepts => ?_⟩
  · rw [hout x hx]
    rfl
  · rw [accepts, List.isEmpty_iff] at haccepts ⊢
    exact List.eq_nil_of_sublist_nil (haccepts ▸ hsub)

end Schema

end PolicyEngine
