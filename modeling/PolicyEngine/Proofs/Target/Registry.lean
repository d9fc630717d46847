import Mathlib.Data.List.Nodup
import Mathlib.Data.List.Pairwise
import PolicyEngine.Proofs.Module.Nesting
import PolicyEngine.Target.Registry

/-!
# Modules of registered targets

The name of a target stands in package paths in a form that does not tell dots from hyphens, and a
registry refuses a target whose name looks like that of an earlier one. So a path names its target.
The module that a template compiles to for one registered target never covers a module, or a library
of a module, of another target or another template; and all of these paths are well formed.

## Main definitions

* `PolicyEngine.Registry.registerAll` — the registry after attempts to register targets.

## Main results

* `PolicyEngine.Registry.name_eq_of_ident_eq` — registered names stay distinct inside paths.
* `PolicyEngine.ModuleId.covers_iff_of_covers` — which templates cover a module beneath that of a
  template.
* `PolicyEngine.Registry.exists_targets_registerAll` — which targets end up in a registry.
* `PolicyEngine.Registry.covers_registerAll` — the modules of registered targets stay apart.
-/

namespace PolicyEngine

/-! ### Registered targets -/

namespace Registry

variable {registry : Registry} {name name' : TargetName}

theorem exists_of_contains (h : registry.contains name = true) :
    ∃ target ∈ registry.targets, target.name = name := by
  obtain ⟨target, ht⟩ := Option.isSome_iff_exists.1 h
  exact ⟨target, List.mem_of_find?_eq_some ht, by simpa using List.find?_some ht⟩

/-- Two registered targets whose names look alike in package paths are one target. -/
theorem eq_of_ident_eq {target target' : Target} (h : target ∈ registry.targets)
    (h' : target' ∈ registry.targets) (heq : target.name.ident = target'.name.ident) :
    target = target' := by
  by_contra hne
  have hsymm : Std.Symm fun a b : Target => a.name.ident ≠ b.name.ident := ⟨fun _ _ => Ne.symm⟩
  exact registry.distinct.forall h h' hne heq

/-- A registered target is found under its name. -/
theorem get?_name {target : Target} (h : target ∈ registry.targets) :
    registry.get? target.name = some target := by
  cases hget : registry.get? target.name with
  | none =>
    have hnone := List.find?_eq_none.1 hget target h
    simp at hnone
  | some found =>
    have hname : found.name = target.name := by simpa using List.find?_some hget
    rw [eq_of_ident_eq (List.mem_of_find?_eq_some hget) h (congrArg TargetName.ident hname)]

/-- The names of registered targets stay distinct inside package paths. -/
theorem name_eq_of_ident_eq (h : registry.contains name = true)
    (h' : registry.contains name' = true) (heq : name.ident = name'.ident) : name = name' := by
  obtain ⟨target, ht, rfl⟩ := exists_of_contains h
  obtain ⟨target', ht', rfl⟩ := exists_of_contains h'
  rw [eq_of_ident_eq ht ht' heq]

theorem contains_of_lookup {target : Target} (h : registry.lookup name = .ok target) :
    registry.contains name = true := by
  rw [lookup] at h
  split at h
  · rename_i hget
    rw [contains, hget]
    rfl
  · cases h

end Registry

/-! ### Modules of templates -/

/-- The form of a target's name in package paths is an identifier. -/
theorem TargetName.isIdentifier_ident (target : TargetName) :
    RuleText.isIdentifier target.ident.toList = true := by
  have haccepted := target.accepted
  rw [accepts] at haccepted
  split at haccepted
  · cases haccepted
  · rename_i first rest hchars
    simp only [Bool.and_eq_true] at haccepted
    have hfirst : first.isAlpha = true := by
      change (first.isUpper || first.isLower) = true
      rw [haccepted.1.1.1, Bool.or_true]
    have hne : first ≠ '.' ∧ first ≠ '-' := by
      constructor <;> rintro rfl <;> exact absurd hfirst (by decide)
    have hident : target.ident.toList =
        first :: rest.map fun c => if c == '.' || c == '-' then '_' else c := by
      rw [ident, identOf, String.toList_ofList, hchars, List.map_cons, if_neg (by simp [hne])]
    have hall : ∀ c ∈ target.ident.toList, RuleText.isIdentChar c = true :=
      fun c => isIdentChar_of_mem_ident
    rw [hident] at hall ⊢
    rw [RuleText.isIdentifier, hfirst, Bool.true_or, Bool.true_and]
    exact List.all_eq_true.2 hall

/-- A kind is an identifier. -/
theorem TemplateKind.isIdentifier_text (kind : TemplateKind) :
    RuleText.isIdentifier kind.text.toList = true := by
  have haccepted := kind.accepted
  rw [accepts] at haccepted
  split at haccepted
  · cases haccepted
  · rename_i first rest hchars
    simp only [Bool.and_eq_true] at haccepted
    have hall : ∀ c ∈ kind.text.toList, RuleText.isIdentChar c = true :=
      fun c => isIdentChar_of_mem_text
    rw [hchars] at hall ⊢
    rw [RuleText.isIdentifier, haccepted.1.1.1, Bool.true_or, Bool.true_and]
    exact List.all_eq_true.2 hall

namespace ModuleId

theorem isDottedPath_forTemplate (target : TargetName) (kind : TemplateKind) :
    RuleText.isDottedPath (forTemplate target kind).path = true := by
  change (forTemplate target kind).segments.all RuleText.isIdentifier = true
  rw [segments_forTemplate, List.all_cons, List.all_cons, List.all_cons,
    target.isIdentifier_ident, kind.isIdentifier_text]
  decide

theorem isDottedPath_lib {id : ModuleId} {name : String}
    (hid : RuleText.isDottedPath id.path = true) (hname : RuleText.isDottedPath name = true) :
    RuleText.isDottedPath (id.lib name).path = true := by
  change (id.lib name).segments.all RuleText.isIdentifier = true
  rw [segments_lib, List.all_append, List.all_cons]
  refine Bool.and_eq_true_iff.2 ⟨hid, Bool.and_eq_true_iff.2 ⟨by decide, hname⟩⟩

variable {target target' : TargetName} {kind kind' : TemplateKind}

/-- The module of a template covers a module beneath that of another only if both are of one kind
and of targets that look alike in paths. -/
theorem covers_iff_of_covers {id : ModuleId} (h' : (forTemplate target' kind').covers id = true) :
    (forTemplate target kind).covers id = true ↔ target.ident = target'.ident ∧ kind = kind' := by
  constructor
  · intro h
    exact eq_of_covers_forTemplate h h'
  · rintro ⟨hident, rfl⟩
    have hsame : forTemplate target kind = forTemplate target' kind := by
      rw [forTemplate, forTemplate, hident]
    rwa [hsame]

end ModuleId

/-! ### Registering targets -/

namespace Registry

/-- The registry after attempts to register targets, one after another. An attempt that fails leaves
the registry as it was. -/
def registerAll (registry : Registry) (requests : List Target) : Registry :=
  requests.foldl (fun registry target => (registry.register target).toOption.getD registry) registry

/-- An attempt registers the target, or finds one whose name looks alike. -/
theorem register_cases (registry : Registry) (target : Target) :
    (registry.register target).toOption.map (·.targets) = some (registry.targets ++ [target]) ∨
      (registry.register target).toOption = none ∧
        ∃ t ∈ registry.targets, t.name.ident = target.name.ident := by
  rw [register]
  split
  · exact .inl rfl
  · rename_i htaken
    refine .inr ⟨rfl, ?_⟩
    push Not at htaken
    exact htaken

/-- Attempts add some of the targets in their order, and leave out only those whose names look like
that of a registered one. -/
theorem exists_targets_registerAll (registry : Registry) (requests : List Target) :
    (∃ added, (registry.registerAll requests).targets = registry.targets ++ added ∧
        added.Sublist requests) ∧
      ∀ target ∈ requests, ∃ t ∈ (registry.registerAll requests).targets,
        t.name.ident = target.name.ident := by
  induction requests generalizing registry with
  | nil => exact ⟨⟨[], (List.append_nil _).symm, List.Sublist.refl _⟩, List.forall_mem_nil _⟩
  | cons target rest ih =>
    rw [registerAll, List.foldl_cons]
    rcases registry.register_cases target with hadded | ⟨hnone, t, ht, hident⟩
    · obtain ⟨next, hnext, htargets⟩ := Option.map_eq_some_iff.1 hadded
      rw [hnext, Option.getD_some]
      obtain ⟨⟨added, heq, hsub⟩, hall⟩ := ih next
      rw [htargets, List.append_assoc] at heq
      refine ⟨⟨target :: added, heq, hsub.cons_cons target⟩,
        List.forall_mem_cons.2 ⟨⟨target, ?_, rfl⟩, hall⟩⟩
      change target ∈ (next.registerAll rest).targets
      rw [heq]
      simp
    · rw [hnone, Option.getD_none]
      obtain ⟨⟨added, heq, hsub⟩, hall⟩ := ih registry
      refine ⟨⟨added, heq, hsub.cons target⟩, List.forall_mem_cons.2 ⟨⟨t, ?_, hident⟩, hall⟩⟩
      change t ∈ (registry.registerAll rest).targets
      rw [heq]
      exact List.mem_append_left _ ht

/-- The names of the registered targets are distinct in their forms in package paths. -/
theorem nodup_idents (registry : Registry) : (registry.names.map TargetName.ident).Nodup := by
  rw [names, List.map_map]
  exact List.pairwise_map.2 registry.distinct

/-- **The modules of registered targets stay apart.** Attempts to register targets leave out only
those whose names look like that of an earlier one, so that the names of the registered targets are
distinct in their forms in package paths. The module of a template for a registered target covers
the module of a template for a registered target, and any library beneath it, exactly if both are of
one target and one kind. The paths of all of these are dotted paths of identifiers. -/
theorem covers_registerAll (requests : List Target) :
    let registry := Registry.empty.registerAll requests
    (registry.targets.Sublist requests ∧
        ∀ target ∈ requests, target.name.ident ∈ registry.names.map TargetName.ident) ∧
      (registry.names.map TargetName.ident).Nodup ∧
      ∀ target ∈ registry.names, ∀ target' ∈ registry.names, ∀ kind kind' : TemplateKind,
        let id := ModuleId.forTemplate target kind
        let id' := ModuleId.forTemplate target' kind'
        (id.covers id' = true ↔ target = target' ∧ kind = kind') ∧
          RuleText.isDottedPath id.path = true ∧
          ∀ name, RuleText.isDottedPath name = true →
            (id.covers (id'.lib name) = true ↔ target = target' ∧ kind = kind') ∧
              RuleText.isDottedPath (id.lib name).path = true := by
  intro registry
  obtain ⟨⟨added, htargets, hsub⟩, hall⟩ := exists_targets_registerAll .empty requests
  have hsublist : registry.targets.Sublist requests := by
    rw [htargets]
    exact hsub
  refine ⟨⟨hsublist, fun target htarget => ?_⟩, registry.nodup_idents, ?_⟩
  · obtain ⟨t, ht, hident⟩ := hall target htarget
    rw [← hident]
    exact List.mem_map_of_mem (List.mem_map_of_mem ht)
  · intro target ht target' ht' kind kind' id id'
    have hident : target.ident = target'.ident ↔ target = target' :=
      ⟨List.inj_on_of_nodup_map registry.nodup_idents ht ht', congrArg _⟩
    have hid := ModuleId.isDottedPath_forTemplate target kind
    refine ⟨?_, hid, fun name hname => ⟨?_, ModuleId.isDottedPath_lib hid hname⟩⟩
    · rw [ModuleId.covers_iff_of_covers id'.covers_refl, hident]
    · rw [ModuleId.covers_iff_of_covers (id'.covers_lib name), hident]

end Registry

end PolicyEngine
