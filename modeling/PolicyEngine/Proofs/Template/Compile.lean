import PolicyEngine.Proofs.RuleText.Movable
import PolicyEngine.Proofs.SortedMap
import PolicyEngine.Proofs.Target.Registry
import PolicyEngine.Template.Compiled

/-!
# What templates compile to

The artifact of a template for a target stands at the module of this target and kind, with libraries
beneath it of which no two have the same identifier. Since only registered targets compile, and the
names of registered targets stay distinct inside package paths, the modules of a compiled template
have distinct identifiers.

## Main definitions

* `PolicyEngine.Artifact.StandsAt` — an artifact with all of its modules at or beneath a module.
* `PolicyEngine.CompiledTemplate.IsOutcome` — a compiled template is what its template compiles to.

## Main results

* `PolicyEngine.Template.standsAt_of_compileTarget` — where the artifact of a target stands.
* `PolicyEngine.CompiledTemplate.IsOutcome.nodup_modules` — no identifier occurs twice.
* `PolicyEngine.CompiledTemplate.IsOutcome.eq_of_mem_modules` — a module of two compiled templates
  is of one kind.
-/

namespace PolicyEngine

/-! ### One target -/

/-- An artifact whose main module is a given one and whose libraries stand beneath it under distinct
identifiers. -/
structure Artifact.StandsAt (a : Artifact) (module : ModuleId) : Prop where
  module_eq : a.module = module
  exists_lib : ∀ m ∈ a.libs, ∃ name, m.1 = module.lib name
  nodup_libs : (a.libs.map Prod.fst).Nodup

namespace Artifact.StandsAt

variable {a : Artifact} {module : ModuleId}

/-- The module of an artifact covers all of its modules. -/
theorem covers (h : a.StandsAt module) {m : ModuleId × String} (hm : m ∈ a.modules) :
    module.covers m.1 = true := by
  rcases List.mem_cons.1 hm with rfl | hlib
  · change module.covers a.module = true
    rw [h.module_eq]
    exact module.covers_refl
  · obtain ⟨name, hname⟩ := h.exists_lib m hlib
    rw [hname]
    exact module.covers_lib name

theorem nodup_modules (h : a.StandsAt module) : (a.modules.map Prod.fst).Nodup := by
  rw [modules, List.map_cons, List.nodup_cons]
  refine ⟨fun hmem => ?_, h.nodup_libs⟩
  obtain ⟨m, hm, heq⟩ := List.mem_map.1 hmem
  obtain ⟨name, hname⟩ := h.exists_lib m hm
  rw [hname, h.module_eq] at heq
  exact module.ne_lib name heq.symm

end Artifact.StandsAt

namespace Template

variable {ev : Evaluator} {registry : Registry} {kind : TemplateKind} {module : ModuleId}

theorem fst_of_relocateLib {source : String} {m : ModuleId × String}
    (h : RuleText.relocateLib source module = .ok m) : ∃ name, m.1 = module.lib name := by
  obtain ⟨split, name, out, -, -, -, rfl⟩ := RuleText.relocateLib_eq_ok_iff.1 h
  exact ⟨name, rfl⟩

/-- Libraries are moved one by one. -/
theorem exists_relocateLib_of_moveLibs {sources : List String} {i : Nat}
    {libs : List (ModuleId × String)} (h : moveLibs module i sources = .ok libs) :
    ∀ m ∈ libs, ∃ source, RuleText.relocateLib source module = .ok m := by
  induction sources generalizing i libs with
  | nil =>
    rw [moveLibs] at h
    rw [← Except.ok.inj h]
    simp
  | cons source rest ih =>
    rw [moveLibs, Outcome.bind_eq_ok] at h
    obtain ⟨moved, hmoved, h⟩ := h
    obtain ⟨others, hothers, h⟩ := Outcome.bind_eq_ok.1 h
    rw [← Except.ok.inj h]
    intro m hm
    rcases List.mem_cons.1 hm with rfl | hm
    · exact ⟨source, Outcome.mapError_eq_ok.1 hmoved⟩
    · exact ih hothers m hm

/-- Without a duplicate the identifiers of libraries are distinct. -/
theorem nodup_of_duplicateLib? {seen rest : List ModuleId}
    (h : duplicateLib? module seen rest = none) (hseen : seen.Nodup) : (seen ++ rest).Nodup := by
  induction rest generalizing seen with
  | nil => simpa using hseen
  | cons id rest ih =>
    rw [duplicateLib?] at h
    split at h
    · cases h
    · rename_i hfind
      have hid : id ∉ seen := fun hmem => by
        have hall := List.findIdx?_eq_none_iff.1 hfind id hmem
        simp at hall
      have hnext : (seen ++ [id]).Nodup := by
        rw [List.nodup_append]
        refine ⟨hseen, by simp, ?_⟩
        rintro a ha b hb rfl
        exact hid (List.mem_singleton.1 hb ▸ ha)
      simpa using ih h hnext

/-- A rule that is moved has its main source moved and its libraries, none twice, and all of them
are sources that the evaluator parses. -/
theorem of_moveRule {rule : TargetRule} {a : Artifact} (h : moveRule ev module rule = .ok a) :
    a.module = module ∧ RuleText.relocateMain rule.rego module = .ok a.source ∧
      moveLibs module 0 rule.libs = .ok a.libs ∧
      duplicateLib? module [] (a.libs.map (·.1)) = none ∧ checkParses ev a.modules = .ok () := by
  rw [moveRule, Outcome.bind_eq_ok] at h
  obtain ⟨source, hsource, h⟩ := h
  obtain ⟨libs, hlibs, h⟩ := Outcome.bind_eq_ok.1 h
  split at h
  · cases h
  · rename_i hnone
    obtain ⟨⟨⟩, hparses, ha⟩ := Outcome.bind_eq_ok.1 h
    rw [← Except.ok.inj ha]
    exact ⟨rfl, Outcome.mapError_eq_ok.1 hsource, hlibs, hnone, hparses⟩

theorem standsAt_of_moveRule {rule : TargetRule} {a : Artifact}
    (h : moveRule ev module rule = .ok a) : a.StandsAt module := by
  obtain ⟨hmodule, -, hlibs, hnone, -⟩ := of_moveRule h
  refine ⟨hmodule, fun m hm => ?_, nodup_of_duplicateLib? hnone List.nodup_nil⟩
  obtain ⟨source, hmoved⟩ := exists_relocateLib_of_moveLibs hlibs m hm
  exact fst_of_relocateLib hmoved

/-- Only rules of registered targets compile, to what they are moved to. -/
theorem of_compileTarget {target : TargetName} {rule : TargetRule} {a : Artifact}
    (h : compileTarget ev registry kind target rule = .ok a) :
    registry.contains target = true ∧ moveRule ev (.forTemplate target kind) rule = .ok a := by
  rw [compileTarget, Outcome.bind_eq_ok] at h
  obtain ⟨registered, hlookup, h⟩ := h
  obtain ⟨a', ha', h⟩ := Outcome.bind_eq_ok.1 h
  split at h
  · rw [← Except.ok.inj h]
    exact ⟨Registry.contains_of_lookup hlookup, Outcome.mapError_eq_ok.1 ha'⟩
  · cases h

/-- Only registered targets compile, and the artifact stands at the module of target and kind. -/
theorem standsAt_of_compileTarget {target : TargetName} {rule : TargetRule} {a : Artifact}
    (h : compileTarget ev registry kind target rule = .ok a) :
    registry.contains target = true ∧ a.StandsAt (.forTemplate target kind) :=
  ⟨(of_compileTarget h).1, standsAt_of_moveRule (of_compileTarget h).2⟩

/-! ### All targets -/

theorem get?_artifacts_eq_some_iff {t : Template} {target : TargetName} {a : Artifact} :
    (t.artifacts ev registry).get? target = some a ↔
      ∃ rule, t.targets.get? target = some rule ∧
        compileTarget ev registry t.kind target rule = .ok a := by
  rw [artifacts, SortedMap.get?_filterMap, Option.bind_eq_some_iff]
  simp only [Outcome.toOption_eq_some]

/-- A template that compiles, compiles to its schema, its artifacts and its failures. -/
theorem eq_of_compile {policy : CompilePolicy} {t : Template} {compiled : CompiledTemplate}
    (h : t.compile ev registry policy = .ok compiled) :
    ∃ schema, ConstraintSchema.derive t registry = .ok schema ∧
      compiled = ⟨t, schema, t.artifacts ev registry, t.failures ev registry⟩ := by
  rw [compile, Outcome.bind_eq_ok] at h
  obtain ⟨-, -, h⟩ := h
  obtain ⟨schema, hschema, h⟩ := Outcome.bind_eq_ok.1 h
  dsimp only at h
  split at h
  · cases h
  · exact ⟨schema, hschema, (Except.ok.inj h).symm⟩

end Template

/-! ### Compiled templates -/

namespace CompiledTemplate

/-- A compiled template is what its template compiles to. -/
def IsOutcome (compiled : CompiledTemplate) (ev : Evaluator) (registry : Registry)
    (policy : CompilePolicy) : Prop :=
  compiled.template.compile ev registry policy = .ok compiled

namespace IsOutcome

variable {ev : Evaluator} {registry : Registry} {policy : CompilePolicy}
  {compiled compiled' : CompiledTemplate}

theorem of_compile {t : Template} (h : t.compile ev registry policy = .ok compiled) :
    compiled.IsOutcome ev registry policy ∧ compiled.template = t := by
  obtain ⟨schema, -, rfl⟩ := Template.eq_of_compile h
  exact ⟨h, rfl⟩

/-- The artifact of a target is what the rule of this target compiles to. -/
theorem compileTarget_eq (h : compiled.IsOutcome ev registry policy) {target : TargetName}
    {a : Artifact} (ha : compiled.artifact? target = some a) :
    ∃ rule, compiled.template.targets.get? target = some rule ∧
      Template.compileTarget ev registry compiled.kind target rule = .ok a := by
  obtain ⟨schema, -, heq⟩ := Template.eq_of_compile h
  rw [artifact?, heq] at ha
  exact Template.get?_artifacts_eq_some_iff.1 ha

theorem standsAt (h : compiled.IsOutcome ev registry policy) {target : TargetName} {a : Artifact}
    (ha : compiled.artifact? target = some a) :
    registry.contains target = true ∧ a.StandsAt (.forTemplate target compiled.kind) := by
  obtain ⟨rule, -, hrule⟩ := h.compileTarget_eq ha
  exact Template.standsAt_of_compileTarget hrule

/-- Where a template compiles, its constraints have to satisfy the strict match schema of the
target. -/
theorem get?_matchSchemas (h : compiled.IsOutcome ev registry policy) {target : Target}
    (ht : target ∈ registry.targets) {a : Artifact}
    (ha : compiled.artifact? target.name = some a) :
    compiled.schema.matchSchemas.get? target.name = some (target.matchSchema.resolve false) := by
  obtain ⟨rule, hrule, -⟩ := h.compileTarget_eq ha
  obtain ⟨schema, hschema, heq⟩ := Template.eq_of_compile h
  obtain ⟨parameters, -, hderived⟩ := Outcome.map_eq_ok.1 hschema
  rw [heq, ← hderived]
  change (ConstraintSchema.deriveMatchSchemas compiled.template registry).get? target.name = _
  rw [ConstraintSchema.deriveMatchSchemas, SortedMap.get?_filterMap, hrule, Option.bind_some,
    Registry.get?_name ht, Option.map_some]

theorem mem_modules_iff {m : ModuleId × String} :
    m ∈ compiled.modules ↔ ∃ target a, compiled.artifact? target = some a ∧ m ∈ a.modules := by
  rw [modules, List.mem_flatMap]
  exact SortedMap.exists_mem_values_iff

theorem mem_moduleIds_iff {id : ModuleId} :
    id ∈ compiled.moduleIds ↔ ∃ target a, compiled.artifact? target = some a ∧ a.module = id := by
  rw [moduleIds, List.mem_map]
  exact SortedMap.exists_mem_values_iff

/-- Each module of a compiled template is covered by one of its main modules. -/
theorem exists_covers (h : compiled.IsOutcome ev registry policy) {m : ModuleId × String}
    (hm : m ∈ compiled.modules) : ∃ id ∈ compiled.moduleIds, id.covers m.1 = true := by
  obtain ⟨target, a, ha, hma⟩ := mem_modules_iff.1 hm
  obtain ⟨-, hstands⟩ := h.standsAt ha
  exact ⟨a.module, mem_moduleIds_iff.2 ⟨target, a, ha, rfl⟩, hstands.module_eq ▸ hstands.covers hma⟩

/-- A module that a compiled template has, and a main module of another one covers, is of
one kind. -/
theorem kind_eq_of_covers (h : compiled.IsOutcome ev registry policy)
    (h' : compiled'.IsOutcome ev registry policy) {m : ModuleId × String}
    (hm : m ∈ compiled.modules) {id : ModuleId} (hid : id ∈ compiled'.moduleIds)
    (hcovers : id.covers m.1 = true) : compiled.kind = compiled'.kind := by
  obtain ⟨target, a, ha, hma⟩ := mem_modules_iff.1 hm
  obtain ⟨target', a', ha', rfl⟩ := mem_moduleIds_iff.1 hid
  obtain ⟨-, hstands⟩ := h.standsAt ha
  obtain ⟨-, hstands'⟩ := h'.standsAt ha'
  rw [hstands'.module_eq] at hcovers
  exact (ModuleId.eq_of_covers_forTemplate (hstands.covers hma) hcovers).2

/-- A module of two compiled templates is of one kind. -/
theorem eq_of_mem_modules (h : compiled.IsOutcome ev registry policy)
    (h' : compiled'.IsOutcome ev registry policy) {m m' : ModuleId × String}
    (hm : m ∈ compiled.modules) (hm' : m' ∈ compiled'.modules) (heq : m.1 = m'.1) :
    compiled.kind = compiled'.kind := by
  obtain ⟨id, hid, hcovers⟩ := h'.exists_covers hm'
  exact h.kind_eq_of_covers h' hm hid (heq ▸ hcovers)

/-- No two modules of a compiled template have the same identifier. -/
theorem nodup_modules (h : compiled.IsOutcome ev registry policy) :
    (compiled.modules.map Prod.fst).Nodup := by
  refine SortedMap.nodup_flatMap_values (fun ha => (h.standsAt ha).2.nodup_modules) ?_
  -- Artifacts of two targets stand at modules that cover no module together.
  intro target target' a a' m m' ha ha' hm hm' heq
  obtain ⟨hreg, hstands⟩ := h.standsAt ha
  obtain ⟨hreg', hstands'⟩ := h.standsAt ha'
  have hident := (ModuleId.eq_of_covers_forTemplate (hstands.covers hm)
    (heq ▸ hstands'.covers hm')).1
  exact Registry.name_eq_of_ident_eq hreg hreg' hident

end IsOutcome

end CompiledTemplate

end PolicyEngine
