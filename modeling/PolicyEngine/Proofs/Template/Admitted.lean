import PolicyEngine.Proofs.RuleText.MovedPackage
import PolicyEngine.Proofs.Template.Compile
import PolicyEngine.Store.Basic

/-!
# Modules that the store admits

The store looks at every module before it takes it: the source has to declare the module's
identifier as its package and to be one that the evaluator parses. A template is compiled by moving
its sources, which writes the package of each of them, and by parsing what comes out. So the store
admits whatever templates compile to, in place of any predecessor.

## Main definitions

* `PolicyEngine.Store.Admits` — the store has nothing against a module.

## Main results

* `PolicyEngine.Store.exists_prepare_eq_ok_iff` — changes are refused for their modules only.
* `PolicyEngine.CompiledTemplate.IsOutcome.admits` — the modules of templates are admitted.
* `PolicyEngine.CompiledTemplate.IsOutcome.exists_prepare_eq_ok` — no template that compiles is
  refused by the store.
-/

namespace PolicyEngine

/-! ### Checking modules -/

/-- A source with its identifier that the store has nothing against. -/
structure Store.Admits (ev : Evaluator) (m : ModuleId × String) : Prop where
  package : (RuleText.findPackage? m.2).map (·.path) = some m.1.path
  parses : ev.parses m.2 = true

namespace ModuleChange

theorem packageFault?_eq_none_iff {id : ModuleId} {source : String} :
    packageFault? id source = none ↔
      (RuleText.findPackage? source).map (·.path) = some id.path := by
  rw [packageFault?]
  cases RuleText.findPackage? source with
  | none => simp
  | some decl => simp

/-- Nothing is wrong with a change that puts admitted modules only. -/
theorem fault?_eq_none_iff {ev : Evaluator} {change : ModuleChange} :
    change.fault? ev = none ↔ ∀ m ∈ change.puts, Store.Admits ev m := by
  have hpackages : (change.puts.findSome? fun m => packageFault? m.1 m.2) = none ↔
      ∀ m ∈ change.puts, (RuleText.findPackage? m.2).map (·.path) = some m.1.path := by
    simp only [List.findSome?_eq_none_iff, packageFault?_eq_none_iff]
  have hparses : (change.puts.find? fun m => !ev.parses m.2) = none ↔
      ∀ m ∈ change.puts, ev.parses m.2 = true := by
    simp
  rw [fault?]
  constructor
  · intro h m hm
    split at h
    · cases h
    · rename_i hnone
      exact ⟨hpackages.1 hnone m hm, hparses.1 (Option.map_eq_none_iff.1 h) m hm⟩
  · intro h
    rw [hpackages.2 fun m hm => (h m hm).package]
    exact Option.map_eq_none_iff.2 (hparses.2 fun m hm => (h m hm).parses)

end ModuleChange

/-- A change can be committed if the store admits all modules it puts. -/
theorem Store.exists_prepare_eq_ok_iff {ev : Evaluator} {change : ModuleChange} :
    (∃ prepared, Store.prepare ev change = .ok prepared) ↔
      ∀ m ∈ change.puts, Store.Admits ev m := by
  rw [← ModuleChange.fault?_eq_none_iff, prepare]
  split
  · rename_i hnone
    exact ⟨fun _ => hnone, fun _ => ⟨_, rfl⟩⟩
  · rename_i e hsome
    rw [hsome]
    constructor
    · rintro ⟨_, h⟩
      cases h
    · rintro ⟨⟩

/-! ### Modules of templates -/

namespace Template

variable {ev : Evaluator} {target : TargetName} {kind : TemplateKind} {rule : TargetRule}
  {a : Artifact}

theorem checkParses_eq_ok_iff {modules : List (ModuleId × String)} :
    checkParses ev modules = .ok () ↔ ∀ m ∈ modules, ev.parses m.2 = true := by
  rw [checkParses]
  split
  · rename_i id source hfind
    have hparses := List.find?_some hfind
    constructor
    · rintro ⟨⟩
    · intro h
      rw [h _ (List.mem_of_find?_eq_some hfind)] at hparses
      cases hparses
  · rename_i hnone
    simpa using hnone

/-- The modules of a rule that is moved declare their identifiers. -/
theorem package_of_moveRule (h : moveRule ev (.forTemplate target kind) rule = .ok a) :
    ∀ m ∈ a.modules, (RuleText.findPackage? m.2).map (·.path) = some m.1.path := by
  obtain ⟨hmodule, hmain, hlibs, -, -⟩ := of_moveRule h
  intro m hm
  rcases List.mem_cons.1 hm with rfl | hlib
  · rw [hmodule]
    exact RuleText.path_findPackage?_relocateMain hmain
  · obtain ⟨source, hmoved⟩ := exists_relocateLib_of_moveLibs hlibs m hlib
    exact RuleText.path_findPackage?_relocateLib hmoved

theorem admits_of_moveRule (h : moveRule ev (.forTemplate target kind) rule = .ok a) :
    ∀ m ∈ a.modules, Store.Admits ev m := by
  obtain ⟨-, -, -, -, hparses⟩ := of_moveRule h
  exact fun m hm => ⟨package_of_moveRule h m hm, checkParses_eq_ok_iff.1 hparses m hm⟩

end Template

namespace CompiledTemplate.IsOutcome

variable {ev : Evaluator} {registry : Registry} {policy : CompilePolicy}
  {compiled : CompiledTemplate}

/-- The store admits the modules of templates. -/
theorem admits (h : compiled.IsOutcome ev registry policy) :
    ∀ m ∈ compiled.modules, Store.Admits ev m := by
  intro m hm
  obtain ⟨target, a, ha, hma⟩ := mem_modules_iff.1 hm
  obtain ⟨rule, -, hrule⟩ := h.compileTarget_eq ha
  exact Template.admits_of_moveRule (Template.of_compileTarget hrule).2 m hma

/-- The change that installs a template in place of another one can be committed. -/
theorem exists_prepare_eq_ok (h : compiled.IsOutcome ev registry policy)
    (previous : Option CompiledTemplate) :
    ∃ prepared, Store.prepare ev (compiled.moduleChange previous) = .ok prepared :=
  Store.exists_prepare_eq_ok_iff.2 h.admits

end CompiledTemplate.IsOutcome

end PolicyEngine
