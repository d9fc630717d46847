import PolicyEngine.Proofs.Template.Admitted

/-!
# What the modules of templates refer to

Every source that is installed has been moved into the module of its template and target. So its
code refers to nothing of the data document but the inventory and the libraries of this module. An
evaluator has no reason to let the answer to a question for this module depend on other modules.

## Main definitions

* `PolicyEngine.RuleText.RefersWithin` — what the code of a source refers to.
* `PolicyEngine.RuleQuery.Alike`, `PolicyEngine.RuleQuery.IsConfined` — questions that differ in
  modules they are not about, and questions whose own modules refer to nothing else.
* `PolicyEngine.Evaluator.Confined` — answers depend on the modules asked about alone.

## Main results

* `PolicyEngine.CompiledTemplate.IsOutcome.refersWithin` — the modules of a compiled template refer
  to the inventory and to its own libraries.
-/

namespace PolicyEngine

namespace RuleText

/-- In the code of a source every reference to the data document goes on with `inventory`, or leads
to the libraries of a module. -/
def RefersWithin (module : ModuleId) (source : String) : Prop :=
  ∀ before after, IsReference (codeView source).toList before after → IsRedirected module after

variable {target : TargetName} {kind : TemplateKind}

theorem refersWithin_of_relocateMain {source out : String}
    (h : relocateMain source (.forTemplate target kind) = .ok out) :
    RefersWithin (.forTemplate target kind) out := by
  obtain ⟨split, hsplit, h⟩ := relocateMain_eq_ok_iff.1 h
  have hmodule := beginsWithTemplates_forTemplate target kind
  exact fun before after => isRedirected_of_relocateSplit hsplit hmodule hmodule.1 h

theorem refersWithin_of_relocateLib {source : String} {moved : ModuleId × String}
    (h : relocateLib source (.forTemplate target kind) = .ok moved) :
    RefersWithin (.forTemplate target kind) moved.2 := by
  obtain ⟨split, name, out, hsplit, hname, hout, rfl⟩ := relocateLib_eq_ok_iff.1 h
  have hmodule := beginsWithTemplates_forTemplate target kind
  have hpath := isPathChar_of_isDottedPath (cuts_of_declaredPackage hsplit).2
  have hpackage := hmodule.lib fun c hc => hpath c (mem_of_libraryName? hname c hc)
  exact fun before after => isRedirected_of_relocateSplit hsplit hpackage hmodule.1 hout

end RuleText

/-- The modules of a rule that is moved refer to the inventory and to the libraries of the rule. -/
theorem Template.refersWithin_of_moveRule {ev : Evaluator} {target : TargetName}
    {kind : TemplateKind} {rule : TargetRule} {a : Artifact}
    (h : moveRule ev (.forTemplate target kind) rule = .ok a) :
    ∀ m ∈ a.modules, RuleText.RefersWithin (.forTemplate target kind) m.2 := by
  obtain ⟨-, hsource, hlibs, -, -⟩ := of_moveRule h
  intro m hm
  rcases List.mem_cons.1 hm with rfl | hm
  · exact RuleText.refersWithin_of_relocateMain hsource
  · obtain ⟨source, hmoved⟩ := exists_relocateLib_of_moveLibs hlibs m hm
    exact RuleText.refersWithin_of_relocateLib hmoved

/-- The modules that a compiled template has for a target refer to the inventory and to the
libraries for this target. -/
theorem CompiledTemplate.IsOutcome.refersWithin {compiled : CompiledTemplate} {ev : Evaluator}
    {registry : Registry} {policy : CompilePolicy} (h : compiled.IsOutcome ev registry policy)
    {target : TargetName} {m : ModuleId × String} (hm : m ∈ compiled.modules)
    (hcovers : (ModuleId.forTemplate target compiled.kind).covers m.1 = true) :
    RuleText.RefersWithin (.forTemplate target compiled.kind) m.2 := by
  obtain ⟨target', a, ha, hma⟩ := mem_modules_iff.1 hm
  obtain ⟨rule, -, hcompile⟩ := h.compileTarget_eq ha
  -- The paths of two targets that cover a module together are the same.
  have hident := (ModuleId.eq_of_covers_forTemplate ((h.standsAt ha).2.covers hma) hcovers).1
  have hmodule :
      ModuleId.forTemplate target compiled.kind = .forTemplate target' compiled.kind := by
    rw [ModuleId.forTemplate, ModuleId.forTemplate, hident]
  rw [hmodule]
  exact Template.refersWithin_of_moveRule (Template.of_compileTarget hcompile).2 m hma

/-! ### Confined evaluators -/

namespace RuleQuery

/-- The loaded modules that a question is about: its module and those nested beneath it. -/
def ownModules (q : RuleQuery) : List (ModuleId × String) :=
  q.modules.filter fun m => q.module.covers m.1

/-- Two questions differ in nothing but modules that they are not about. -/
structure Alike (q q' : RuleQuery) : Prop where
  module_eq : q.module = q'.module
  rule_eq : q.rule = q'.rule
  inventory_eq : q.inventory = q'.inventory
  input_eq : q.input = q'.input
  ownModules_eq : q.ownModules = q'.ownModules

/-- A question for the entry point of a template. All modules that it loads are those of templates,
as the store admits them, and the modules that it is about refer to nothing but the inventory and
the libraries of the template. -/
structure IsConfined (q : RuleQuery) (ev : Evaluator) : Prop where
  exists_module : ∃ target kind, q.module = .forTemplate target kind
  rule_eq : q.rule = entryPoint
  exists_covers : ∀ m ∈ q.modules,
    ∃ target kind, (ModuleId.forTemplate target kind).covers m.1 = true
  admits : ∀ m ∈ q.modules, Store.Admits ev m
  refersWithin : ∀ m ∈ q.ownModules, RuleText.RefersWithin q.module m.2

end RuleQuery

/-- Answers to confined questions depend on the inventory, the input and the modules that a question
is about alone. Other modules may still keep a question from being answered. -/
def Evaluator.Confined (ev : Evaluator) : Prop :=
  ∀ q q' : RuleQuery, q.Alike q' → q.IsConfined ev → q'.IsConfined ev →
    ∀ results results', ev.results q = .ok results → ev.results q' = .ok results' →
      results = results'

end PolicyEngine
