import PolicyEngine.Evaluator
import PolicyEngine.RuleText.Definition
import PolicyEngine.Template.ConstraintSchema

/-!
# Compiled templates

Compiling a template moves its sources into the modules of its targets, checks them, and derives the
schema of its constraints. Each target is compiled on its own. Where some of them fail the compile
policy decides whether the template can be used at the others.

## Main definitions

* `PolicyEngine.Artifact` — what a template compiles to for one target.
* `PolicyEngine.CompiledTemplate`, `PolicyEngine.Template.compile`.
* `PolicyEngine.CompiledTemplate.moduleChange` — the modules to drop and put when it is installed.
-/

namespace PolicyEngine

/-- The modules that a template compiles to for one target. -/
structure Artifact where
  module : ModuleId
  source : String
  libs : List (ModuleId × String) := []
deriving DecidableEq

/-- The main module and the libraries with their sources. -/
def Artifact.modules (a : Artifact) : List (ModuleId × String) :=
  (a.module, a.source) :: a.libs

/-- A template with what it compiles to. -/
structure CompiledTemplate where
  template : Template
  schema : ConstraintSchema
  artifacts : SortedMap TargetName Artifact
  /-- The targets for which the template does not compile, by name. -/
  failures : List (TargetName × PolicyError)

namespace CompiledTemplate

/-- The kind of the template. -/
def kind (c : CompiledTemplate) : TemplateKind := c.template.kind

/-- What the template compiles to for a target. -/
def artifact? (c : CompiledTemplate) (target : TargetName) : Option Artifact :=
  c.artifacts.get? target

/-- Why the template does not compile for a target. -/
def failure? (c : CompiledTemplate) (target : TargetName) : Option PolicyError :=
  Assoc.get? target c.failures

/-- The main modules of the template. -/
def moduleIds (c : CompiledTemplate) : List ModuleId := c.artifacts.values.map (·.module)

/-- The modules of the template with their sources, libraries included. -/
def modules (c : CompiledTemplate) : List (ModuleId × String) :=
  c.artifacts.values.flatMap Artifact.modules

/-- The change that installs the template in place of a previous one. -/
def moduleChange (c : CompiledTemplate) (previous : Option CompiledTemplate) : ModuleChange where
  removals := (previous.map moduleIds).getD []
  puts := c.modules

/-- The change that removes the template. -/
def removal (c : CompiledTemplate) : ModuleChange where
  removals := c.moduleIds

end CompiledTemplate

namespace Template

/-! ### One target -/

/-- Move libraries beneath a module, counting from a given position. -/
def moveLibs (module : ModuleId) :
    Nat → List String → Except RuleFault (List (ModuleId × String))
  | _, [] => .ok []
  | i, source :: rest => do
    let moved ← (RuleText.relocateLib source module).mapError (.library i)
    let others ← moveLibs module (i + 1) rest
    return moved :: others

/-- The package of a library as its source declares it: its path beneath the module. -/
def libraryPackage (module id : ModuleId) : String :=
  String.ofList ((id.path.toList.drop module.path.length).dropWhile (· == '.'))

/-- The first library whose identifier an earlier one has, given the identifiers before it. -/
def duplicateLib? (module : ModuleId) : (seen rest : List ModuleId) → Option RuleFault
  | _, [] => none
  | seen, id :: rest =>
    match seen.findIdx? (· = id) with
    | some first => some (.duplicateLibrary seen.length (libraryPackage module id) first)
    | none => duplicateLib? module (seen ++ [id]) rest

/-- Refuse modules that the evaluator cannot parse. -/
def checkParses (ev : Evaluator) (modules : List (ModuleId × String)) : Except RuleFault Unit :=
  match modules.find? fun m => !ev.parses m.2 with
  | some (id, _) => .error (.parse id)
  | none => .ok ()

/-- Move the sources of a rule into its module and check them. -/
def moveRule (ev : Evaluator) (module : ModuleId) (rule : TargetRule) :
    Except RuleFault Artifact := do
  let source ← (RuleText.relocateMain rule.rego module).mapError .main
  let libs ← moveLibs module 0 rule.libs
  match duplicateLib? module [] (libs.map (·.1)) with
  | some fault => throw fault
  | none =>
    let artifact : Artifact := { module, source, libs }
    checkParses ev artifact.modules
    return artifact

/-- Compile the rule of a template for one target. -/
def compileTarget (ev : Evaluator) (registry : Registry) (kind : TemplateKind)
    (target : TargetName) (rule : TargetRule) : Except PolicyError Artifact := do
  let _ ← registry.lookup target
  let artifact ←
    (moveRule ev (.forTemplate target kind) rule).mapError (.ruleSyntax kind target)
  if RuleText.definesRule artifact.source entryPoint then return artifact
  else throw (.missingEntryPoint kind target)

/-! ### All targets -/

/-- Refuse short names of the wrong form; the first of them decides the error. -/
def checkShortNames (t : Template) : Except PolicyError Unit :=
  (t.shortNames.forM checkShortName).mapError .identifier

/-- The artifacts of the targets for which a template compiles. -/
def artifacts (ev : Evaluator) (registry : Registry) (t : Template) :
    SortedMap TargetName Artifact :=
  t.targets.filterMap fun target rule => (compileTarget ev registry t.kind target rule).toOption

/-- The errors of the targets for which a template does not compile, by name. -/
def failures (ev : Evaluator) (registry : Registry) (t : Template) :
    List (TargetName × PolicyError) :=
  t.targets.entries.filterMap fun (target, rule) =>
    match compileTarget ev registry t.kind target rule with
    | .ok _ => none
    | .error e => some (target, e)

/-- The error of a template that is refused for what failed: the failure of its only target, or all
failures together. -/
def rejection (kind : TemplateKind) (compiledSome : Bool)
    (failures : List (TargetName × PolicyError)) : PolicyError :=
  match compiledSome, failures with
  | false, [(_, e)] => e
  | _, failures => .templateRejected kind failures

/-- Compile a template. It is refused for a short name of the wrong form, for a schema document that
is none, when no target compiles, and under the strict policy when some target does not. -/
def compile (ev : Evaluator) (registry : Registry) (policy : CompilePolicy) (t : Template) :
    Except PolicyError CompiledTemplate := do
  t.checkShortNames
  let schema ← ConstraintSchema.derive t registry
  let artifacts := t.artifacts ev registry
  let failures := t.failures ev registry
  if artifacts.isEmpty || (policy == .strict && !failures.isEmpty) then
    throw (rejection t.kind (!artifacts.isEmpty) failures)
  else return { template := t, schema, artifacts, failures }

end Template

end PolicyEngine
