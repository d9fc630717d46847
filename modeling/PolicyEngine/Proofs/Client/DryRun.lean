import PolicyEngine.Proofs.Client.Coherence
import PolicyEngine.Proofs.Schema.Reading
import PolicyEngine.Proofs.Template.Admitted

/-!
# Adding templates and dry runs

A template can be compiled without being installed. Installing it does more and less than that: the
store looks at the modules once more, and a template that is there already is not compiled again.
Neither makes a difference. The store admits whatever a template compiles to, and equal templates
fail at the same targets, although their schema documents may differ in the sign of a zero.

## Main definitions

* `PolicyEngine.Template.Alike` — templates that are equal as values.

## Main results

* `PolicyEngine.Template.compile_alike` — equal templates compile alike.
* `PolicyEngine.Client.Coherent.map_failures_addTemplate` — a template is installed, with the
  failures of the dry run, if the dry run has a result.
* `PolicyEngine.Client.addTemplate_run` — the same after any operations, and that no template which
  compiles is refused by the store.
-/

namespace PolicyEngine

/-! ### Equal templates -/

namespace Json

theorem rel_of_beq {a b : Option Json} (h : (a == b) = true) :
    Option.Rel (fun a b => a.beq b = true) a b := by
  cases a <;> cases b <;> first | exact .none | cases h | skip
  exact .some h

end Json

namespace Template

/-- Templates of which all parts are the same but the schema documents, which are equal as
values. -/
structure Alike (t t' : Template) : Prop where
  kind_eq : t.kind = t'.kind
  shortNames_eq : t.shortNames = t'.shortNames
  legacySchema_eq : t.validation.legacySchema = t'.validation.legacySchema
  schema : Option.Rel (fun a b => a.beq b = true) t.validation.schema t'.validation.schema
  targets_eq : t.targets = t'.targets

theorem alike_of_beq {t t' : Template} (h : (t == t') = true) : t.Alike t' := by
  have hparts : (((t.kind == t'.kind && t.shortNames == t'.shortNames) &&
      (t.validation.legacySchema == t'.validation.legacySchema &&
        t.validation.schema == t'.validation.schema)) &&
      t.targets.entries == t'.targets.entries) = true := h
  simp only [Bool.and_eq_true, beq_iff_eq] at hparts
  obtain ⟨⟨⟨hkind, hnames⟩, hlegacy, hschema⟩, hentries⟩ := hparts
  exact ⟨hkind, hnames, hlegacy, Json.rel_of_beq hschema, SortedMap.ext_entries hentries⟩

namespace Alike

variable {t t' : Template} {ev : Evaluator} {registry : Registry}

theorem artifacts_eq (h : t.Alike t') : t.artifacts ev registry = t'.artifacts ev registry := by
  rw [artifacts, artifacts, h.kind_eq, h.targets_eq]

theorem failures_eq (h : t.Alike t') : t.failures ev registry = t'.failures ev registry := by
  rw [failures, failures, h.kind_eq, h.targets_eq]

/-- Equal schema documents both are schemas or none is. -/
theorem deriveParameters_alike (h : t.Alike t') :
    Outcome.Alike (fun _ _ => True) (ConstraintSchema.deriveParameters t)
      (ConstraintSchema.deriveParameters t') := by
  have hschema := h.schema
  rw [ConstraintSchema.deriveParameters, ConstraintSchema.deriveParameters]
  generalize t.validation.schema = document at hschema ⊢
  generalize t'.validation.schema = document' at hschema ⊢
  cases hschema with
  | none => exact .ok trivial
  | some hdocument =>
    dsimp only
    have hread := Schema.ofJson_alike hdocument
    revert hread
    generalize Schema.ofJson _ = x
    generalize Schema.ofJson _ = y
    rintro (⟨-⟩ | -)
    · exact .ok trivial
    · exact .error

end Alike

/-- Equal templates compile both or not at all, and fail at the same targets. -/
theorem compile_alike {t t' : Template} (h : (t == t') = true) (ev : Evaluator)
    (registry : Registry) (policy : CompilePolicy) :
    Outcome.Alike (fun c c' => c.failures = c'.failures) (t.compile ev registry policy)
      (t'.compile ev registry policy) := by
  have halike := alike_of_beq h
  have hderived : Outcome.Alike (fun _ _ => True) (ConstraintSchema.derive t registry)
      (ConstraintSchema.derive t' registry) :=
    halike.deriveParameters_alike.map fun _ => trivial
  rw [compile, compile, checkShortNames, checkShortNames, halike.shortNames_eq]
  refine (Outcome.Alike.refl (fun _ => trivial) _).bind fun (_ : True) => ?_
  refine hderived.bind fun _ => ?_
  dsimp only
  rw [halike.artifacts_eq, halike.failures_eq, halike.kind_eq]
  split
  · exact .error
  · exact .ok rfl

end Template

/-! ### Dry runs -/

namespace Client

variable {client : Client}

/-- Preparing a template that compiles succeeds. -/
theorem exists_prepareTemplate_eq_ok {t : Template} {compiled : CompiledTemplate}
    (h : client.validateTemplate t = .ok compiled) :
    ∃ prepared, client.prepareTemplate t = .ok (compiled, prepared) := by
  obtain ⟨hout, -⟩ := CompiledTemplate.IsOutcome.of_compile h
  obtain ⟨prepared, hprepared⟩ := hout.exists_prepare_eq_ok (client.cache.template? t.kind)
  refine ⟨prepared, ?_⟩
  rw [prepareTemplate, h]
  change (Store.prepare client.setup.evaluator _).mapError _ >>= _ = _
  rw [hprepared]
  rfl

/-- A template that is there already compiles with the failures that are recorded. -/
theorem Coherent.exists_validateTemplate_of_current? (h : client.Coherent) {t : Template}
    {compiled : CompiledTemplate} (hcurrent : client.current? t = some compiled) :
    ∃ compiled', client.validateTemplate t = .ok compiled' ∧
      compiled'.failures = compiled.failures := by
  rw [current?, Option.filter_eq_some_iff] at hcurrent
  obtain ⟨hcompiled, hequal⟩ := hcurrent
  have halike := Template.compile_alike hequal client.setup.evaluator client.setup.registry
    client.setup.config.compilePolicy
  rw [h.isOutcome hcompiled] at halike
  obtain ⟨compiled', hvalid⟩ := halike.exists_eq_ok_iff.1 ⟨compiled, rfl⟩
  rw [validateTemplate]
  rw [hvalid] at halike ⊢
  cases halike with
  | ok hfailures => exact ⟨compiled', rfl, hfailures.symm⟩

/-- Adding a template and validating it end with the same failures or with the same error. -/
theorem Coherent.map_failures_addTemplate (h : client.Coherent) (t : Template) :
    (client.addTemplate t).2.map TemplateStatus.failures =
      (client.validateTemplate t).map CompiledTemplate.failures := by
  rw [Client.addTemplate]
  split
  · rename_i compiled hcurrent
    obtain ⟨compiled', hvalid, hfailures⟩ := h.exists_validateTemplate_of_current? hcurrent
    rw [hvalid]
    exact congrArg Except.ok hfailures.symm
  · cases hvalid : client.validateTemplate t with
    | error e =>
      rw [prepareTemplate, hvalid]
      rfl
    | ok compiled =>
      obtain ⟨prepared, hprepared⟩ := exists_prepareTemplate_eq_ok hvalid
      rw [hprepared]
      rfl

/-- **Dry runs tell what adding a template does.** After any operations from a fresh client a
template is installed if and only if the dry run compiles it, and both report the same failures, or
the same error. The store admits every template that compiles, in place of any predecessor: each
source that is moved into the module of a template declares the identifier it is moved to. -/
theorem addTemplate_run (setup : Setup) (operations : List Operation) (t : Template) :
    let client := ((Client.fresh setup).run operations).1
    ((∃ status, (client.addTemplate t).2 = .ok status) ↔
        ∃ compiled, client.validateTemplate t = .ok compiled) ∧
      (client.addTemplate t).2.map TemplateStatus.failures =
        (client.validateTemplate t).map CompiledTemplate.failures ∧
      (∀ compiled, client.validateTemplate t = .ok compiled →
        (∀ m ∈ compiled.modules, (RuleText.findPackage? m.2).map (·.path) = some m.1.path) ∧
          ∀ previous, ∃ prepared,
            Store.prepare setup.evaluator (compiled.moduleChange previous) = .ok prepared) ∧
      ∀ (target : TargetName) (kind : TemplateKind) (source : String),
        (∀ moved, RuleText.relocateMain source (.forTemplate target kind) = .ok moved →
          (RuleText.findPackage? moved).map (·.path) =
            some (ModuleId.forTemplate target kind).path) ∧
        ∀ id moved, RuleText.relocateLib source (.forTemplate target kind) = .ok (id, moved) →
          (RuleText.findPackage? moved).map (·.path) = some id.path := by
  intro client
  have hfailures := ((Coherent.fresh setup).run operations).map_failures_addTemplate t
  refine ⟨?_, hfailures, fun compiled hvalid => ?_, fun target kind source =>
    ⟨fun _ => RuleText.path_findPackage?_relocateMain,
      fun _ _ => RuleText.path_findPackage?_relocateLib⟩⟩
  · rw [← Outcome.exists_map_eq_ok (f := TemplateStatus.failures), hfailures,
      Outcome.exists_map_eq_ok]
  · rw [validateTemplate, setup_run] at hvalid
    obtain ⟨hout, -⟩ := CompiledTemplate.IsOutcome.of_compile hvalid
    exact ⟨fun m hm => (hout.admits m hm).package, hout.exists_prepare_eq_ok⟩

/-! ### An instance -/

namespace Unserved

/-- A target that handles no values. -/
def target : Target where
  name := ⟨"pages", by decide +kernel⟩
  matchSchema := .anything
  shape? _ := none
  covers _ _ := true
  dataEntry? _ := none

/-- A client with one target. -/
def setup : Setup where
  evaluator := { parses := fun _ => true, results := fun _ => .ok [] }
  registry := ⟨[target], List.pairwise_singleton _ _⟩

/-- The name of a target that is not registered. -/
def missing : TargetName := ⟨"files", by decide +kernel⟩

/-- A main source and a library. -/
def rule : TargetRule where
  rego := "package p\nviolation[1]"
  libs := ["package lib.a\nc = data.lib.b"]

/-- A template that compiles for one of its two targets. -/
def template : Template where
  kind := ⟨"Own", by decide +kernel⟩
  targets := (SortedMap.empty.insert target.name rule).insert missing rule

end Unserved

theorem addTemplate_run_unserved :
    let client := ((Client.fresh Unserved.setup).run [.addTemplate Unserved.template]).1
    ∃ compiled status, client.validateTemplate Unserved.template = .ok compiled ∧
      compiled.modules.length = 2 ∧ (client.addTemplate Unserved.template).2 = .ok status ∧
        status.change = .unchanged ∧ status.failures = compiled.failures ∧
          compiled.failures.map Prod.fst = [Unserved.missing] := by
  intro client
  have hcompiles : (client.validateTemplate Unserved.template).toOption.any (fun compiled =>
      compiled.modules.length = 2 ∧
        compiled.failures.map Prod.fst = [Unserved.missing]) = true := by
    rw [validateTemplate, setup_run]
    decide +kernel
  have hknown : (client.addTemplate Unserved.template).2.toOption.all
      (·.change = .unchanged) = true := by
    decide +kernel
  rw [Option.any_eq_true] at hcompiles
  obtain ⟨compiled, hvalid, hparts⟩ := hcompiles
  obtain ⟨hmodules, hfailures⟩ := of_decide_eq_true hparts
  have hvalid := Outcome.toOption_eq_some.1 hvalid
  obtain ⟨hiff, hsame, -⟩ := addTemplate_run Unserved.setup [.addTemplate Unserved.template]
    Unserved.template
  obtain ⟨status, hstatus⟩ := hiff.2 ⟨compiled, hvalid⟩
  refine ⟨compiled, status, hvalid, hmodules, hstatus, ?_, ?_, hfailures⟩
  · rw [hstatus] at hknown
    exact of_decide_eq_true hknown
  · rw [hstatus, hvalid] at hsame
    exact Except.ok.inj hsame

end Client

end PolicyEngine
