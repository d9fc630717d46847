import PolicyEngine.Proofs.Template.Declared

/-!
# Templates compile target by target

A template is compiled at each of the targets that it declares, and what comes of one target depends
on nothing but the kind of the template and the rule for this target. So the declared targets are
divided into those with an artifact and those with a failure, each as if it were the only target of
its template. Only whether the template is usable at all is decided by all targets together, along
with its short names and its schema document.

## Main definitions

* `PolicyEngine.Template.WellFormed` — what of a template has to be right whatever its targets.
* `PolicyEngine.Template.CompilesAt`, `PolicyEngine.Template.FailsAt` — what comes of one target.
* `PolicyEngine.Template.IsPartOf` — a template for one of the targets of another one alone.

## Main results

* `PolicyEngine.Template.exists_compile_eq_ok_iff` — which templates compile.
* `PolicyEngine.Template.IsPartOf.compilesAt_iff`, `PolicyEngine.Template.IsPartOf.failsAt_iff` —
  what comes of a target is what comes of it alone.
* `PolicyEngine.Template.compile_partition` — the outcome of compiling, target by target.
-/

namespace PolicyEngine

namespace Template

/-- The short names have the right form, and the schema document is one if there is any. -/
structure WellFormed (t : Template) : Prop where
  shortNames : ∀ name ∈ t.shortNames, isShortName name = true
  schema : ∀ document, t.validation.schema = some document → ∃ s, Schema.ofJson document = .ok s

/-- A well-formed template of the kind of another one, for one of its targets alone. -/
structure IsPartOf (part t : Template) (target : TargetName) (rule : TargetRule) : Prop where
  wellFormed : part.WellFormed
  kind_eq : part.kind = t.kind
  entries_eq : part.targets.entries = [(target, rule)]
  rule_eq : t.targets.get? target = some rule

section Targets

variable (ev : Evaluator) (registry : Registry) (t : Template) (target : TargetName)

/-- The rule for a target compiles. -/
def CompilesAt (a : Artifact) : Prop :=
  ∃ rule, t.targets.get? target = some rule ∧ compileTarget ev registry t.kind target rule = .ok a

/-- The rule for a target does not compile. -/
def FailsAt (e : PolicyError) : Prop :=
  ∃ rule, t.targets.get? target = some rule ∧
    compileTarget ev registry t.kind target rule = .error e

/-- The failures by target. -/
def failureMap : SortedMap TargetName PolicyError :=
  t.targets.filterMap fun target rule =>
    match compileTarget ev registry t.kind target rule with
    | .ok _ => none
    | .error e => some e

end Targets

variable {ev : Evaluator} {registry : Registry} {policy : CompilePolicy} {t : Template}
  {target : TargetName}

/-! ### Form -/

theorem checkShortNames_eq_ok_iff :
    t.checkShortNames = .ok () ↔ ∀ name ∈ t.shortNames, isShortName name = true := by
  rw [checkShortNames, Outcome.mapError_eq_ok, Outcome.forM_eq_ok]
  refine forall₂_congr fun name _ => ?_
  rw [checkShortName]
  split <;> simp_all

theorem exists_derive_eq_ok_iff : (∃ schema, ConstraintSchema.derive t registry = .ok schema) ↔
    ∀ document, t.validation.schema = some document → ∃ s, Schema.ofJson document = .ok s := by
  rw [ConstraintSchema.derive, Outcome.exists_map_eq_ok, ConstraintSchema.deriveParameters]
  cases t.validation.schema with
  | none => simp
  | some document => cases hread : Schema.ofJson document <;> simp [hread]

theorem wellFormed_iff (registry : Registry) : t.WellFormed ↔
    t.checkShortNames = .ok () ∧ ∃ schema, ConstraintSchema.derive t registry = .ok schema := by
  rw [checkShortNames_eq_ok_iff, exists_derive_eq_ok_iff]
  exact ⟨fun h => ⟨h.shortNames, h.schema⟩, fun h => ⟨h.1, h.2⟩⟩

/-! ### Declared targets -/

theorem entries_failureMap : (t.failureMap ev registry).entries = t.failures ev registry := by
  refine List.filterMap_congr ?_
  rintro ⟨target, rule⟩ -
  dsimp only
  cases compileTarget ev registry t.kind target rule <;> rfl

theorem sorted_failures : Assoc.Sorted (t.failures ev registry) :=
  entries_failureMap ▸ (t.failureMap ev registry).sorted

theorem get?_failures_eq_some_iff {e : PolicyError} :
    Assoc.get? target (t.failures ev registry) = some e ↔ t.FailsAt ev registry target e := by
  have hentry := SortedMap.mem_entries_iff (m := t.failureMap ev registry) (k := target) (x := e)
  rw [entries_failureMap] at hentry
  rw [← entries_failureMap]
  exact hentry.symm.trans mem_failures_iff

theorem isEmpty_artifacts_iff :
    (t.artifacts ev registry).isEmpty = true ↔ ∀ target a, ¬t.CompilesAt ev registry target a := by
  rw [SortedMap.isEmpty_iff]
  refine forall_congr' fun target => ?_
  rw [Option.eq_none_iff_forall_ne_some]
  exact forall_congr' fun a => not_congr get?_artifacts_eq_some_iff

theorem isEmpty_failures_iff :
    (t.failures ev registry).isEmpty = true ↔ ∀ target e, ¬t.FailsAt ev registry target e := by
  rw [List.isEmpty_iff, List.eq_nil_iff_forall_not_mem, Prod.forall]
  exact forall₂_congr fun target e => not_congr mem_failures_iff

theorem CompilesAt.not_failsAt {a : Artifact} (h : t.CompilesAt ev registry target a)
    {e : PolicyError} : ¬t.FailsAt ev registry target e := by
  rintro ⟨rule', hrule', he⟩
  obtain ⟨rule, hrule, ha⟩ := h
  obtain rfl : rule = rule' := Option.some.inj (hrule.symm.trans hrule')
  rw [ha] at he
  cases he

/-! ### Templates as a whole -/

/-- The targets decide that a template is not refused if one of them compiles and the policy lets
others fail or none does. -/
theorem refuses_eq_false_iff (policy : CompilePolicy) :
    ((t.artifacts ev registry).isEmpty ||
        (policy == .strict && !(t.failures ev registry).isEmpty)) = false ↔
      (∃ target a, t.CompilesAt ev registry target a) ∧
        (policy = .bestEffort ∨ ∀ target e, ¬t.FailsAt ev registry target e) := by
  rw [Bool.or_eq_false_iff, ← isEmpty_failures_iff, ← Bool.not_eq_true, isEmpty_artifacts_iff]
  cases policy <;> simp

/-- A well-formed template compiles unless its targets decide that it is refused. -/
theorem compile_eq_ite (hnames : t.checkShortNames = .ok ()) {schema : ConstraintSchema}
    (hschema : ConstraintSchema.derive t registry = .ok schema) :
    t.compile ev registry policy =
      if (t.artifacts ev registry).isEmpty ||
        (policy == .strict && !(t.failures ev registry).isEmpty) then
        .error (rejection t.kind (!(t.artifacts ev registry).isEmpty) (t.failures ev registry))
      else .ok ⟨t, schema, t.artifacts ev registry, t.failures ev registry⟩ := by
  rw [compile, hnames, hschema]
  rfl

/-- A template compiles if it is well-formed and its targets do not decide otherwise. -/
theorem exists_compile_eq_ok_iff : (∃ compiled, t.compile ev registry policy = .ok compiled) ↔
    t.WellFormed ∧ (∃ target a, t.CompilesAt ev registry target a) ∧
      (policy = .bestEffort ∨ ∀ target e, ¬t.FailsAt ev registry target e) := by
  rw [← refuses_eq_false_iff, wellFormed_iff registry]
  constructor
  · rintro ⟨compiled, h⟩
    rw [compile, Outcome.bind_eq_ok] at h
    obtain ⟨⟨⟩, hnames, h⟩ := h
    obtain ⟨schema, hschema, h⟩ := Outcome.bind_eq_ok.1 h
    refine ⟨⟨hnames, schema, hschema⟩, ?_⟩
    dsimp only at h
    split at h
    · cases h
    · rename_i hrefuses
      exact Bool.not_eq_true _ ▸ hrefuses
  · rintro ⟨⟨hnames, schema, hschema⟩, hrefuses⟩
    exact ⟨_, (compile_eq_ite hnames hschema).trans (if_neg (Bool.not_eq_true _ ▸ hrefuses))⟩

/-- The error of a well-formed template is made of what failed. -/
theorem WellFormed.eq_rejection (hwell : t.WellFormed) {e : PolicyError}
    (h : t.compile ev registry policy = .error e) :
    e = rejection t.kind (!(t.artifacts ev registry).isEmpty) (t.failures ev registry) := by
  obtain ⟨hnames, schema, hschema⟩ := (wellFormed_iff registry).1 hwell
  rw [compile_eq_ite hnames hschema] at h
  split at h
  · exact (Except.error.inj h).symm
  · cases h

/-- What failed is listed unless it is one target and nothing else compiled. -/
theorem rejection_eq_templateRejected {kind : TemplateKind} {compiledSome : Bool}
    {failures : List (TargetName × PolicyError)}
    (h : ∀ failure, compiledSome = false → failures ≠ [failure]) :
    rejection kind compiledSome failures = .templateRejected kind failures := by
  cases compiledSome with
  | true => rfl
  | false =>
    match failures with
    | [] => rfl
    | [failure] => exact absurd rfl (h failure rfl)
    | _ :: _ :: _ => rfl

/-- Where no target compiles, all of them fail. -/
theorem keys_eq_of_isEmpty_artifacts (h : (t.artifacts ev registry).isEmpty = true) :
    t.targets.keys = (t.failures ev registry).map Prod.fst := by
  rw [failures, List.map_filterMap, SortedMap.keys, ← List.filterMap_eq_map]
  refine List.filterMap_congr ?_
  rintro ⟨target, rule⟩ hmem
  cases hcompiles : compileTarget ev registry t.kind target rule with
  | ok a =>
    exact absurd ⟨rule, SortedMap.mem_entries_iff.1 hmem, hcompiles⟩
      (isEmpty_artifacts_iff.1 h target a)
  | error e => simp [hcompiles]

/-! ### One target alone -/

/-- A well-formed template for a single target compiles as the rule for this target does. -/
theorem WellFormed.map_artifact?_compile (hwell : t.WellFormed) {rule : TargetRule}
    (hentries : t.targets.entries = [(target, rule)]) :
    (t.compile ev registry policy).map (·.artifact? target) =
      (compileTarget ev registry t.kind target rule).map some := by
  have hrule : t.targets.get? target = some rule :=
    SortedMap.mem_entries_iff.1 (hentries ▸ List.mem_singleton_self _)
  obtain ⟨hnames, schema, hschema⟩ := (wellFormed_iff registry).1 hwell
  rw [compile_eq_ite hnames hschema]
  cases hcompiles : compileTarget ev registry t.kind target rule with
  | ok a =>
    have hartifact : (t.artifacts ev registry).get? target = some a :=
      get?_artifacts_eq_some_iff.2 ⟨rule, hrule, hcompiles⟩
    have hfailures : t.failures ev registry = [] := by simp [failures, hentries, hcompiles]
    have hrefuses := (refuses_eq_false_iff policy).2 ⟨⟨target, a, rule, hrule, hcompiles⟩,
      .inr (isEmpty_failures_iff.1 (List.isEmpty_iff.2 hfailures))⟩
    rw [if_neg (Bool.not_eq_true _ ▸ hrefuses)]
    exact congrArg Except.ok hartifact
  | error e =>
    have hfailures : t.failures ev registry = [(target, e)] := by
      simp [failures, hentries, hcompiles]
    have hempty : (t.artifacts ev registry).isEmpty = true := by
      rw [isEmpty_artifacts_iff]
      rintro target' a ⟨rule', hrule', ha⟩
      obtain ⟨rfl, rfl⟩ : target' = target ∧ rule' = rule := by
        simpa [hentries] using SortedMap.mem_entries_iff.2 hrule'
      simp [ha] at hcompiles
    rw [hempty, hfailures]
    rfl

namespace IsPartOf

variable {part : Template} {rule : TargetRule}

theorem map_artifact?_compile (h : part.IsPartOf t target rule) :
    (part.compile ev registry policy).map (·.artifact? target) =
      (compileTarget ev registry t.kind target rule).map some :=
  h.kind_eq ▸ h.wellFormed.map_artifact?_compile h.entries_eq

/-- A target compiles as it does alone. -/
theorem compilesAt_iff (h : part.IsPartOf t target rule) (policy : CompilePolicy) {a : Artifact} :
    t.CompilesAt ev registry target a ↔
      ∃ compiled, part.compile ev registry policy = .ok compiled ∧
        compiled.artifact? target = some a := by
  rw [← Outcome.map_eq_ok, h.map_artifact?_compile, Outcome.map_eq_ok]
  simp [CompilesAt, h.rule_eq]

/-- A target fails as it does alone. -/
theorem failsAt_iff (h : part.IsPartOf t target rule) (policy : CompilePolicy) {e : PolicyError} :
    t.FailsAt ev registry target e ↔ part.compile ev registry policy = .error e := by
  rw [← Outcome.map_eq_error, h.map_artifact?_compile, Outcome.map_eq_error]
  simp [FailsAt, h.rule_eq]

end IsPartOf

/-! ### The outcome -/

theorem mem_keys_artifacts_iff : target ∈ (t.artifacts ev registry).keys ↔
    ∃ a, t.CompilesAt ev registry target a :=
  SortedMap.mem_keys_iff.trans (exists_congr fun _ => get?_artifacts_eq_some_iff)

theorem mem_map_failures_iff : target ∈ (t.failures ev registry).map Prod.fst ↔
    ∃ e, t.FailsAt ev registry target e := by
  rw [List.mem_map]
  constructor
  · rintro ⟨⟨_, e⟩, he, rfl⟩
    exact ⟨e, mem_failures_iff.1 he⟩
  · rintro ⟨e, he⟩
    exact ⟨_, mem_failures_iff.2 he, rfl⟩

/-- No target has both an artifact and a failure. -/
theorem disjoint_keys_failures :
    (t.artifacts ev registry).keys.Disjoint ((t.failures ev registry).map Prod.fst) := by
  intro target hcompiles hfails
  obtain ⟨a, ha⟩ := mem_keys_artifacts_iff.1 hcompiles
  obtain ⟨e, he⟩ := mem_map_failures_iff.1 hfails
  exact ha.not_failsAt he

/-- The only target of a well-formed template that does not compile fails as the template does. -/
theorem WellFormed.failsAt_of_keys_eq (hwell : t.WellFormed) {e : PolicyError}
    (h : t.compile ev registry policy = .error e) (hkeys : t.targets.keys = [target]) :
    t.FailsAt ev registry target e := by
  obtain ⟨⟨_, rule⟩, hentries, rfl⟩ := List.map_eq_singleton_iff.1 hkeys
  have hpart : t.IsPartOf t _ rule :=
    ⟨hwell, rfl, hentries, SortedMap.mem_entries_iff.1 (hentries ▸ List.mem_singleton_self _)⟩
  exact (hpart.failsAt_iff policy).2 h

/-- Otherwise a well-formed template that does not compile is refused for all that failed. -/
theorem WellFormed.eq_templateRejected (hwell : t.WellFormed) {e : PolicyError}
    (h : t.compile ev registry policy = .error e) (hkeys : ∀ target, t.targets.keys ≠ [target]) :
    e = .templateRejected t.kind (t.failures ev registry) := by
  rw [hwell.eq_rejection h]
  refine rejection_eq_templateRejected fun failure hnone hfailures => hkeys failure.1 ?_
  have hempty : (t.artifacts ev registry).isEmpty = true := by simpa using hnone
  rw [keys_eq_of_isEmpty_artifacts hempty, hfailures]
  rfl

/-- **Targets compile on their own.** A compiled template has an artifact or else a failure for each
target that it declares and for no other one, the failures in the order of the targets. What comes
of a target is what comes of a template of the same kind for that target alone. A template compiles
if it is well-formed and some target compiles, under the strict policy only if no target fails. A
well-formed template that does not compile fails as its only target does, or is refused with the
failures of all targets that fail, in their order. -/
theorem compile_partition (ev : Evaluator) (registry : Registry) (policy : CompilePolicy)
    (t : Template) :
    (∀ compiled, t.compile ev registry policy = .ok compiled →
      compiled.template = t ∧
      compiled.artifacts.keys.Disjoint (compiled.failures.map Prod.fst) ∧
      (∀ target, target ∈ t.targets.keys ↔
        target ∈ compiled.artifacts.keys ∨ target ∈ compiled.failures.map Prod.fst) ∧
      Assoc.Sorted compiled.failures ∧
      ∀ target,
        (∀ a, compiled.artifact? target = some a ↔ t.CompilesAt ev registry target a) ∧
        ∀ e, compiled.failure? target = some e ↔ t.FailsAt ev registry target e) ∧
    (∀ (target : TargetName) (rule : TargetRule) (part : Template) (policy' : CompilePolicy),
      part.IsPartOf t target rule →
        (∀ a, t.CompilesAt ev registry target a ↔
          ∃ compiled, part.compile ev registry policy' = .ok compiled ∧
            compiled.artifact? target = some a) ∧
        ∀ e, t.FailsAt ev registry target e ↔ part.compile ev registry policy' = .error e) ∧
    ((∃ compiled, t.compile ev registry policy = .ok compiled) ↔
      t.WellFormed ∧ (∃ target a, t.CompilesAt ev registry target a) ∧
        (policy = .bestEffort ∨ ∀ target e, ¬t.FailsAt ev registry target e)) ∧
    ∀ e, t.WellFormed → t.compile ev registry policy = .error e →
      (∀ target, t.targets.keys = [target] → t.FailsAt ev registry target e) ∧
      ((∀ target, t.targets.keys ≠ [target]) →
        ∃ failures, e = .templateRejected t.kind failures ∧ Assoc.Sorted failures ∧
          ∀ target e', (target, e') ∈ failures ↔ t.FailsAt ev registry target e') := by
  refine ⟨fun compiled h => ?_, fun target rule part policy' hpart =>
    ⟨fun a => hpart.compilesAt_iff policy', fun e => hpart.failsAt_iff policy'⟩,
    exists_compile_eq_ok_iff, fun e hwell h => ⟨fun target => hwell.failsAt_of_keys_eq h,
      fun hkeys => ⟨_, hwell.eq_templateRejected h hkeys, sorted_failures,
        fun _ _ => mem_failures_iff⟩⟩⟩
  obtain ⟨schema, -, rfl⟩ := eq_of_compile h
  exact ⟨rfl, disjoint_keys_failures, fun _ => mem_keys_targets_iff, sorted_failures,
    fun _ => ⟨fun _ => get?_artifacts_eq_some_iff, fun _ => get?_failures_eq_some_iff⟩⟩

namespace PartlyServed

def cellars : TargetName := ⟨"cellars", by decide +kernel⟩

def attics : TargetName := ⟨"attics", by decide +kernel⟩

/-- A registry without attics. -/
def house : Registry where
  targets := [{
    name := cellars
    matchSchema := .anything
    shape? := some
    covers := fun _ _ => true
    dataEntry? := fun _ => none }]
  distinct := List.pairwise_singleton _ _

def evaluator : Evaluator where
  parses _ := true
  results _ := .ok []

def rule : TargetRule where
  rego := "package a\nviolation[r] { r }"

/-- A template for given targets. -/
def storage (targets : List TargetName) : Template where
  kind := ⟨"Storage", by decide +kernel⟩
  targets := .ofList (targets.map (·, rule))

end PartlyServed

open PartlyServed in
theorem compile_partition_storage : ∃ e,
    (∃ compiled, (storage [cellars, attics]).compile evaluator house .bestEffort = .ok compiled ∧
      compiled.failure? attics = some e) ∧
    (storage [attics]).compile evaluator house .strict = .error e ∧
    ∃ failures, (storage [cellars, attics]).compile evaluator house .strict =
      .error (.templateRejected (storage []).kind failures) ∧ (attics, e) ∈ failures := by
  have hbest : ((storage [cellars, attics]).compile evaluator house .bestEffort).toOption.any
      (fun compiled => (compiled.failure? attics).isSome) = true := by
    decide +kernel
  have hstrict : ((storage [cellars, attics]).compile evaluator house .strict).toBool =
      false := by
    decide +kernel
  have hwell : ∀ targets, (storage targets).WellFormed := fun targets => ⟨by simp [storage],
    by simp [storage]⟩
  have hpart : (storage [attics]).IsPartOf (storage [cellars, attics]) attics rule :=
    ⟨hwell _, rfl, rfl, by decide +kernel⟩
  obtain ⟨compiled, hcompiled, hfailure⟩ := (Option.any_eq_true _ _).1 hbest
  obtain ⟨e, he⟩ := Option.isSome_iff_exists.1 hfailure
  have hcompiled := Outcome.toOption_eq_some.1 hcompiled
  obtain ⟨hok, halone, -, -⟩ := compile_partition evaluator house .bestEffort
    (storage [cellars, attics])
  obtain ⟨-, -, -, -, houtcome⟩ := hok compiled hcompiled
  have hfails := ((houtcome attics).2 e).1 he
  refine ⟨e, ⟨compiled, hcompiled, he⟩,
    ((halone attics rule _ .strict hpart).2 e).1 hfails, ?_⟩
  obtain ⟨e', he'⟩ : ∃ e', (storage [cellars, attics]).compile evaluator house .strict =
      .error e' := by
    cases hcompile : (storage [cellars, attics]).compile evaluator house .strict with
    | ok compiled => simp [hcompile, Except.toBool] at hstrict
    | error e' => exact ⟨e', rfl⟩
  obtain ⟨-, -, -, herror⟩ := compile_partition evaluator house .strict
    (storage [cellars, attics])
  obtain ⟨failures, rfl, -, hfailures⟩ := (herror e' (hwell _) he').2 fun target hkeys => by
    have hlength : (storage [cellars, attics]).targets.keys.length = 2 := by decide +kernel
    simp [hkeys] at hlength
  exact ⟨failures, he', (hfailures attics e).2 hfails⟩

end Template

end PolicyEngine
