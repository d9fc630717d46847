import PolicyEngine.Cache.Basic
import PolicyEngine.Proofs.Template.Compile

/-!
# The targets that a template declares

A template compiles at each target that it declares, or fails there. Where it is compiled as a whole
it compiles at one of them at least, and only registered targets compile. Each declared target that
is registered contributes its match schema. So a constraint that satisfies the schema of its
template applies at some target that is declared and registered: its match specification passes one
of the schemas, or it has none and applies at every target.

## Main results

* `PolicyEngine.CompiledTemplate.IsOutcome.mem_declaredTargets_iff` — the targets with an artifact
  or a failure are those that the template declares.
* `PolicyEngine.CompiledTemplate.IsOutcome.exists_registered` — one of them is registered.
* `PolicyEngine.ConstraintSchema.validate_eq_ok_iff` — which constraints satisfy the schema.
* `PolicyEngine.CompiledTemplate.IsOutcome.exists_matchApplies` — where a constraint that satisfies
  the schema applies.
-/

namespace PolicyEngine

/-! ### Artifacts and failures -/

namespace Template

variable {ev : Evaluator} {registry : Registry} {policy : CompilePolicy} {t : Template}
  {target : TargetName}

theorem mem_failures_iff {e : PolicyError} :
    (target, e) ∈ t.failures ev registry ↔
      ∃ rule, t.targets.get? target = some rule ∧
        compileTarget ev registry t.kind target rule = .error e := by
  rw [failures, List.mem_filterMap]
  constructor
  · rintro ⟨⟨target', rule⟩, hrule, hfailed⟩
    cases hcompiles : compileTarget ev registry t.kind target' rule with
    | ok a => simp [hcompiles] at hfailed
    | error e' =>
      obtain ⟨rfl, rfl⟩ : target' = target ∧ e' = e := by simpa [hcompiles] using hfailed
      exact ⟨rule, SortedMap.mem_entries_iff.1 hrule, hcompiles⟩
  · rintro ⟨rule, hrule, he⟩
    refine ⟨(target, rule), SortedMap.mem_entries_iff.2 hrule, ?_⟩
    dsimp only
    rw [he]

/-- A template declares the targets at which it compiles and those at which it fails. -/
theorem mem_keys_targets_iff : target ∈ t.targets.keys ↔
    target ∈ (t.artifacts ev registry).keys ∨
      target ∈ (t.failures ev registry).map Prod.fst := by
  rw [SortedMap.mem_keys_iff, SortedMap.mem_keys_iff]
  constructor
  · rintro ⟨rule, hrule⟩
    cases hcompiles : compileTarget ev registry t.kind target rule with
    | ok a => exact .inl ⟨a, get?_artifacts_eq_some_iff.2 ⟨rule, hrule, hcompiles⟩⟩
    | error e =>
      have hmem := mem_failures_iff.2 ⟨rule, hrule, hcompiles⟩
      exact .inr (List.mem_map_of_mem (f := Prod.fst) hmem)
  · rintro (⟨a, ha⟩ | hfailed)
    · obtain ⟨rule, hrule, -⟩ := get?_artifacts_eq_some_iff.1 ha
      exact ⟨rule, hrule⟩
    · obtain ⟨⟨_, e⟩, he, rfl⟩ := List.mem_map.1 hfailed
      obtain ⟨rule, hrule, -⟩ := mem_failures_iff.1 he
      exact ⟨rule, hrule⟩

/-- A template that compiles has an artifact. -/
theorem isEmpty_artifacts_of_compile {compiled : CompiledTemplate}
    (h : t.compile ev registry policy = .ok compiled) : compiled.artifacts.isEmpty = false := by
  rw [compile, Outcome.bind_eq_ok] at h
  obtain ⟨-, -, h⟩ := h
  obtain ⟨schema, -, h⟩ := Outcome.bind_eq_ok.1 h
  dsimp only at h
  split at h
  · cases h
  · rename_i haccepted
    rw [Bool.or_eq_true, not_or, Bool.not_eq_true] at haccepted
    rw [← Except.ok.inj h]
    exact haccepted.1

end Template

namespace CompiledTemplate.IsOutcome

variable {ev : Evaluator} {registry : Registry} {policy : CompilePolicy}
  {compiled : CompiledTemplate}

/-- The targets with an artifact or a failure are those that the template declares. -/
theorem mem_declaredTargets_iff (h : compiled.IsOutcome ev registry policy) {target : TargetName} :
    target ∈ Cache.declaredTargets compiled ↔
      compiled.template.targets.contains target = true := by
  obtain ⟨schema, -, heq⟩ := Template.eq_of_compile h
  have hartifacts : compiled.artifacts = compiled.template.artifacts ev registry := by rw [heq]
  have hfailures : compiled.failures = compiled.template.failures ev registry := by rw [heq]
  rw [Cache.declaredTargets, hartifacts, hfailures, List.mem_append,
    ← Template.mem_keys_targets_iff, SortedMap.mem_keys_iff, SortedMap.contains_iff]

/-- A template that is compiled declares a registered target. -/
theorem exists_registered (h : compiled.IsOutcome ev registry policy) :
    ∃ target ∈ registry.targets, compiled.template.targets.contains target.name = true := by
  have hne : ¬∀ target, compiled.artifacts.get? target = none := by
    rw [← SortedMap.isEmpty_iff, Template.isEmpty_artifacts_of_compile h]
    exact Bool.false_ne_true
  obtain ⟨name, hname⟩ := not_forall.1 hne
  obtain ⟨a, ha⟩ := Option.ne_none_iff_exists'.1 hname
  obtain ⟨target, ht, rfl⟩ := Registry.exists_of_contains (h.standsAt ha).1
  obtain ⟨rule, hrule, -⟩ := h.compileTarget_eq ha
  exact ⟨target, ht, SortedMap.contains_iff.2 ⟨rule, hrule⟩⟩

/-! ### Match schemas -/

/-- The match schemas are those of the declared targets that are registered. -/
theorem get?_matchSchemas_eq_some_iff (h : compiled.IsOutcome ev registry policy)
    {name : TargetName} {schema : Schema} :
    compiled.schema.matchSchemas.get? name = some schema ↔
      compiled.template.targets.contains name = true ∧
        ∃ target ∈ registry.targets, target.name = name ∧
          target.matchSchema.resolve false = schema := by
  obtain ⟨derived, hderive, heq⟩ := Template.eq_of_compile h
  obtain ⟨parameters, -, hderived⟩ := Outcome.map_eq_ok.1 hderive
  have hschemas : compiled.schema.matchSchemas =
      ConstraintSchema.deriveMatchSchemas compiled.template registry := by
    rw [heq, ← hderived]
  rw [hschemas, ConstraintSchema.deriveMatchSchemas, SortedMap.get?_filterMap,
    Option.bind_eq_some_iff, SortedMap.contains_iff]
  simp only [Option.map_eq_some_iff, exists_and_right]
  refine and_congr_right fun _ => exists_congr fun target => ?_
  constructor
  · rintro ⟨hget, hschema⟩
    have hname : target.name = name := by simpa using List.find?_some hget
    exact ⟨List.mem_of_find?_eq_some hget, hname, hschema⟩
  · rintro ⟨ht, rfl, hschema⟩
    exact ⟨Registry.get?_name ht, hschema⟩

end CompiledTemplate.IsOutcome

/-! ### Where constraints apply -/

namespace ConstraintSchema

variable {schema : ConstraintSchema} {c : Constraint}

theorem parameterDetails_eq_nil_iff : schema.parameterDetails c = [] ↔
    c.parameters.isNull = false → schema.parameters.accepts c.parameters = true := by
  rw [parameterDetails, Schema.accepts, List.isEmpty_iff]
  cases c.parameters.isNull <;> simp

theorem rejections_eq_nil_iff {spec : Json} {target : TargetName} {s : Schema} :
    rejections spec target s = [] ↔ s.accepts spec = true := by
  rw [rejections, List.map_eq_nil_iff, Schema.accepts, List.isEmpty_iff]

/-- Nothing is wrong with a match specification that some target accepts, and with any if there are
no targets. -/
theorem matchDetails_eq_nil_iff : schema.matchDetails c = [] ↔
    ∀ spec, c.matchSpec = some spec → schema.matchSchemas.isEmpty = true ∨
      ∃ s ∈ schema.matchSchemas.values, s.accepts spec = true := by
  rw [matchDetails]
  cases c.matchSpec with
  | none => simp
  | some spec =>
    simp only [Option.some.injEq, forall_eq']
    rw [← List.any_eq_true, ← Bool.or_eq_true]
    split
    · rename_i hany
      exact iff_of_true rfl hany
    · -- Every target that refuses the specification says why, so there would be no target.
      rename_i hnone
      refine iff_of_false (fun hnil => ?_) hnone
      obtain ⟨hsome, hrefused⟩ := not_or.1 (Bool.or_eq_true _ _ ▸ hnone)
      obtain ⟨e, he⟩ := List.exists_mem_of_ne_nil _ (mt List.isEmpty_iff.2 hsome)
      have haccepts := rejections_eq_nil_iff.1 (List.flatMap_eq_nil_iff.1 hnil e he)
      exact hrefused (List.any_eq_true.2 ⟨e.2, List.mem_map_of_mem he, haccepts⟩)

/-- A constraint satisfies the schema if its parameters satisfy theirs, unless they are null, and
its match specification that of some target, if it has one and there are targets. -/
theorem validate_eq_ok_iff : schema.validate c = .ok () ↔
    (c.parameters.isNull = false → schema.parameters.accepts c.parameters = true) ∧
      ∀ spec, c.matchSpec = some spec → schema.matchSchemas.isEmpty = true ∨
        ∃ s ∈ schema.matchSchemas.values, s.accepts spec = true := by
  rw [validate, ← parameterDetails_eq_nil_iff, ← matchDetails_eq_nil_iff, ← List.append_eq_nil_iff,
    ← details, ← List.isEmpty_iff]
  split
  · rename_i hdetails
    exact iff_of_true rfl hdetails
  · rename_i hdetails
    exact iff_of_false (fun h => nomatch h) hdetails

end ConstraintSchema

namespace CompiledTemplate.IsOutcome

variable {ev : Evaluator} {registry : Registry} {policy : CompilePolicy}
  {compiled : CompiledTemplate}

/-- A constraint that satisfies the schema of a compiled template applies at a registered target
that the template declares. -/
theorem exists_matchApplies (h : compiled.IsOutcome ev registry policy) {c : Constraint}
    (hvalid : compiled.schema.validate c = .ok ()) :
    ∃ target ∈ registry.targets, compiled.template.targets.contains target.name = true ∧
      compiled.schema.matchApplies target.name c.matchSpec = true := by
  obtain ⟨target, ht, hdeclared⟩ := h.exists_registered
  cases hspec : c.matchSpec with
  | none => exact ⟨target, ht, hdeclared, rfl⟩
  | some spec =>
    have hget := h.get?_matchSchemas_eq_some_iff.2 ⟨hdeclared, target, ht, rfl, rfl⟩
    have hne : ¬compiled.schema.matchSchemas.isEmpty = true := fun hempty => by
      rw [SortedMap.isEmpty_iff.1 hempty] at hget
      cases hget
    obtain ⟨accepted, hmem, haccepts⟩ :=
      ((ConstraintSchema.validate_eq_ok_iff.1 hvalid).2 spec hspec).resolve_left hne
    obtain ⟨name, hname⟩ := SortedMap.mem_values_iff.1 hmem
    obtain ⟨hdeclared', target', ht', rfl, -⟩ := h.get?_matchSchemas_eq_some_iff.1 hname
    refine ⟨target', ht', hdeclared', ?_⟩
    rw [ConstraintSchema.matchApplies, hname]
    exact haccepts

end CompiledTemplate.IsOutcome

end PolicyEngine
