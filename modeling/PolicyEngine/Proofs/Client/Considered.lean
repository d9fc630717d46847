import PolicyEngine.Proofs.Cache.Lookups
import PolicyEngine.Proofs.Client.Coherence
import PolicyEngine.Proofs.Template.Declared

/-!
# Accepted constraints are considered

A constraint is accepted if it satisfies the schema of its template, which looks at its match
specification for all targets together. Which targets consider it is decided again for each of them,
when the constraint is entered into the index. The two agree: a constraint that is accepted is
considered at a registered target that its template declares, and at every declared target if it has
no match specification. None is stored without effect.

## Main results

* `PolicyEngine.Cache.WellFormed.exists_mem_forTarget` — a constraint that applies at a target is
  considered there.
* `PolicyEngine.Client.exists_template_of_addConstraint` — an accepted constraint satisfies the
  schema of its template.
* `PolicyEngine.Client.considered_addConstraint_run` — accepted constraints are considered.
-/

namespace PolicyEngine

/-! ### Constraints that apply -/

namespace Cache

variable {cache : Cache} {target : TargetName}

/-- A constraint that applies at a target is considered there. -/
theorem WellFormed.exists_mem_forTarget (h : cache.WellFormed) {key : ConstraintKey}
    {entry : ConstraintEntry} (hentry : cache.constraint? key = some entry)
    (happlies : cache.applies target entry = true) :
    ∃ tc ∈ cache.forTarget target, tc.constraint = entry.constraint := by
  have hmem : entry ∈ cache.entries.filter (cache.applies target) :=
    List.mem_filter.2 ⟨h.ordered.mem_entries_of_get? hentry, happlies⟩
  have hconstraint := List.mem_map_of_mem (f := ConstraintEntry.constraint) hmem
  rw [← map_constraint_considered, ← h.forTarget_eq] at hconstraint
  exact List.mem_map.1 hconstraint

/-- A constraint in force applies where its template declares the target and its match specification
applies. -/
theorem applies_of_template? {entry : ConstraintEntry} {compiled : CompiledTemplate}
    (hactive : entry.status = .active)
    (hcompiled : cache.template? entry.constraint.kind = some compiled)
    (hdeclared : target ∈ declaredTargets compiled)
    (happlies : compiled.schema.matchApplies target entry.constraint.matchSpec = true) :
    cache.applies target entry = true := by
  rw [template?] at hcompiled
  rw [applies, ConstraintEntry.isActive, hactive, hcompiled, Option.any_some, happlies,
    List.contains_iff_mem.2 hdeclared]
  rfl

end Cache

/-! ### Constraints that are accepted -/

namespace Client

variable {client : Client} {c : Constraint}

/-- An accepted constraint satisfies the schema of its template, and is stored. -/
theorem exists_template_of_addConstraint (h : (client.addConstraint c).2 = .ok ()) :
    (client.addConstraint c).1.cache = (client.cache.putConstraint c).bump ∧
      ∃ compiled, client.cache.template? c.kind = some compiled ∧
        compiled.schema.validate c = .ok () := by
  rw [addConstraint, Cache.upsertConstraint] at h ⊢
  cases hcheck : client.cache.checkConstraint c with
  | error e =>
    rw [hcheck] at h
    cases h
  | ok _ =>
    refine ⟨rfl, ?_⟩
    rw [Cache.checkConstraint] at hcheck
    split at hcheck
    · cases hcheck
    · rename_i compiled hcompiled
      exact ⟨compiled, hcompiled, hcheck⟩

/-- An accepted constraint is considered wherever its template declares a target at which it
applies. -/
theorem Coherent.exists_mem_forTarget_addConstraint (h : client.Coherent)
    (hadded : (client.addConstraint c).2 = .ok ()) {compiled : CompiledTemplate}
    (hcompiled : (client.addConstraint c).1.cache.template? c.kind = some compiled)
    {target : TargetName} (hdeclared : target ∈ Cache.declaredTargets compiled)
    (happlies : compiled.schema.matchApplies target c.matchSpec = true) :
    ∃ tc ∈ (client.addConstraint c).1.cache.forTarget target, tc.constraint = c := by
  obtain ⟨hcache, -⟩ := exists_template_of_addConstraint hadded
  have hstored : (client.addConstraint c).1.cache.constraint? c.key = some
      { constraint := c
        seq := ((client.cache.constraint? c.key).map (·.seq)).getD client.cache.nextSeq } := by
    rw [hcache]
    exact (Cache.constraint?_putConstraint client.cache c c.key).trans (if_pos rfl)
  exact (h.perform (.addConstraint c)).wellFormed.exists_mem_forTarget hstored
    (Cache.applies_of_template? rfl hcompiled hdeclared happlies)

/-- **No accepted constraint is without effect.** After any operations from a fresh client, a
constraint that is accepted is considered by the reviews of at least one registered target that its
template declares; and if it has no match specification, by those of every target that its template
declares. -/
theorem considered_addConstraint_run (setup : Setup) (operations : List Operation) (c : Constraint)
    (hadded : (((Client.fresh setup).run operations).1.addConstraint c).2 = .ok ()) :
    let cache := (((Client.fresh setup).run operations).1.addConstraint c).1.cache
    ∃ compiled, cache.template? c.kind = some compiled ∧
      (∃ target ∈ setup.registry.targets,
        compiled.template.targets.contains target.name = true ∧
          ∃ tc ∈ cache.forTarget target.name, tc.constraint = c) ∧
      (c.matchSpec = none → ∀ target, compiled.template.targets.contains target = true →
        ∃ tc ∈ cache.forTarget target, tc.constraint = c) := by
  intro cache
  have h : ((Client.fresh setup).run operations).1.Coherent := (Coherent.fresh setup).run operations
  obtain ⟨-, compiled, hcompiled, hvalid⟩ := exists_template_of_addConstraint hadded
  -- The schema that accepted the constraint is that of the template before the step, which keeps
  -- it.
  have hkept : cache.template? c.kind = some compiled :=
    (Cache.template?_upsertConstraint _ _ _).trans hcompiled
  have hout := h.isOutcome hcompiled
  rw [setup_run] at hout
  have hconsidered : ∀ {target}, compiled.template.targets.contains target = true →
      compiled.schema.matchApplies target c.matchSpec = true →
        ∃ tc ∈ cache.forTarget target, tc.constraint = c :=
    fun hdeclared => h.exists_mem_forTarget_addConstraint hadded hkept
      (hout.mem_declaredTargets_iff.2 hdeclared)
  refine ⟨compiled, hkept, ?_, fun hspec target hdeclared => hconsidered hdeclared ?_⟩
  · obtain ⟨target, ht, hdeclared, happlies⟩ := hout.exists_matchApplies hvalid
    exact ⟨target, ht, hdeclared, hconsidered hdeclared happlies⟩
  · rw [hspec]
    rfl

/-! ### An instance -/

namespace Acceptance

/-- A target that handles every value, with the schema of its match specifications. -/
def target (name : TargetName) (matchSchema : Schema) : Target where
  name
  matchSchema
  shape? v := some v
  covers _ _ := true
  dataEntry? _ := none

/-- A target whose match specifications name a floor. -/
def lounges : Target := target ⟨"lounges", by decide +kernel⟩ (.record [("floor", .integer)])

/-- A target whose match specifications name an owner. -/
def desks : Target := target ⟨"desks", by decide +kernel⟩ (.record [("owner", .string)])

/-- A target that is not registered. -/
def halls : TargetName := ⟨"halls", by decide +kernel⟩

def setup : Setup where
  evaluator := { parses := fun _ => true, results := fun _ => .ok [] }
  registry := ⟨[lounges, desks], by decide +kernel⟩

/-- A template for three targets, one of which is not registered. -/
def template : Template where
  kind := ⟨"Booking", by decide +kernel⟩
  targets := [lounges.name, desks.name, halls].foldl
    (fun targets name => targets.insert name { rego := "package a\nviolation[r] { r }" }) .empty

/-- A constraint that is for the owner of a desk. -/
def constraint : Constraint where
  kind := template.kind
  name := ⟨"reserved", by decide +kernel⟩
  matchSpec := some (.obj [("owner", .str "nobody")])

def operations : List Operation := [.addTemplate template]

end Acceptance

theorem considered_addConstraint_run_acceptance :
    let added := ((Client.fresh Acceptance.setup).run Acceptance.operations).1.addConstraint
      Acceptance.constraint
    added.2 = .ok () ∧
      (∃ compiled, added.1.cache.template? Acceptance.constraint.kind = some compiled ∧
        ∃ target ∈ Acceptance.setup.registry.targets,
          compiled.template.targets.contains target.name = true ∧
            ∃ tc ∈ added.1.cache.forTarget target.name,
              tc.constraint = Acceptance.constraint) ∧
      (added.1.cache.forTarget Acceptance.lounges.name).length = 0 ∧
      (added.1.cache.forTarget Acceptance.desks.name).length = 1 := by
  dsimp only
  obtain ⟨hok, hlounges, hdesks⟩ :
      let added := ((Client.fresh Acceptance.setup).run Acceptance.operations).1.addConstraint
        Acceptance.constraint
      added.2.toBool = true ∧ (added.1.cache.forTarget Acceptance.lounges.name).length = 0 ∧
        (added.1.cache.forTarget Acceptance.desks.name).length = 1 := by
    decide +kernel
  have hadded : (((Client.fresh Acceptance.setup).run Acceptance.operations).1.addConstraint
      Acceptance.constraint).2 = .ok () := Outcome.eq_ok_of_toBool hok
  obtain ⟨compiled, hcompiled, hconsidered, -⟩ :=
    considered_addConstraint_run Acceptance.setup Acceptance.operations Acceptance.constraint hadded
  exact ⟨hadded, ⟨compiled, hcompiled, hconsidered⟩, hlounges, hdesks⟩

end Client

end PolicyEngine
