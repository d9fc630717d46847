import PolicyEngine.Proofs.Schema.Walk
import PolicyEngine.Proofs.Template.Declared

/-!
# The published schema of constraints

A template publishes one schema for its constraints: an object with the enforcement action, the
parameters and the match specification, each with a schema of its own. Constraints are not checked
against it but part by part, and the match specification against the schema of one target after
another. The published schema has the match schema of the target if there is one only, and leaves
match specifications open if there are several. So what it accepts is what the check accepts in the
first case, and more in the second.

## Main definitions

* `PolicyEngine.Constraint.content` — what the published schema describes of a constraint.
* `PolicyEngine.Template.registeredTargets` — the registered targets that a template declares.

## Main results

* `PolicyEngine.ConstraintSchema.violations_root_eq_nil_iff` — what the published schema accepts.
* `PolicyEngine.CompiledTemplate.IsOutcome.keys_matchSchemas_perm` — the targets with a match schema
  in the check.
* `PolicyEngine.CompiledTemplate.IsOutcome.violations_root` — how the published schema compares with
  the check.
-/

namespace PolicyEngine

/-! ### What is published -/

namespace Constraint

/-- The parts of a constraint that its template has schemas for. Null parameters are left out, and
so is an absent match specification. -/
def parts (c : Constraint) : List (String × Json) :=
  [("enforcementAction", .str c.action.label)] ++
    (if c.parameters.isNull then [] else [("parameters", c.parameters)]) ++
    c.matchSpec.toList.map fun spec => ("match", spec)

/-- What the published schema of constraints describes of a constraint. -/
def content (c : Constraint) : Json := .ofMembers c.parts

theorem nodup_keys_parts (c : Constraint) : (c.parts.map Prod.fst).Nodup := by
  rw [parts]
  cases c.parameters.isNull <;> cases c.matchSpec <;> simp

theorem forall_mem_parts_iff {c : Constraint} {P : String → Json → Prop} :
    (∀ m ∈ c.parts, P m.1 m.2) ↔ P "enforcementAction" (.str c.action.label) ∧
      (c.parameters.isNull = false → P "parameters" c.parameters) ∧
      ∀ spec, c.matchSpec = some spec → P "match" spec := by
  rw [parts]
  cases c.parameters.isNull <;> cases c.matchSpec <;> simp

end Constraint

namespace ConstraintSchema

/-- The schemas of the parts of a constraint. -/
def partSchemas (s : ConstraintSchema) : List (String × Schema) :=
  [("enforcementAction", .string), ("parameters", s.parameters)] ++ s.publishedMatch

theorem nodup_keys_partSchemas (s : ConstraintSchema) : (s.partSchemas.map Prod.fst).Nodup := by
  rw [partSchemas, publishedMatch]
  split <;> simp

theorem get?_partSchemas (s : ConstraintSchema) (name : String) :
    Assoc.get? name s.partSchemas =
      (Assoc.get? name [("enforcementAction", Schema.string), ("parameters", s.parameters)]).or
        (Assoc.get? name s.publishedMatch) :=
  Assoc.get?_append ..

/-- What the published schema finds wrong with a part of a constraint. -/
def partViolations (s : ConstraintSchema) : String → Json → List Schema.Violation :=
  Schema.memberViolations (Assoc.ofList s.partSchemas) .reject

theorem root_eq (s : ConstraintSchema) : s.root =
    .object { description := some ("Constraints of kind " ++ s.kind.text) }
      (Assoc.ofList s.partSchemas) [] .reject := rfl

theorem partViolations_of_get? {s : ConstraintSchema} {name : String} {t : Schema}
    (h : Assoc.get? name s.partSchemas = some t) (value : Json) :
    s.partViolations name value = t.violations value := by
  rw [← Assoc.get?_ofList s.nodup_keys_partSchemas] at h
  exact Schema.memberViolations_of_get?_eq_some h value

/-- The published schema accepts a constraint if it accepts its parameters, unless they are null,
and its match specification, if it has one. -/
theorem violations_root_eq_nil_iff {s : ConstraintSchema} {c : Constraint} {published : Schema}
    (h : Assoc.get? "match" s.publishedMatch = some published) :
    s.root.violations c.content = [] ↔
      (c.parameters.isNull = false → s.parameters.accepts c.parameters = true) ∧
        ∀ spec, c.matchSpec = some spec → published.accepts spec = true := by
  have haction : s.partViolations "enforcementAction" (.str c.action.label) = [] :=
    partViolations_of_get? (t := .string) (get?_partSchemas s _) _
  have hparameters : ∀ v, s.partViolations "parameters" v = s.parameters.violations v :=
    partViolations_of_get? (get?_partSchemas s _)
  have hmatch : ∀ v, s.partViolations "match" v = published.violations v :=
    partViolations_of_get? ((get?_partSchemas s _).trans h)
  have hall : s.root.violations c.content = [] ↔ ∀ m ∈ c.parts, s.partViolations m.1 m.2 = [] := by
    rw [root_eq, Constraint.content, Json.ofMembers, Schema.violations_object]
    -- The root lists no values and requires no members, so what is left are the parts.
    change List.flatMap _ _ = [] ↔ _
    rw [List.flatMap_eq_nil_iff]
    simp only [List.map_eq_nil_iff, Assoc.mem_ofList_iff c.nodup_keys_parts]
    rfl
  rw [hall, Constraint.forall_mem_parts_iff (P := fun name v => s.partViolations name v = []),
    haction, hparameters]
  simp only [hmatch, Schema.accepts, List.isEmpty_iff, true_and]

/-- There is a schema of match specifications if there are targets. It accepts what some target
accepts, and if there is one target only it accepts nothing else. -/
theorem exists_publishedMatch {s : ConstraintSchema} (h : s.matchSchemas.values ≠ []) :
    ∃ published, Assoc.get? "match" s.publishedMatch = some published ∧
      ∀ spec, ((∃ m ∈ s.matchSchemas.values, m.accepts spec = true) →
          published.accepts spec = true) ∧
        (s.matchSchemas.values.length = 1 → published.accepts spec = true →
          ∃ m ∈ s.matchSchemas.values, m.accepts spec = true) := by
  rw [publishedMatch]
  match hvalues : s.matchSchemas.values with
  | [] => exact absurd hvalues h
  | [only] =>
    refine ⟨only, rfl, fun spec => ⟨?_, fun _ haccepts => ?_⟩⟩
    · rintro ⟨m, hm, haccepts⟩
      rwa [List.mem_singleton.1 hm] at haccepts
    · exact ⟨only, List.mem_singleton_self only, haccepts⟩
  | _ :: _ :: _ =>
    refine ⟨_, rfl, fun spec => ⟨fun _ => ?_, fun hlength => ?_⟩⟩
    · rw [Schema.accepts, List.isEmpty_iff]
      exact Schema.violations_any rfl spec
    · simp at hlength

end ConstraintSchema

/-! ### Publication and check -/

/-- The registered targets that a template declares. -/
def Template.registeredTargets (t : Template) (registry : Registry) : List Target :=
  registry.targets.filter fun target => t.targets.contains target.name

namespace CompiledTemplate.IsOutcome

variable {ev : Evaluator} {registry : Registry} {policy : CompilePolicy}
  {compiled : CompiledTemplate}

/-- There is one match schema for each declared target that is registered. -/
theorem keys_matchSchemas_perm (h : compiled.IsOutcome ev registry policy) :
    compiled.schema.matchSchemas.keys.Perm
      ((compiled.template.registeredTargets registry).map (·.name)) := by
  have hnames : ((compiled.template.registeredTargets registry).map (·.name)).Nodup :=
    (registry.nodup_idents.of_map _).sublist (List.filter_sublist.map _)
  refine (List.perm_ext_iff_of_nodup (SortedMap.nodup_keys _) hnames).2 fun name => ?_
  simp only [SortedMap.mem_keys_iff, h.get?_matchSchemas_eq_some_iff, Template.registeredTargets,
    List.mem_map, List.mem_filter]
  constructor
  · rintro ⟨-, hdeclared, target, ht, rfl, -⟩
    exact ⟨target, ⟨ht, hdeclared⟩, rfl⟩
  · rintro ⟨target, ⟨ht, hdeclared⟩, rfl⟩
    exact ⟨_, hdeclared, target, ht, rfl, rfl⟩

theorem length_values_matchSchemas (h : compiled.IsOutcome ev registry policy) :
    compiled.schema.matchSchemas.values.length =
      (compiled.template.registeredTargets registry).length := by
  have hkeys := h.keys_matchSchemas_perm.length_eq
  rw [SortedMap.keys, List.length_map, List.length_map] at hkeys
  rw [SortedMap.values, List.length_map, hkeys]

theorem values_matchSchemas_ne_nil (h : compiled.IsOutcome ev registry policy) :
    compiled.schema.matchSchemas.values ≠ [] := by
  obtain ⟨target, ht, hdeclared⟩ := h.exists_registered
  have hmem : target ∈ compiled.template.registeredTargets registry :=
    List.mem_filter.2 ⟨ht, hdeclared⟩
  rw [← List.length_pos_iff_ne_nil, h.length_values_matchSchemas]
  exact List.length_pos_of_mem hmem

/-- **The published schema agrees with the check.** What the check of a compiled template lets pass
is accepted by the schema that the template publishes. Where one declared target is registered the
two agree on every constraint. -/
theorem violations_root (h : compiled.IsOutcome ev registry policy) (c : Constraint) :
    (compiled.schema.validate c = .ok () → compiled.schema.root.violations c.content = []) ∧
      ((compiled.template.registeredTargets registry).length = 1 →
        (compiled.schema.validate c = .ok () ↔
          compiled.schema.root.violations c.content = [])) := by
  obtain ⟨published, hget, hpublished⟩ :=
    ConstraintSchema.exists_publishedMatch h.values_matchSchemas_ne_nil
  have hsome : ¬compiled.schema.matchSchemas.isEmpty = true := fun hempty =>
    h.values_matchSchemas_ne_nil (by rw [SortedMap.values, List.isEmpty_iff.1 hempty]; rfl)
  rw [ConstraintSchema.validate_eq_ok_iff, ConstraintSchema.violations_root_eq_nil_iff hget]
  simp only [or_iff_right hsome]
  have hsound := fun spec => (hpublished spec).1
  refine ⟨And.imp_right fun hmatch spec hspec => hsound spec (hmatch spec hspec), fun hone => ?_⟩
  rw [← h.length_values_matchSchemas] at hone
  have hcomplete := fun spec => (hpublished spec).2 hone
  exact and_congr_right fun _ => forall₂_congr fun spec _ => ⟨hsound spec, hcomplete spec⟩

/-! ### An instance -/

namespace Publication

/-- A target that handles every value, with the schema of its match specifications. -/
def target (name : TargetName) (matchSchema : Schema) : Target where
  name
  matchSchema
  shape? v := some v
  covers _ _ := true
  dataEntry? _ := none

/-- A target whose match specifications name a floor. -/
def lobbies : Target := target ⟨"lobbies", by decide +kernel⟩ (.record [("floor", .integer)])

/-- A target whose match specifications name an owner. -/
def alcoves : Target := target ⟨"alcoves", by decide +kernel⟩ (.record [("owner", .string)])

/-- The registry of the lobbies alone. -/
def floors : Registry := ⟨[lobbies], by simp⟩

/-- The registry of both targets. -/
def rooms : Registry := ⟨[lobbies, alcoves], by decide +kernel⟩

/-- An evaluator that takes every module and finds no violations. -/
def evaluator : Evaluator where
  parses _ := true
  results _ := .ok []

/-- A template for lobbies and alcoves, whose parameter is a number of seats. -/
def seating : Template where
  kind := ⟨"Seating", by decide +kernel⟩
  targets := [lobbies.name, alcoves.name].foldl
    (fun targets name => targets.insert name { rego := "package a\nviolation[r] { r }" }) .empty
  validation := { schema := some (Schema.record [("seats", .integer)]).toJson }

/-- A constraint with a match specification. -/
def constraint (spec : List (String × Json)) : Constraint where
  kind := seating.kind
  name := ⟨"occupied", by decide +kernel⟩
  parameters := .obj [("seats", .ofInt 4)]
  matchSpec := some (.obj spec)

/-- A constraint for a floor. -/
def upstairs : Constraint := constraint [("floor", .ofInt 2)]

/-- A constraint for a floor and an owner, which is for no target. -/
def nowhere : Constraint := constraint [("floor", .ofInt 2), ("owner", .str "nobody")]

end Publication

open Publication in
theorem violations_root_seating :
    (∃ compiled : CompiledTemplate, compiled.IsOutcome evaluator floors .bestEffort ∧
      compiled.schema.root.violations upstairs.content = [] ∧
        compiled.schema.validate nowhere ≠ .ok () ∧
          compiled.schema.root.violations nowhere.content ≠ []) ∧
      ∃ compiled : CompiledTemplate, compiled.IsOutcome evaluator rooms .bestEffort ∧
        compiled.schema.root.violations upstairs.content = [] ∧
          compiled.schema.validate nowhere ≠ .ok () ∧
            compiled.schema.root.violations nowhere.content = [] := by
  have hfloors : (seating.compile evaluator floors .bestEffort).toOption.any (fun compiled =>
      (compiled.schema.validate upstairs).toBool = true ∧
        (compiled.schema.validate nowhere).toBool = false) = true := by
    decide +kernel
  have hrooms : (seating.compile evaluator rooms .bestEffort).toOption.any (fun compiled =>
      (compiled.schema.validate upstairs).toBool = true ∧
        (compiled.schema.validate nowhere).toBool = false ∧
          (compiled.schema.root.violations nowhere.content).isEmpty = true) = true := by
    decide +kernel
  have hrefused : ∀ {x : Except PolicyError Unit}, x.toBool = false → x ≠ .ok () := by
    rintro x hx rfl
    cases hx
  rw [Option.any_eq_true] at hfloors hrooms
  constructor
  · obtain ⟨compiled, hcompiled, hparts⟩ := hfloors
    obtain ⟨hupstairs, hnowhere⟩ := of_decide_eq_true hparts
    obtain ⟨hout, htemplate⟩ := of_compile (Outcome.toOption_eq_some.1 hcompiled)
    have hone : (compiled.template.registeredTargets floors).length = 1 := by
      rw [htemplate]
      decide +kernel
    have hagree := fun c => (violations_root hout c).2 hone
    exact ⟨compiled, hout, (hagree upstairs).1 (Outcome.eq_ok_of_toBool hupstairs),
      hrefused hnowhere, fun h => hrefused hnowhere ((hagree nowhere).2 h)⟩
  · obtain ⟨compiled, hcompiled, hparts⟩ := hrooms
    obtain ⟨hupstairs, hnowhere, hopen⟩ := of_decide_eq_true hparts
    obtain ⟨hout, -⟩ := of_compile (Outcome.toOption_eq_some.1 hcompiled)
    exact ⟨compiled, hout, (violations_root hout upstairs).1 (Outcome.eq_ok_of_toBool hupstairs),
      hrefused hnowhere, List.isEmpty_iff.1 hopen⟩

end CompiledTemplate.IsOutcome

end PolicyEngine
