import Mathlib.Data.List.Basic
import PolicyEngine.Proofs.Client.Coherence

/-!
# What a review finds

What a review of an object finds can be said without the index, the batch of questions and the
passing on of results. At each target that handles the object the constraints to evaluate are read
off the list of constraints. Each of them puts one question to the evaluator, and the results of the
answers are violations of this constraint, in order. If one question has no answer the target fails
as a whole, and adds no violations. The review fails if all targets that handle the object do, and
there is at least one.

## Main definitions

* `PolicyEngine.Client.evaluated` — the constraints that a review evaluates at a target.
* `PolicyEngine.Client.answer` — what the evaluator answers for one of them.
* `PolicyEngine.Client.queryFails` — whether some question at a target has no answer.
* `PolicyEngine.Client.foundViolations` — the violations at all targets, read off the answers.

## Main results

* `PolicyEngine.Client.Coherent.constraintQueries_covering` — a review asks for what is to be
  evaluated.
* `PolicyEngine.Client.Coherent.reviewTarget_ok`,
  `PolicyEngine.Client.Coherent.reviewTarget_error`.
* `PolicyEngine.exists_results_of_reviewTarget`, `PolicyEngine.eq_foldl_of_combine` — what the review
  at a target and the whole review consist of.
* `PolicyEngine.combine_ok`, `PolicyEngine.exists_combine_eq_error_iff`.
* `PolicyEngine.Client.reviewWithin_run` — the violations and the failures of reviews.
-/

namespace PolicyEngine

/-! ### Putting findings together -/

/-- Findings that are put together one after the other keep their order. -/
theorem ReviewResult.foldl_append_eq (start : ReviewResult) (results : List ReviewResult) :
    results.foldl append start =
      { violations := start.violations ++ results.flatMap (·.violations)
        errors := start.errors ++ results.flatMap (·.errors) } := by
  induction results generalizing start with
  | nil => simp
  | cons result rest ih =>
    rw [List.foldl_cons, ih, List.flatMap_cons, List.flatMap_cons, append, List.append_assoc,
      List.append_assoc]

theorem ReviewResult.violations_foldl_append (start : ReviewResult) (results : List ReviewResult) :
    (results.foldl append start).violations =
      start.violations ++ results.flatMap (·.violations) := by
  rw [foldl_append_eq]

theorem ReviewResult.errors_foldl_append (start : ReviewResult) (results : List ReviewResult) :
    (results.foldl append start).errors = start.errors ++ results.flatMap (·.errors) := by
  rw [foldl_append_eq]

section Combine

variable {outcomes : List (TargetName × Except PolicyError ReviewResult)}

theorem length_targetFailures_eq_iff :
    (targetFailures outcomes).length = outcomes.length ↔ ∀ o ∈ outcomes, ∃ e, o.2 = .error e := by
  rw [targetFailures, List.filterMap_length_eq_length]
  refine forall₂_congr fun o _ => ?_
  obtain ⟨target, outcome⟩ := o
  cases outcome with
  | ok result => simp
  | error e => simp

/-- A review that succeeds consists of the findings at all targets. -/
theorem eq_foldl_of_combine {result : ReviewResult} (h : combine outcomes = .ok result) :
    result = (outcomes.map targetFindings).foldl .append {} := by
  rw [combine] at h
  split at h
  · exact (Except.ok.inj h).symm
  · split at h <;> cases h

/-- A review that succeeds has the violations of the targets that did. -/
theorem combine_ok {result : ReviewResult} (h : combine outcomes = .ok result) :
    result.violations = outcomes.flatMap fun o =>
      match o.2 with
      | .ok part => part.violations
      | .error _ => [] := by
  rw [eq_foldl_of_combine h, ReviewResult.violations_foldl_append, List.flatMap_map]
  refine List.flatMap_congr fun o _ => ?_
  obtain ⟨target, outcome⟩ := o
  cases outcome <;> rfl

/-- A review fails if there is a target to review at and all of them fail. -/
theorem exists_combine_eq_error_iff :
    (∃ e, combine outcomes = .error e) ↔
      outcomes ≠ [] ∧ ∀ o ∈ outcomes, ∃ e, o.2 = .error e := by
  rw [← length_targetFailures_eq_iff, combine]
  have hle : (targetFailures outcomes).length ≤ outcomes.length := List.length_filterMap_le _ _
  split
  · rename_i hsome
    rw [Bool.or_eq_true, decide_eq_true_eq, List.isEmpty_iff] at hsome
    constructor
    · rintro ⟨e, he⟩
      cases he
    · rintro ⟨hne, hall⟩
      rcases hsome with hnone | hlt
      · rw [hnone] at hall
        exact absurd (List.length_eq_zero_iff.1 hall.symm) hne
      · omega
  · rename_i hall
    rw [Bool.or_eq_true, decide_eq_true_eq, List.isEmpty_iff, not_or] at hall
    constructor
    · rintro -
      refine ⟨?_, by omega⟩
      rintro rfl
      exact hall.1 rfl
    · rintro -
      split
      · exact ⟨_, rfl⟩
      · exact ⟨_, rfl⟩

end Combine

/-- What is gathered at all targets that handle an object, in the order of registration. -/
theorem flatMap_handling {α : Type} (registry : Registry) (v : Json)
    (f : Target × Json → List α) :
    (handling registry v).flatMap f = registry.targets.flatMap fun target =>
      match target.shape? v with
      | some input => f (target, input)
      | none => [] := by
  rw [handling, List.filterMap_eq_flatMap_toList, List.flatMap_assoc]
  refine List.flatMap_congr fun target _ => ?_
  cases target.shape? v with
  | none => rfl
  | some input => exact List.flatMap_singleton _ _

/-! ### The question of a target -/

/-- The review at a target that succeeds consists of the reports of kinds without a module and of
what the results of a query add, if there is anything to ask. -/
theorem exists_results_of_reviewTarget {ev : Evaluator} {cache : Cache} {store : Store}
    {target : Target} {input : Json} {timeoutMs : Nat} {part : ReviewResult}
    (h : reviewTarget ev cache store target input timeoutMs = .ok part) :
    ∃ results : List (ConstraintKey × Json),
      part = (results.map (resultFindings target.name (covering cache target input))).foldl .append
          { errors := uncompiledErrors target.name [] (covering cache target input) } ∧
        (results = [] ∨ (constraintQueries (covering cache target input)).isEmpty = false ∧
          store.query ev target.name entryPoint input
            (constraintQueries (covering cache target input)) timeoutMs = .ok results) := by
  rw [reviewTarget] at h
  split at h
  · exact ⟨[], (Except.ok.inj h).symm, .inl rfl⟩
  · rename_i hne
    split at h
    · cases h
    · rename_i results hresults
      exact ⟨results, (Except.ok.inj h).symm, .inr ⟨Bool.eq_false_iff.2 hne, hresults⟩⟩

/-- Without a missing module and with time to spend a query is the list of its answers. -/
theorem Store.query_eq {ev : Evaluator} {store : Store} {target : TargetName} {rule : String}
    {review : Json} {queries : List ConstraintQuery} {timeoutMs : Nat}
    (hmodules : ∀ q ∈ queries, store.modules.contains q.module = true) (ht : timeoutMs ≠ 0) :
    store.query ev target rule review queries timeoutMs =
      match queries.mapM (evaluate ev store target rule review queries) with
      | .ok results => .ok results.flatten
      | .error fault => .error (.evaluation target fault) := by
  have hnone : queries.find? (fun c => !store.modules.contains c.module) = none := by
    refine List.find?_eq_none.2 fun q hq => ?_
    rw [hmodules q hq]
    exact Bool.false_ne_true
  rw [query, hnone]
  dsimp only
  split
  · rename_i hempty
    rw [List.isEmpty_iff.1 hempty]
    rfl
  · exact if_neg (by simpa using ht)

/-- Among constraints with distinct keys the enforcement action of a key is that of
its constraint. -/
theorem actionOf?_key {candidates : List TargetConstraint} {c : TargetConstraint}
    (hkeys : (candidates.map (·.constraint.key)).Nodup) (hc : c ∈ candidates) :
    actionOf? candidates c.constraint.key = some c.constraint.action := by
  rw [actionOf?]
  induction candidates with
  | nil => cases hc
  | cons first rest ih =>
    rw [List.map_cons, List.nodup_cons] at hkeys
    rcases List.mem_cons.1 hc with rfl | hrest
    · rw [List.find?_cons_of_pos (by simp), Option.map_some]
    · have hne : first.constraint.key ≠ c.constraint.key := fun heq =>
        hkeys.1 (heq ▸ List.mem_map_of_mem hrest)
      rw [List.find?_cons_of_neg (by simpa using hne), ih hkeys.2 hrest]

namespace Client

/-! ### Reading reviews off the constraints -/

/-- Whether a review evaluates a constraint on a shaped object: it is in force, its template
compiled for the target, and its match specification is absent or passes the strict schema of the
target, and covers the object. -/
def evaluates (client : Client) (target : Target) (input : Json) (entry : ConstraintEntry) : Bool :=
  entry.isActive &&
    ((client.cache.template? entry.constraint.kind).bind (·.artifact? target.name)).isSome &&
    entry.constraint.matchSpec.all (target.matchSchema.resolve false).accepts &&
    target.covers entry.constraint.matchSpec input

/-- The constraints that a review evaluates on a shaped object, in the order of first addition. -/
def evaluated (client : Client) (target : Target) (input : Json) : List Constraint :=
  (client.cache.entries.filter (client.evaluates target input)).map (·.constraint)

/-- A constraint as a review asks the store for it, at the module of its kind for a target. -/
def constraintQuery (target : Target) (c : Constraint) : ConstraintQuery :=
  ⟨c.key, .forTemplate target.name c.kind, c.parameters⟩

/-- The question that a review asks about one constraint. The modules are those of all constraints
that it evaluates, with what is nested beneath them. The rule reads the shaped object as its review,
and the parameters of the constraint. -/
def question (client : Client) (target : Target) (input : Json) (c : Constraint) : RuleQuery where
  modules := client.store.modules.entries.filter fun m =>
    (client.evaluated target input).any fun c' =>
      (ModuleId.forTemplate target.name c'.kind).covers m.1
  inventory := client.store.inventory target.name
  input := .ofMembers [("review", input), ("parameters", c.parameters)]
  module := .forTemplate target.name c.kind
  rule := entryPoint

/-- What the evaluator answers for one constraint. -/
def answer (client : Client) (target : Target) (input : Json) (c : Constraint) :
    Except EvaluationFault (List Json) :=
  client.setup.evaluator.results (client.question target input c)

/-- Whether the evaluator has no answer for some constraint. -/
def queryFails (client : Client) (target : Target) (input : Json) : Bool :=
  (client.evaluated target input).any fun c => (client.answer target input c).toOption.isNone

/-- A result of a constraint's rule as a violation of this constraint, if it can be read as one. -/
def violation? (target : TargetName) (c : Constraint) (v : Json) : Option Violation :=
  match readResult v with
  | .ok (message, details) =>
    some { constraint := c.key, target, action := c.action, message, details }
  | .error _ => none

/-- The violations of one constraint, in the order of the evaluator's results. -/
def violationsOf (client : Client) (target : Target) (input : Json) (c : Constraint) :
    List Violation :=
  ((client.answer target input c).toOption.getD []).filterMap (violation? target.name c)

/-- The violations at a target: none if a question has no answer. -/
def violationsAt (client : Client) (target : Target) (input : Json) : List Violation :=
  if client.queryFails target input then []
  else (client.evaluated target input).flatMap (client.violationsOf target input)

/-- The violations at all targets that handle an object, in the order of registration. -/
def foundViolations (client : Client) (v : Json) : List Violation :=
  client.setup.registry.targets.flatMap fun target =>
    match target.shape? v with
    | some input => client.violationsAt target input
    | none => []

namespace Coherent

variable {client : Client} {target : Target} {input : Json}
variable {entry : ConstraintEntry} {c : Constraint}

/-! ### The constraints to evaluate -/

/-- What a review considers has a module only if the template compiled for the target, and then the
module of target and kind. -/
theorem pairing?_eq_ok (h : client.Coherent) {module : ModuleId}
    (hpairing : client.cache.pairing? target.name entry = some ⟨c, .ok module⟩) :
    c = entry.constraint ∧ module = .forTemplate target.name entry.constraint.kind ∧
      ∃ compiled a, client.cache.templates.get? entry.constraint.kind = some compiled ∧
        compiled.artifact? target.name = some a := by
  obtain ⟨compiled, hcompiled, hpairing⟩ := Option.bind_eq_some_iff.1 hpairing
  split at hpairing
  · rename_i a ha
    obtain ⟨rfl, hmodule⟩ := TargetConstraint.mk.inj (Option.some.inj hpairing)
    obtain ⟨-, hstands⟩ := (h.isOutcome hcompiled).standsAt ha
    rw [h.wellFormed.kind_eq hcompiled] at hstands
    exact ⟨rfl, (Except.ok.inj hmodule).symm.trans hstands.module_eq, compiled, a, hcompiled, ha⟩
  · obtain ⟨e, -, heq⟩ := Option.map_eq_some_iff.1 hpairing
    cases heq

/-- A constraint is evaluated if it applies at the target, has a module there and covers
the object. -/
theorem evaluates_iff (h : client.Coherent) (ht : target ∈ client.setup.registry.targets) :
    client.evaluates target input entry = true ↔
      client.cache.applies target.name entry = true ∧
        client.cache.pairing? target.name entry = some
          ⟨entry.constraint, .ok (.forTemplate target.name entry.constraint.kind)⟩ ∧
        target.covers entry.constraint.matchSpec input = true := by
  have hstrict : ∀ {compiled a}, client.cache.templates.get? entry.constraint.kind = some compiled →
      compiled.artifact? target.name = some a →
      compiled.schema.matchApplies target.name entry.constraint.matchSpec =
        entry.constraint.matchSpec.all (target.matchSchema.resolve false).accepts := by
    intro compiled a hcompiled ha
    cases entry.constraint.matchSpec with
    | none => rfl
    | some spec =>
      change (compiled.schema.matchSchemas.get? target.name).any _ = _
      rw [(h.isOutcome hcompiled).get?_matchSchemas ht ha]
      rfl
  rw [evaluates, Cache.template?, Bool.and_eq_true, Bool.and_eq_true, Bool.and_eq_true]
  constructor
  · rintro ⟨⟨⟨hactive, hcompiles⟩, hspec⟩, hcovers⟩
    obtain ⟨a, ha⟩ := Option.isSome_iff_exists.1 hcompiles
    obtain ⟨compiled, hcompiled, ha⟩ := Option.bind_eq_some_iff.1 ha
    have hmodule := ((h.isOutcome hcompiled).standsAt ha).2.module_eq
    rw [h.wellFormed.kind_eq hcompiled] at hmodule
    refine ⟨?_, ?_, hcovers⟩
    · have hdeclared : (Cache.declaredTargets compiled).contains target.name = true :=
        List.contains_iff_mem.2 (List.mem_append_left _ (SortedMap.mem_keys_iff.2 ⟨a, ha⟩))
      rw [Cache.applies, hactive, hcompiled, Option.any_some, hdeclared, hstrict hcompiled ha,
        hspec]
      rfl
    · rw [Cache.pairing?, hcompiled, Option.bind_some, ha]
      simp only [hmodule]
  · rintro ⟨happlies, hpairing, hcovers⟩
    obtain ⟨-, -, compiled, a, hcompiled, ha⟩ := h.pairing?_eq_ok hpairing
    rw [Cache.applies, Bool.and_eq_true, hcompiled, Option.any_some, Bool.and_eq_true,
      hstrict hcompiled ha] at happlies
    refine ⟨⟨⟨happlies.1, ?_⟩, happlies.2.2⟩, hcovers⟩
    rw [hcompiled, Option.bind_some, ha]
    rfl

/-- A review asks the store for what is to be evaluated, and for nothing else. -/
theorem constraintQueries_covering (h : client.Coherent)
    (ht : target ∈ client.setup.registry.targets) (input : Json) :
    constraintQueries (covering client.cache target input) =
      (client.evaluated target input).map (constraintQuery target) := by
  rw [constraintQueries, covering, h.wellFormed.forTarget_eq, Cache.considered, evaluated,
    List.filterMap_filter, List.filterMap_filterMap, List.filterMap_filter, List.map_map,
    ← List.filterMap_eq_map, List.filterMap_filter]
  congr 1
  funext entry
  cases heval : client.evaluates target input entry with
  | true =>
    obtain ⟨happlies, hpairing, hcovers⟩ := (h.evaluates_iff ht).1 heval
    simp [happlies, hpairing, hcovers, constraintQuery]
  | false =>
    cases happlies : client.cache.applies target.name entry with
    | false => simp
    | true =>
      cases hpairing : client.cache.pairing? target.name entry with
      | none => simp
      | some tc =>
        obtain ⟨c, module⟩ := tc
        cases module with
        | error e => simp
        | ok module =>
          obtain ⟨rfl, rfl, -⟩ := h.pairing?_eq_ok hpairing
          have hcovers : target.covers entry.constraint.matchSpec input = false :=
            Bool.eq_false_iff.2 fun hcovers =>
              Bool.eq_false_iff.1 heval ((h.evaluates_iff ht).2 ⟨happlies, hpairing, hcovers⟩)
          simp [hcovers]

/-- A constraint that is evaluated is found among those a review considers. -/
theorem exists_covering (h : client.Coherent) (ht : target ∈ client.setup.registry.targets)
    (hc : c ∈ client.evaluated target input) :
    ∃ tc ∈ covering client.cache target input, tc.constraint = c := by
  obtain ⟨entry, hentry, rfl⟩ := List.mem_map.1 hc
  obtain ⟨hentry, heval⟩ := List.mem_filter.1 hentry
  obtain ⟨happlies, hpairing, hcovers⟩ := (h.evaluates_iff ht).1 heval
  refine ⟨⟨entry.constraint, .ok (.forTemplate target.name entry.constraint.kind)⟩, ?_, rfl⟩
  refine List.mem_filter.2 ⟨?_, hcovers⟩
  rw [h.wellFormed.forTarget_eq]
  exact List.mem_filterMap.2 ⟨entry, List.mem_filter.2 ⟨hentry, happlies⟩, hpairing⟩

/-- No two constraints that a review considers have the same key. -/
theorem nodup_keys_covering (h : client.Coherent) (target : Target) (input : Json) :
    ((covering client.cache target input).map (·.constraint.key)).Nodup := by
  have hall : (((client.cache.considered target.name).map (·.constraint)).map (·.key)).Nodup := by
    rw [Cache.map_constraint_considered, List.map_map]
    exact h.wellFormed.ordered.nodup_keys.sublist (List.filter_sublist.map _)
  rw [List.map_map] at hall
  rw [covering, h.wellFormed.forTarget_eq]
  exact hall.sublist (List.filter_sublist.map _)

/-- The result of a constraint that is evaluated counts as a violation of this constraint. -/
theorem violations_resultFindings (h : client.Coherent)
    (ht : target ∈ client.setup.registry.targets) (hc : c ∈ client.evaluated target input)
    (v : Json) :
    (resultFindings target.name (covering client.cache target input) (c.key, v)).violations =
      (violation? target.name c v).toList := by
  obtain ⟨tc, htc, rfl⟩ := h.exists_covering ht hc
  rw [resultFindings, actionOf?_key (h.nodup_keys_covering target input) htc, violation?]
  dsimp only
  cases readResult v with
  | ok read => rfl
  | error fault => rfl

/-! ### One target -/

/-- A query puts the question of each constraint to the evaluator. -/
theorem query_eq (h : client.Coherent) (ht : target ∈ client.setup.registry.targets)
    {timeoutMs : Nat}
    (htime : timeoutMs ≠ 0) :
    client.store.query client.setup.evaluator target.name entryPoint input
        (constraintQueries (covering client.cache target input)) timeoutMs =
      match (client.evaluated target input).mapM fun c =>
          (client.answer target input c).map (·.map fun v => (c.key, v)) with
      | .ok results => .ok results.flatten
      | .error fault => .error (.evaluation target.name fault) := by
  rw [Store.query_eq (fun q hq => h.contains_of_mem_queries hq) htime,
    h.constraintQueries_covering ht, List.mapM_map]
  have hanswer : ∀ c, Store.evaluate client.setup.evaluator client.store target.name entryPoint
      input ((client.evaluated target input).map (constraintQuery target))
      (constraintQuery target c) =
        (client.answer target input c).map (·.map fun v => (c.key, v)) := by
    intro c
    rw [Store.evaluate, Store.loaded, Store.ruleInput, answer, question]
    simp only [List.any_map]
    rfl
  simp only [Function.comp_def, hanswer]

/-- The review at a target reads the answers to the questions of all constraints. -/
theorem reviewTarget_eq (h : client.Coherent) (ht : target ∈ client.setup.registry.targets)
    {timeoutMs : Nat} (htime : timeoutMs ≠ 0) :
    reviewTarget client.setup.evaluator client.cache client.store target input timeoutMs =
      match (client.evaluated target input).mapM fun c =>
          (client.answer target input c).map (·.map fun v => (c.key, v)) with
      | .ok results =>
        .ok ((results.flatten.map
          (resultFindings target.name (covering client.cache target input))).foldl
            ReviewResult.append
            { errors := uncompiledErrors target.name [] (covering client.cache target input) })
      | .error fault => .error (.store (.evaluation target.name fault)) := by
  rw [reviewTarget, h.query_eq ht htime]
  split
  · rename_i hempty
    rw [h.constraintQueries_covering ht, List.isEmpty_iff, List.map_eq_nil_iff] at hempty
    rw [hempty]
    rfl
  · cases (client.evaluated target input).mapM fun c =>
      (client.answer target input c).map (·.map fun v => (c.key, v)) <;> rfl

/-- Without an answer for some constraint the review fails at the target. -/
theorem reviewTarget_of_queryFails (h : client.Coherent)
    (ht : target ∈ client.setup.registry.targets) {timeoutMs : Nat} (htime : timeoutMs ≠ 0)
    (hfails : client.queryFails target input = true) :
    ∃ e, reviewTarget client.setup.evaluator client.cache client.store target input timeoutMs =
      .error e := by
  obtain ⟨c, hc, hnone⟩ := List.any_eq_true.1 hfails
  cases hanswer : client.answer target input c with
  | ok results =>
    rw [hanswer] at hnone
    cases hnone
  | error fault =>
    obtain ⟨fault', herror⟩ := Outcome.exists_mapM_eq_error
      (f := fun c => (client.answer target input c).map (·.map fun v => (c.key, v))) hc
      (Outcome.map_eq_error.2 hanswer)
    rw [h.reviewTarget_eq ht htime, herror]
    exact ⟨_, rfl⟩

/-- With an answer for each constraint the review at a target finds the violations in
the answers. -/
theorem reviewTarget_of_not_queryFails (h : client.Coherent)
    (ht : target ∈ client.setup.registry.targets) {timeoutMs : Nat} (htime : timeoutMs ≠ 0)
    (hfails : client.queryFails target input = false) :
    ∃ result, reviewTarget client.setup.evaluator client.cache client.store target input timeoutMs =
        .ok result ∧
      result.violations =
        (client.evaluated target input).flatMap (client.violationsOf target input) := by
  have hanswers : ∀ c ∈ client.evaluated target input,
      (client.answer target input c).map (·.map fun v => (c.key, v)) =
        .ok (((client.answer target input c).toOption.getD []).map fun v => (c.key, v)) := by
    intro c hc
    have hsome := List.any_eq_false.1 hfails c hc
    cases hanswer : client.answer target input c with
    | ok results => rfl
    | error fault =>
      rw [hanswer] at hsome
      exact absurd rfl hsome
  rw [h.reviewTarget_eq ht htime, Outcome.mapM_eq_ok hanswers]
  refine ⟨_, rfl, ?_⟩
  rw [ReviewResult.violations_foldl_append, List.nil_append, List.flatMap_map, ← List.flatMap_def,
    List.flatMap_assoc]
  refine List.flatMap_congr fun c hc => ?_
  rw [List.flatMap_map, violationsOf, List.filterMap_eq_flatMap_toList]
  refine List.flatMap_congr fun v _ => ?_
  exact h.violations_resultFindings ht hc v

/-! ### All targets -/

/-- The violations of a review are those in the answers of the targets that do not fail. -/
theorem violations_reviewWithin (h : client.Coherent) {timeoutMs : Nat} (htime : timeoutMs ≠ 0)
    {v : Json} {result : ReviewResult} (hresult : client.reviewWithin timeoutMs v = .ok result) :
    result.violations = client.foundViolations v := by
  rw [combine_ok hresult, foundViolations, List.flatMap_map, flatMap_handling]
  refine List.flatMap_congr fun target ht => ?_
  cases target.shape? v with
  | none => rfl
  | some input =>
    dsimp only
    rw [violationsAt]
    cases hfails : client.queryFails target input with
    | true =>
      obtain ⟨e, he⟩ := h.reviewTarget_of_queryFails ht htime hfails
      rw [he]
      rfl
    | false =>
      obtain ⟨part, hpart, hviolations⟩ := h.reviewTarget_of_not_queryFails ht htime hfails
      rw [hpart]
      exact hviolations

theorem mem_handling_iff {registry : Registry} {v : Json} :
    (target, input) ∈ handling registry v ↔
      target ∈ registry.targets ∧ target.shape? v = some input := by
  rw [handling, List.mem_filterMap]
  constructor
  · rintro ⟨target', ht, hshape⟩
    obtain ⟨input', hinput, heq⟩ := Option.map_eq_some_iff.1 hshape
    obtain ⟨rfl, rfl⟩ := Prod.mk.inj heq
    exact ⟨ht, hinput⟩
  · rintro ⟨ht, hshape⟩
    exact ⟨target, ht, by rw [hshape]; rfl⟩

/-- A review fails if some target handles the object and the questions of all such targets fail. -/
theorem exists_reviewWithin_eq_error_iff (h : client.Coherent) {timeoutMs : Nat}
    (htime : timeoutMs ≠ 0) {v : Json} :
    (∃ e, client.reviewWithin timeoutMs v = .error e) ↔
      (∃ target ∈ client.setup.registry.targets, (target.shape? v).isSome = true) ∧
        ∀ target ∈ client.setup.registry.targets, ∀ input, target.shape? v = some input →
          client.queryFails target input = true := by
  rw [reviewWithin, reviewAll, exists_combine_eq_error_iff, List.forall_mem_map, ne_eq,
    List.map_eq_nil_iff]
  refine and_congr ?_ ?_
  · constructor
    · intro hne
      obtain ⟨⟨target, input⟩, hmem⟩ := List.exists_mem_of_ne_nil _ hne
      obtain ⟨ht, hshape⟩ := mem_handling_iff.1 hmem
      exact ⟨target, ht, Option.isSome_iff_exists.2 ⟨input, hshape⟩⟩
    · rintro ⟨target, ht, hsome⟩
      obtain ⟨input, hshape⟩ := Option.isSome_iff_exists.1 hsome
      exact List.ne_nil_of_mem (mem_handling_iff.2 ⟨ht, hshape⟩)
  · constructor
    · intro hall target ht input hshape
      obtain ⟨e, he⟩ := hall (target, input) (mem_handling_iff.2 ⟨ht, hshape⟩)
      cases hfails : client.queryFails target input with
      | true => rfl
      | false =>
        obtain ⟨part, hpart, -⟩ := h.reviewTarget_of_not_queryFails ht htime hfails
        cases hpart.symm.trans he
    · rintro hall ⟨target, input⟩ hmem
      obtain ⟨ht, hshape⟩ := mem_handling_iff.1 hmem
      exact h.reviewTarget_of_queryFails ht htime (hall target ht input hshape)

end Coherent

/-- **What a review finds.** After any operations from a fresh client, and with time for the
evaluator, the violations of a review are, for each target that handles the object in the order of
registration and whose questions all have answers, for each constraint that is evaluated there in
the order of first addition, the results of its rule that can be read, in the order of the
evaluator. The review fails if at least one target handles the object and at all of those some
question has no answer. -/
theorem reviewWithin_run (setup : Setup) (operations : List Operation) (v : Json) (timeoutMs : Nat)
    (htime : timeoutMs ≠ 0) :
    let client := ((Client.fresh setup).run operations).1
    (∀ result, client.reviewWithin timeoutMs v = .ok result →
        result.violations = client.foundViolations v) ∧
      ((∃ e, client.reviewWithin timeoutMs v = .error e) ↔
        (∃ target ∈ setup.registry.targets, (target.shape? v).isSome = true) ∧
          ∀ target ∈ setup.registry.targets, ∀ input, target.shape? v = some input →
            client.queryFails target input = true) := by
  have h := (Coherent.fresh setup).run operations
  refine ⟨fun result hresult => h.violations_reviewWithin htime hresult, ?_⟩
  have hsetup : ((Client.fresh setup).run operations).1.setup = setup := setup_run _ _
  have hiff := h.exists_reviewWithin_eq_error_iff htime (v := v)
  rwa [hsetup] at hiff

/-! ### An instance -/

namespace Echo

/-- A target that handles all values. -/
def target : Target where
  name := ⟨"docs", by decide +kernel⟩
  matchSchema := .anything
  shape? := some
  covers _ _ := true
  dataEntry? _ := none

/-- An evaluator that answers with the path of the module that it is asked about. -/
def setup : Setup where
  evaluator := {
    parses := fun _ => true
    results := fun q => .ok [.obj [("msg", .str q.module.path)]] }
  registry := ⟨[target], List.pairwise_singleton _ _⟩

/-- The kind of the only template. -/
def kind : TemplateKind := ⟨"Required", by decide +kernel⟩

/-- A template and a constraint of its kind. -/
def operations : List Operation :=
  [.addTemplate {
      kind
      targets := SortedMap.empty.insert target.name
        { rego := "package required\nviolation[r] { r := input.review }" } },
    .addConstraint { kind, name := ⟨"all", by decide +kernel⟩ }]

end Echo

theorem reviewWithin_run_echo :
    1000 ≠ 0 ∧ ∃ result,
      ((Client.fresh Echo.setup).run Echo.operations).1.reviewWithin 1000 .null = .ok result ∧
        result.violations.map (·.message) = ["templates.docs.Required"] := by
  have hrun := reviewWithin_run Echo.setup Echo.operations .null 1000 (by decide)
  refine ⟨by decide, ?_⟩
  cases hresult : ((Client.fresh Echo.setup).run Echo.operations).1.reviewWithin 1000 .null with
  | ok result =>
    refine ⟨result, rfl, ?_⟩
    rw [hrun.1 result hresult]
    decide +kernel
  | error e =>
    obtain ⟨-, hall⟩ := hrun.2.1 ⟨e, hresult⟩
    have hfails := hall Echo.target List.mem_cons_self .null rfl
    exact absurd hfails (by decide +kernel)

end Client

end PolicyEngine
