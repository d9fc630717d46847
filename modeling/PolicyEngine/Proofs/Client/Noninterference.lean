import PolicyEngine.Proofs.Client.Alike
import PolicyEngine.Rule.Question

/-!
# Policies do not interfere

What a review reports for a constraint does not depend on the templates of other kinds, nor on other
constraints, as long as the query at the target does not fail. The violations reported for the
constraint at the target are the results of its own rule, and these are the same for two clients
that look alike to the constraint.

## Main definitions

* `PolicyEngine.Client.TargetFails`, `PolicyEngine.Client.reported` — what a review at a target
  comes to, for a constraint.

## Main results

* `PolicyEngine.Client.reported_eq`, `PolicyEngine.Client.Coherent.filter_violationsFrom` — what is
  reported for a constraint are the results of its own rule.
* `PolicyEngine.Client.LooksAlike.filter_violationsFrom_eq` — the same for clients that look alike.
* `PolicyEngine.Client.reported_run_run` — what is reported for a constraint stays the same.
-/

namespace PolicyEngine

/-! ### Parts of a list -/

/-- Where all that an element contributes to a list passes a test, or nothing does, the whole passes
where the element does. -/
theorem filter_flatMap_of_forall {α β : Type} {f : α → List β} {p : β → Bool} {q : α → Bool}
    {l : List α} (h : ∀ x ∈ l, ∀ y ∈ f x, p y = q x) :
    (l.flatMap f).filter p = (l.filter q).flatMap f := by
  induction l with
  | nil => rfl
  | cons x rest ih =>
    obtain ⟨hx, hrest⟩ := List.forall_mem_cons.1 h
    rw [List.flatMap_cons, List.filter_append, ih hrest, List.filter_cons]
    cases hq : q x with
    | true =>
      have hall : (f x).filter p = f x := List.filter_eq_self.2 fun y hy => (hx y hy).trans hq
      rw [hall, if_pos rfl, List.flatMap_cons]
    | false =>
      have hnone : (f x).filter p = [] :=
        List.filter_eq_nil_iff.2 fun y hy => by rw [hx y hy, hq]; exact Bool.false_ne_true
      rw [hnone, List.nil_append, if_neg Bool.false_ne_true]

/-- Of a list without duplicates a test that singles out one element leaves just this one, or
nothing if it is not there. -/
theorem filter_eq_toList {α : Type} {p : α → Bool} {l : List α} {found : Option α} (h : l.Nodup)
    (hfound : ∀ x, found = some x ↔ x ∈ l ∧ p x = true) : l.filter p = found.toList := by
  have hmem : ∀ x, x ∈ l.filter p ↔ x ∈ found.toList := fun x => by
    rw [List.mem_filter, Option.mem_toList, hfound]
  cases found with
  | none => exact List.eq_nil_iff_forall_not_mem.2 fun x hx => nomatch (hmem x).1 hx
  | some found =>
    exact List.perm_singleton.1
      ((List.perm_ext_iff_of_nodup (h.filter p) (List.nodup_singleton found)).2 hmem)

/-- One target has the name of a registered one. -/
theorem Registry.filter_name {registry : Registry} {target : Target}
    (h : target ∈ registry.targets) :
    registry.targets.filter (fun t => t.name = target.name) = [target] := by
  have hnodup : registry.targets.Nodup :=
    registry.distinct.imp fun hident heq => hident (congrArg (fun t : Target => t.name.ident) heq)
  have hfound : ∀ t, some target = some t ↔
      t ∈ registry.targets ∧ decide (t.name = target.name) = true := by
    intro t
    rw [Option.some.injEq, decide_eq_true_eq]
    constructor
    · rintro rfl
      exact ⟨h, rfl⟩
    · rintro ⟨ht, hname⟩
      exact (eq_of_ident_eq ht h (congrArg TargetName.ident hname)).symm
  exact filter_eq_toList hnodup hfound

/-- The list of constraints has at most one of a key. -/
theorem Cache.Ordered.filter_key {cache : Cache} (h : cache.Ordered) (key : ConstraintKey) :
    cache.entries.filter (fun entry => entry.constraint.key = key) =
      (cache.constraint? key).toList :=
  filter_eq_toList h.nodup_entries fun entry => by
    rw [h.constraint?_eq_some_iff, decide_eq_true_eq]

/-! ### Results at a target -/

theorem target_of_mem_resultFindings {target : TargetName} {candidates : List TargetConstraint}
    {result : ConstraintKey × Json} {x : Violation}
    (hx : x ∈ (resultFindings target candidates result).violations) : x.target = target := by
  rw [resultFindings] at hx
  split at hx
  · cases hx
  · split at hx
    · rw [List.mem_singleton.1 hx]
    · cases hx

/-- A query about some constraint takes time. -/
theorem Store.timeoutMs_ne_zero_of_query {ev : Evaluator} {store : Store} {target : TargetName}
    {rule : String} {review : Json} {queries : List ConstraintQuery} {timeoutMs : Nat}
    {results : List (ConstraintKey × Json)}
    (h : store.query ev target rule review queries timeoutMs = .ok results)
    (hne : queries.isEmpty = false) : timeoutMs ≠ 0 := by
  rintro rfl
  rw [query] at h
  split at h
  · cases h
  · rw [hne] at h
    cases h

/-- The violations at a target are read from results, which take time. -/
theorem violations_of_reviewTarget {ev : Evaluator} {cache : Cache} {store : Store}
    {target : Target} {input : Json} {timeoutMs : Nat} {part : ReviewResult}
    (h : reviewTarget ev cache store target input timeoutMs = .ok part) :
    ∃ results : List (ConstraintKey × Json),
      part.violations = results.flatMap (fun result =>
        (resultFindings target.name (covering cache target input) result).violations) ∧
      (timeoutMs = 0 → results = []) := by
  obtain ⟨results, rfl, hresults⟩ := exists_results_of_reviewTarget h
  refine ⟨results, ?_, fun hzero => ?_⟩
  · rw [ReviewResult.violations_foldl_append, List.nil_append, List.flatMap_map]
  · obtain hnone | ⟨hne, hquery⟩ := hresults
    · exact hnone
    · exact absurd hzero (Store.timeoutMs_ne_zero_of_query hquery hne)

namespace Client

/-! ### The violations of a constraint -/

section Violations

variable {client : Client} {target : Target} {input : Json} {key : ConstraintKey}

/-- Where no question fails each has an answer. -/
theorem exists_answer_eq_ok (hquery : client.queryFails target input = false) {c : Constraint}
    (hc : c ∈ client.evaluated target input) :
    ∃ results, client.answer target input c = .ok results := by
  have hsome := List.any_eq_false.1 hquery c hc
  cases hanswer : client.answer target input c with
  | ok results => exact ⟨results, rfl⟩
  | error fault =>
    rw [hanswer] at hsome
    exact absurd rfl hsome

/-- A violation names the constraint that it is one of. -/
theorem constraint_of_mem_violationsOf {c : Constraint} {x : Violation}
    (hx : x ∈ client.violationsOf target input c) : x.constraint = c.key := by
  obtain ⟨v, -, hv⟩ := List.mem_filterMap.1 hx
  rw [violation?] at hv
  split at hv
  · rw [← Option.some.inj hv]
  · cases hv

/-- Of the violations at a target those of a constraint are its own, if it is evaluated. -/
theorem Coherent.filter_violationsOf (h : client.Coherent) (target : Target) (input : Json)
    (key : ConstraintKey) :
    ((client.evaluated target input).flatMap (client.violationsOf target input)).filter
        (fun x => x.constraint = key) =
      ((client.cache.constraint? key).toList.filter (client.evaluates target input)).flatMap
        fun entry => client.violationsOf target input entry.constraint := by
  have hown : ∀ c ∈ client.evaluated target input, ∀ x ∈ client.violationsOf target input c,
      decide (x.constraint = key) = decide (c.key = key) :=
    fun c _ x hx => by rw [constraint_of_mem_violationsOf hx]
  rw [filter_flatMap_of_forall hown, evaluated, List.filter_map, List.filter_filter,
    List.flatMap_map, ← h.wellFormed.ordered.filter_key, List.filter_filter]
  simp only [Function.comp_apply, Bool.and_comm]

/-! ### What a review reports -/

/-- The query at a target fails when an object is reviewed. -/
def TargetFails (client : Client) (timeoutMs : Nat) (v : Json) (target : Target) : Prop :=
  ∃ input e, target.shape? v = some input ∧
    reviewTarget client.setup.evaluator client.cache client.store target input timeoutMs = .error e

instance (client : Client) (timeoutMs : Nat) (v : Json) (target : Target) :
    Decidable (client.TargetFails timeoutMs v target) :=
  match hshape : target.shape? v with
  | none => .isFalse (by simp [TargetFails, hshape])
  | some input =>
    match hreview : reviewTarget client.setup.evaluator client.cache client.store target input
        timeoutMs with
    | .ok _ => .isFalse (by simp [TargetFails, hshape, hreview])
    | .error e => .isTrue ⟨input, e, hshape, hreview⟩

/-- The violations that a review reports for a constraint at a target. -/
def reported (client : Client) (timeoutMs : Nat) (v : Json) (key : ConstraintKey)
    (target : TargetName) : List Violation :=
  match client.reviewWithin timeoutMs v with
  | .ok result => result.violations.filter fun x => x.constraint = key ∧ x.target = target
  | .error _ => []

/-- The violations of the review at a target: none if the target fails or does not handle
the object. -/
def violationsFrom (client : Client) (timeoutMs : Nat) (v : Json) (target : Target) :
    List Violation :=
  match target.shape? v with
  | none => []
  | some input =>
    match reviewTarget client.setup.evaluator client.cache client.store target input timeoutMs with
    | .ok part => part.violations
    | .error _ => []

/-- A violation names the target that it was found at. -/
theorem target_of_mem_violationsFrom {timeoutMs : Nat} {v : Json} {x : Violation}
    (hx : x ∈ client.violationsFrom timeoutMs v target) : x.target = target.name := by
  rw [violationsFrom] at hx
  split at hx
  · cases hx
  · split at hx
    · rename_i input part hpart
      obtain ⟨results, hresults, -⟩ := violations_of_reviewTarget hpart
      rw [hresults] at hx
      obtain ⟨result, -, hx⟩ := List.mem_flatMap.1 hx
      exact target_of_mem_resultFindings hx
    · cases hx

/-- A review that succeeds has the violations of all targets. -/
theorem violations_eq_flatMap {timeoutMs : Nat} {v : Json} {result : ReviewResult}
    (h : client.reviewWithin timeoutMs v = .ok result) :
    result.violations =
      client.setup.registry.targets.flatMap (client.violationsFrom timeoutMs v) := by
  rw [combine_ok h, List.flatMap_map, flatMap_handling]
  refine List.flatMap_congr fun target _ => ?_
  rw [violationsFrom]
  cases target.shape? v <;> rfl

/-- Without time nothing is found. -/
theorem violationsFrom_zero (client : Client) (v : Json) (target : Target) :
    client.violationsFrom 0 v target = [] := by
  rw [violationsFrom]
  split
  · rfl
  · split
    · rename_i input part hpart
      obtain ⟨results, hresults, hnone⟩ := violations_of_reviewTarget hpart
      rw [hresults, hnone rfl]
      rfl
    · rfl

/-- A review does not fail as a whole when a target that handles the object does not. -/
theorem exists_reviewWithin_eq_ok (ht : target ∈ client.setup.registry.targets) {timeoutMs : Nat}
    {v : Json} (hshape : (target.shape? v).isSome = true)
    (hfails : ¬client.TargetFails timeoutMs v target) :
    ∃ result, client.reviewWithin timeoutMs v = .ok result := by
  cases hreview : client.reviewWithin timeoutMs v with
  | ok result => exact ⟨result, rfl⟩
  | error e =>
    obtain ⟨-, hall⟩ := exists_combine_eq_error_iff.1 ⟨e, hreview⟩
    obtain ⟨input, hinput⟩ := Option.isSome_iff_exists.1 hshape
    obtain ⟨fault, hfault⟩ := hall _
      (List.mem_map_of_mem (Coherent.mem_handling_iff.2 ⟨ht, hinput⟩))
    exact absurd ⟨input, fault, hinput, hfault⟩ hfails

/-- What is reported for a constraint at a target that does not fail are the violations of this
constraint there. -/
theorem reported_eq (ht : target ∈ client.setup.registry.targets) {timeoutMs : Nat} {v : Json}
    (hfails : ¬client.TargetFails timeoutMs v target) (key : ConstraintKey) :
    client.reported timeoutMs v key target.name =
      (client.violationsFrom timeoutMs v target).filter fun x => x.constraint = key := by
  rw [reported]
  cases hreview : client.reviewWithin timeoutMs v with
  | ok result =>
    have hown : ∀ t ∈ client.setup.registry.targets,
        ∀ x ∈ client.violationsFrom timeoutMs v t,
          decide (x.target = target.name) = decide (t.name = target.name) :=
      fun t _ x hx => by rw [target_of_mem_violationsFrom hx]
    have hfrom : result.violations.filter (fun x => x.target = target.name) =
        client.violationsFrom timeoutMs v target := by
      rw [violations_eq_flatMap hreview, filter_flatMap_of_forall hown, Registry.filter_name ht,
        List.flatMap_singleton]
    rw [← hfrom, List.filter_filter]
    simp only [Bool.decide_and]
  | error e =>
    rw [violationsFrom]
    cases hshape : target.shape? v with
    | none => rfl
    | some input =>
      obtain ⟨result, hresult⟩ :=
        exists_reviewWithin_eq_ok ht (Option.isSome_iff_exists.2 ⟨input, hshape⟩) hfails
      rw [hreview] at hresult
      cases hresult

/-- Where the target does not fail, the violations of a constraint there are the results of its own
rule. -/
theorem Coherent.filter_violationsFrom (h : client.Coherent)
    (ht : target ∈ client.setup.registry.targets) {timeoutMs : Nat} (htime : timeoutMs ≠ 0)
    {v : Json} (hshape : target.shape? v = some input)
    (hfails : ¬client.TargetFails timeoutMs v target) (key : ConstraintKey) :
    client.queryFails target input = false ∧
      (client.violationsFrom timeoutMs v target).filter (fun x => x.constraint = key) =
        ((client.cache.constraint? key).toList.filter (client.evaluates target input)).flatMap
          fun entry => client.violationsOf target input entry.constraint := by
  have hquery : client.queryFails target input = false := by
    refine Bool.eq_false_iff.2 fun hquery => hfails ?_
    obtain ⟨e, he⟩ := h.reviewTarget_of_queryFails ht htime hquery
    exact ⟨input, e, hshape, he⟩
  obtain ⟨part, hpart, hviolations⟩ := h.reviewTarget_of_not_queryFails ht htime hquery
  refine ⟨hquery, ?_⟩
  rw [violationsFrom, hshape]
  dsimp only
  rw [hpart]
  dsimp only
  rw [hviolations, h.filter_violationsOf]

end Violations

namespace LooksAlike

variable {a b : Client} {key : ConstraintKey} {target : Target} {input : Json}

/-- Clients that look alike to a constraint find the same violations of it, if no question fails. -/
theorem violationsOf_eq (h : LooksAlike key a b) (ha : a.Coherent) (hb : b.Coherent)
    (hconfined : a.setup.evaluator.Confined) (hquery : a.queryFails target input = false)
    (hquery' : b.queryFails target input = false) {c : Constraint} (hkey : c.key = key)
    (hca : c ∈ a.evaluated target input) (hcb : c ∈ b.evaluated target input) :
    a.violationsOf target input c = b.violationsOf target input c := by
  obtain ⟨results, hresults⟩ := exists_answer_eq_ok hquery hca
  obtain ⟨results', hresults'⟩ := exists_answer_eq_ok hquery' hcb
  rw [violationsOf, violationsOf, hresults, hresults',
    h.results_eq ha hb hconfined hkey hca hcb hresults hresults']

/-- Clients that look alike to a constraint report the same violations of it at a target that fails
at neither. -/
theorem filter_violationsFrom_eq (h : LooksAlike key a b) (ha : a.Coherent) (hb : b.Coherent)
    (hconfined : a.setup.evaluator.Confined) (ht : target ∈ a.setup.registry.targets)
    {timeoutMs : Nat} {v : Json} (hfails : ¬a.TargetFails timeoutMs v target)
    (hfails' : ¬b.TargetFails timeoutMs v target) :
    (a.violationsFrom timeoutMs v target).filter (fun x => x.constraint = key) =
      (b.violationsFrom timeoutMs v target).filter fun x => x.constraint = key := by
  by_cases htime : timeoutMs = 0
  · rw [htime, violationsFrom_zero, violationsFrom_zero]
  · cases hshape : target.shape? v with
    | none => rw [violationsFrom, violationsFrom, hshape]
    | some input =>
      obtain ⟨hquery, hown⟩ := ha.filter_violationsFrom ht htime hshape hfails key
      rw [h.setup_eq] at ht
      obtain ⟨hquery', hown'⟩ := hb.filter_violationsFrom ht htime hshape hfails' key
      rw [hown, hown', h.constraint?_eq]
      cases hentry : b.cache.constraint? key with
      | none => rfl
      | some entry =>
        have hkey : entry.constraint.key = key := hb.wellFormed.ordered.key_eq hentry
        have heval := h.evaluates_eq hkey target input
        rw [Option.toList_some, List.filter_singleton, List.filter_singleton, heval]
        cases hcovered : b.evaluates target input entry with
        | false => rfl
        | true =>
          rw [hcovered] at heval
          rw [cond_true, List.flatMap_singleton, List.flatMap_singleton]
          refine h.violationsOf_eq ha hb hconfined hquery hquery' hkey ?_ ?_
          · refine List.mem_map_of_mem (List.mem_filter.2 ⟨?_, heval⟩)
            exact ha.wellFormed.ordered.mem_entries_of_get? (h.constraint?_eq.trans hentry)
          · refine List.mem_map_of_mem (List.mem_filter.2 ⟨?_, hcovered⟩)
            exact hb.wellFormed.ordered.mem_entries_of_get? hentry

end LooksAlike

/-- **Policies do not interfere.** Suppose that the answers of the evaluator depend on the modules
that a question is about alone, whenever these refer to nothing but the inventory and their own
libraries. After any operations from a fresh client, and any further ones that add and remove
templates of other kinds and other constraints, a review reports for a constraint at a target the
same violations in the same order as before, provided that the query at the target fails in neither
review; and if the target handles the object neither review fails. -/
theorem reported_run_run (setup : Setup) (hconfined : setup.evaluator.Confined)
    (operations changes : List Operation) (key : ConstraintKey)
    (hspares : ∀ operation ∈ changes, operation.Spares key) (target : Target)
    (ht : target ∈ setup.registry.targets) (timeoutMs : Nat) (v : Json)
    (hfails : ¬((Client.fresh setup).run operations).1.TargetFails timeoutMs v target)
    (hfails' : ¬(((Client.fresh setup).run operations).1.run changes).1.TargetFails timeoutMs v
      target) :
    let client := ((Client.fresh setup).run operations).1
    let later := (client.run changes).1
    later.reported timeoutMs v key target.name = client.reported timeoutMs v key target.name ∧
      ((target.shape? v).isSome = true →
        (∃ result, client.reviewWithin timeoutMs v = .ok result) ∧
          ∃ result, later.reviewWithin timeoutMs v = .ok result) := by
  intro client later
  have h : client.Coherent := (Coherent.fresh setup).run operations
  have hlater : later.Coherent := h.run changes
  have halike : LooksAlike key later client := .run h hspares
  have hsetup : client.setup = setup := setup_run _ _
  have hsetup' : later.setup = setup := (setup_run _ _).trans hsetup
  have ht₁ : target ∈ client.setup.registry.targets := by rwa [hsetup]
  have ht₂ : target ∈ later.setup.registry.targets := by rwa [hsetup']
  constructor
  · rw [← hsetup'] at hconfined
    rw [reported_eq ht₁ hfails, reported_eq ht₂ hfails']
    exact halike.filter_violationsFrom_eq hlater h hconfined ht₂ hfails' hfails
  · exact fun hshape =>
      ⟨exists_reviewWithin_eq_ok ht₁ hshape hfails, exists_reviewWithin_eq_ok ht₂ hshape hfails'⟩

/-! ### An instance -/

namespace Neighbours

/-- An evaluator that loads the modules that it is asked about. -/
def evaluator : Evaluator where
  parses := Rule.isModule
  results q := Rule.results { q with modules := q.ownModules }

theorem confined_evaluator : evaluator.Confined := by
  intro q q' halike _ _ results results' hresults hresults'
  have hloaded : { q with modules := q.ownModules } = { q' with modules := q'.ownModules } := by
    rw [halike.ownModules_eq, halike.module_eq, halike.rule_eq, halike.inventory_eq,
      halike.input_eq]
  change Rule.results { q with modules := q.ownModules } = _ at hresults
  rw [hloaded] at hresults
  exact Except.ok.inj (hresults.symm.trans hresults')

def setup : Setup where
  evaluator
  registry := Echo.setup.registry

/-- A kind of which a constraint stays. -/
def staying : TemplateKind := ⟨"Staying", by decide +kernel⟩

/-- A kind that is new to the neighbourhood. -/
def moving : TemplateKind := ⟨"Moving", by decide +kernel⟩

/-- A template of a kind, with the whole object as its only result. -/
def template (kind : TemplateKind) : Template where
  kind
  targets := SortedMap.empty.insert Echo.target.name
    { rego := "package house\nviolation[input.review]" }

/-- The constraint that stays. -/
def constraint : Constraint where
  kind := staying
  name := ⟨"first", by decide +kernel⟩

/-- A constraint of a kind beside it. -/
def neighbour (kind : TemplateKind) : Constraint where
  kind
  name := ⟨"second", by decide +kernel⟩

/-- A template with two constraints. -/
def operations : List Operation :=
  [.addTemplate (template staying), .addConstraint (neighbour staying), .addConstraint constraint]

/-- One of the constraints gives way to one of another kind. -/
def changes : List Operation :=
  [.removeConstraint (neighbour staying).key, .addTemplate (template moving),
    .addConstraint (neighbour moving)]

/-- An object with a message. -/
def object : Json := .obj [("msg", .str "noise")]

end Neighbours

theorem reported_run_run_neighbours :
    let client := ((Client.fresh Neighbours.setup).run Neighbours.operations).1
    let later := (client.run Neighbours.changes).1
    let key := Neighbours.constraint.key
    Neighbours.evaluator.Confined ∧ (∀ operation ∈ Neighbours.changes, operation.Spares key) ∧
      Echo.target ∈ Neighbours.setup.registry.targets ∧
      ¬client.TargetFails 1000 Neighbours.object Echo.target ∧
      ¬later.TargetFails 1000 Neighbours.object Echo.target ∧
      (client.reported 1000 Neighbours.object key Echo.target.name).map (·.message) = ["noise"] ∧
      (later.reported 1000 Neighbours.object key Echo.target.name).map (·.message) = ["noise"] := by
  intro client later key
  have hspares : ∀ operation ∈ Neighbours.changes, operation.Spares key := by
    decide +kernel
  -- All three are evaluated at once, for they share the clients.
  obtain ⟨hfails, hfails', hreported⟩ :
      ¬client.TargetFails 1000 Neighbours.object Echo.target ∧
        ¬later.TargetFails 1000 Neighbours.object Echo.target ∧
        (client.reported 1000 Neighbours.object key Echo.target.name).map (·.message) =
          ["noise"] := by
    decide +kernel
  have hrun := reported_run_run Neighbours.setup Neighbours.confined_evaluator
    Neighbours.operations Neighbours.changes key hspares Echo.target List.mem_cons_self 1000
    Neighbours.object hfails hfails'
  refine ⟨Neighbours.confined_evaluator, hspares, List.mem_cons_self, hfails, hfails', hreported,
    ?_⟩
  rw [hrun.1]
  exact hreported

end Client

end PolicyEngine
