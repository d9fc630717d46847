import PolicyEngine.Proofs.Client.Noninterference

/-!
# Reports of templates without a module

A template need not compile at every target that it declares. Where it has no module its constraints
cannot be evaluated, and a review reports its kind instead: once, however many of its constraints
cover the object, and with the reason that the compilation gave. The reports are made before the
other constraints of the target are evaluated, and go with the rest if the target fails as a whole.

## Main definitions

* `PolicyEngine.Client.errorsFrom` — the errors that a review reports of a target.

## Main results

* `PolicyEngine.filter_kind_uncompiledErrors` — each kind without a module is reported once.
* `PolicyEngine.Client.errors_eq_flatMap` — the errors of a review are those of its targets.
* `PolicyEngine.Client.uncompiled_run` — when a kind without a module is reported.
-/

namespace PolicyEngine

/-! ### Constraints without a module -/

namespace Cache

variable {cache : Cache} {target : TargetName} {tc : TargetConstraint}

/-- What a review considers has a template, and with it the module of this template, or the reason
why there is none. -/
theorem exists_moduleAt?_of_mem_forTarget (h : tc ∈ cache.forTarget target) :
    ∃ compiled, cache.template? tc.constraint.kind = some compiled ∧
      moduleAt? compiled target = some tc.module := by
  rw [forTarget_eq_filterMap] at h
  obtain ⟨key, -, hkey⟩ := List.mem_filterMap.1 h
  obtain ⟨entry, -, h⟩ := Option.bind_eq_some_iff.1 hkey
  obtain ⟨compiled, hcompiled, h⟩ := Option.bind_eq_some_iff.1 h
  obtain ⟨module, hmodule, h⟩ := Option.bind_eq_some_iff.1 h
  obtain rfl := Option.some.inj h
  exact ⟨compiled, hcompiled, hmodule⟩

/-- A constraint without a module comes with the reason why its template has none. -/
theorem exists_failure_of_mem_forTarget (h : tc ∈ cache.forTarget target)
    {compiled : CompiledTemplate} (hcompiled : cache.template? tc.constraint.kind = some compiled)
    (hnone : compiled.artifact? target = none) :
    ∃ e, compiled.failure? target = some e ∧ tc.module = .error e := by
  obtain ⟨compiled', hcompiled', hmodule⟩ := exists_moduleAt?_of_mem_forTarget h
  obtain rfl := Option.some.inj (hcompiled.symm.trans hcompiled')
  rw [moduleAt?, hnone] at hmodule
  obtain ⟨e, he, herror⟩ := Option.map_eq_some_iff.1 hmodule
  exact ⟨e, he, herror.symm⟩

end Cache

/-- Where the constraints of a kind have no module, the kind is reported once if there are any, and
not again if it was reported before. -/
theorem filter_kind_uncompiledErrors {target : TargetName} {kind : TemplateKind} {e : PolicyError}
    {candidates : List TargetConstraint}
    (hall : ∀ c ∈ candidates, c.constraint.kind = kind → c.module = .error e)
    (reported : List TemplateKind) :
    (uncompiledErrors target reported candidates).filter (fun x => x.kind = some kind) =
      if kind ∉ reported ∧ ∃ c ∈ candidates, c.constraint.kind = kind then
        [uncompiledError target kind e]
      else [] := by
  -- The kinds that were reported grow along the list, so the claim is for any of them.
  induction candidates generalizing reported with
  | nil => simp [uncompiledErrors]
  | cons c rest ih =>
    obtain ⟨hc, hrest⟩ := List.forall_mem_cons.1 hall
    by_cases hkind : c.constraint.kind = kind
    · rw [uncompiledErrors, hc hkind, hkind]
      dsimp only
      by_cases hreported : kind ∈ reported
      · rw [if_pos hreported, ih hrest]
        simp [hreported]
      · rw [if_neg hreported, List.filter_cons_of_pos (by simp [uncompiledError]), ih hrest]
        simp [hreported, hkind]
    · have hexists : (∃ c' ∈ c :: rest, c'.constraint.kind = kind) ↔
          ∃ c' ∈ rest, c'.constraint.kind = kind := by simp [hkind]
      refine Eq.trans ?_ (if_congr (and_congr_right fun _ => hexists.symm) rfl rfl)
      rw [uncompiledErrors]
      split
      · exact ih hrest reported
      · split
        · exact ih hrest reported
        · rw [List.filter_cons_of_neg (by simpa [uncompiledError] using hkind), ih hrest]
          simp only [List.mem_cons, Ne.symm hkind, false_or]

theorem target_of_mem_uncompiledErrors {target : TargetName} {reported : List TemplateKind}
    {candidates : List TargetConstraint} {x : ReviewError}
    (hx : x ∈ uncompiledErrors target reported candidates) : x.target = target := by
  induction candidates generalizing reported with
  | nil => cases hx
  | cons c rest ih =>
    rw [uncompiledErrors] at hx
    split at hx
    · exact ih hx
    · split at hx
      · exact ih hx
      · rcases List.mem_cons.1 hx with rfl | hx
        · rfl
        · exact ih hx

/-! ### Errors of reviews -/

/-- A query has results for nothing but its constraints. -/
theorem Store.exists_query_of_mem {ev : Evaluator} {store : Store} {target : TargetName}
    {rule : String} {review : Json} {queries : List ConstraintQuery} {timeoutMs : Nat}
    {results : List (ConstraintKey × Json)}
    (h : store.query ev target rule review queries timeoutMs = .ok results)
    {result : ConstraintKey × Json} (hresult : result ∈ results) :
    ∃ q ∈ queries, q.key = result.1 := by
  rw [query] at h
  split at h
  · cases h
  · split at h
    · obtain rfl : [] = results := Except.ok.inj h
      cases hresult
    · split at h
      · cases h
      · split at h
        · rename_i answers hanswers
          obtain rfl : answers.flatten = results := Except.ok.inj h
          obtain ⟨answer, hanswer, hresult⟩ := List.mem_flatten.1 hresult
          obtain ⟨q, hq, hevaluate⟩ := Outcome.exists_of_mem_mapM hanswers hanswer
          obtain ⟨values, -, rfl⟩ := Outcome.map_eq_ok.1 hevaluate
          obtain ⟨value, -, rfl⟩ := List.mem_map.1 hresult
          exact ⟨q, hq, rfl⟩
        · cases h

/-- An error in a result names the target and the kind of its constraint. -/
theorem of_mem_errors_resultFindings {target : TargetName} {candidates : List TargetConstraint}
    {result : ConstraintKey × Json} {x : ReviewError}
    (hx : x ∈ (resultFindings target candidates result).errors) :
    x.target = target ∧ x.kind = some result.1.kind := by
  rw [resultFindings] at hx
  split at hx
  · cases hx
  · split at hx
    · cases hx
    · rw [List.mem_singleton.1 hx]
      exact ⟨rfl, rfl⟩

/-- The errors at a target are the reports of kinds without a module, and the errors in results of
constraints that have one. -/
theorem errors_of_reviewTarget {ev : Evaluator} {cache : Cache} {store : Store} {target : Target}
    {input : Json} {timeoutMs : Nat} {part : ReviewResult}
    (h : reviewTarget ev cache store target input timeoutMs = .ok part) :
    ∃ results : List (ConstraintKey × Json),
      part.errors = uncompiledErrors target.name [] (covering cache target input) ++
        results.flatMap (fun result =>
          (resultFindings target.name (covering cache target input) result).errors) ∧
      ∀ result ∈ results, ∃ c ∈ covering cache target input,
        c.constraint.key = result.1 ∧ c.module.toBool = true := by
  obtain ⟨results, rfl, hresults⟩ := exists_results_of_reviewTarget h
  refine ⟨results, ?_, ?_⟩
  · rw [ReviewResult.errors_foldl_append, List.flatMap_map]
  · obtain rfl | ⟨-, hquery⟩ := hresults
    · exact List.forall_mem_nil _
    · intro result hresult
      obtain ⟨q, hq, hkey⟩ := Store.exists_query_of_mem hquery hresult
      obtain ⟨c, hc, hmodule⟩ := List.mem_filterMap.1 hq
      split at hmodule
      · rename_i module heq
        obtain rfl := Option.some.inj hmodule
        exact ⟨c, hc, hkey, by rw [heq]; rfl⟩
      · cases hmodule

namespace Client

section Errors

variable {client : Client} {target : Target} {timeoutMs : Nat} {v : Json}

/-- The errors that a review reports of a target, if it handles the object. -/
def errorsFrom (client : Client) (timeoutMs : Nat) (v : Json) (target : Target) :
    List ReviewError :=
  match target.shape? v with
  | none => []
  | some input =>
    (targetFindings (target.name,
      reviewTarget client.setup.evaluator client.cache client.store target input timeoutMs)).errors

/-- A review that succeeds has the errors of all targets. -/
theorem errors_eq_flatMap {result : ReviewResult}
    (h : client.reviewWithin timeoutMs v = .ok result) :
    result.errors = client.setup.registry.targets.flatMap (client.errorsFrom timeoutMs v) := by
  rw [eq_foldl_of_combine h, ReviewResult.errors_foldl_append, List.flatMap_map, List.flatMap_map,
    flatMap_handling]
  refine List.flatMap_congr fun target _ => ?_
  rw [errorsFrom]
  cases target.shape? v <;> rfl

/-- An error names the target that it was reported of. -/
theorem target_of_mem_errorsFrom {x : ReviewError} (hx : x ∈ client.errorsFrom timeoutMs v target) :
    x.target = target.name := by
  rw [errorsFrom] at hx
  split at hx
  · cases hx
  · rename_i input _
    cases hreview : reviewTarget client.setup.evaluator client.cache client.store target input
        timeoutMs with
    | error e =>
      rw [hreview] at hx
      rw [List.mem_singleton.1 hx]
    | ok part =>
      rw [hreview] at hx
      obtain ⟨results, herrors, -⟩ := errors_of_reviewTarget hreview
      change x ∈ part.errors at hx
      rw [herrors, List.mem_append] at hx
      rcases hx with hx | hx
      · exact target_of_mem_uncompiledErrors hx
      · obtain ⟨result, -, hx⟩ := List.mem_flatMap.1 hx
        exact (of_mem_errors_resultFindings hx).1

/-- Of the errors of a review those about a target are those that it reports of this target. -/
theorem filter_target_errors (ht : target ∈ client.setup.registry.targets) {result : ReviewResult}
    (h : client.reviewWithin timeoutMs v = .ok result) :
    result.errors.filter (fun x => x.target = target.name) =
      client.errorsFrom timeoutMs v target := by
  have hown : ∀ t ∈ client.setup.registry.targets, ∀ x ∈ client.errorsFrom timeoutMs v t,
      decide (x.target = target.name) = decide (t.name = target.name) :=
    fun t _ x hx => by rw [target_of_mem_errorsFrom hx]
  rw [errors_eq_flatMap h, filter_flatMap_of_forall hown, Registry.filter_name ht,
    List.flatMap_singleton]

/-- Of the errors of a target those of a kind without a module are one report, or nothing if the
target fails. -/
theorem filter_kind_errorsFrom {input : Json} (hshape : target.shape? v = some input)
    {tc : TargetConstraint} (htc : tc ∈ covering client.cache target input)
    {compiled : CompiledTemplate}
    (hcompiled : client.cache.template? tc.constraint.kind = some compiled) {e : PolicyError}
    (hnone : compiled.artifact? target.name = none)
    (hfailure : compiled.failure? target.name = some e) :
    (client.errorsFrom timeoutMs v target).filter (fun x => x.kind = some tc.constraint.kind) =
      if client.TargetFails timeoutMs v target then []
      else [uncompiledError target.name tc.constraint.kind e] := by
  have hall : ∀ c ∈ covering client.cache target input, c.constraint.kind = tc.constraint.kind →
      c.module = .error e := by
    intro c hc hkind
    rw [← hkind] at hcompiled
    obtain ⟨e', he', hmodule⟩ :=
      Cache.exists_failure_of_mem_forTarget (List.mem_filter.1 hc).1 hcompiled hnone
    rw [hmodule, Option.some.inj (he'.symm.trans hfailure)]
  rw [errorsFrom, hshape]
  dsimp only
  cases hreview : reviewTarget client.setup.evaluator client.cache client.store target input
      timeoutMs with
  | error fault =>
    rw [if_pos ⟨input, fault, hshape, hreview⟩]
    rfl
  | ok part =>
    have hfails : ¬client.TargetFails timeoutMs v target := by
      rintro ⟨input', fault, hinput, hfault⟩
      obtain rfl := Option.some.inj (hshape.symm.trans hinput)
      cases hreview.symm.trans hfault
    obtain ⟨results, herrors, hmodules⟩ := errors_of_reviewTarget hreview
    -- Results are those of constraints with a module, and no constraint of the kind has one.
    have hresults : (results.flatMap fun result =>
        (resultFindings target.name (covering client.cache target input) result).errors).filter
          (fun x => x.kind = some tc.constraint.kind) = [] := by
      refine List.filter_eq_nil_iff.2 fun x hx hkind => ?_
      obtain ⟨result, hresult, hx⟩ := List.mem_flatMap.1 hx
      obtain ⟨c, hc, hkey, hmodule⟩ := hmodules result hresult
      rw [(of_mem_errors_resultFindings hx).2, decide_eq_true_eq, Option.some.injEq,
        ← hkey] at hkind
      rw [hall c hc hkind] at hmodule
      cases hmodule
    change part.errors.filter _ = _
    rw [if_neg hfails, herrors, List.filter_append, hresults, List.append_nil,
      filter_kind_uncompiledErrors hall, if_pos ⟨List.not_mem_nil, tc, htc, rfl⟩]

end Errors

/-- **When a kind without a module is reported.** After any operations from a fresh client, let a
review that succeeds consider a constraint that covers the object at a target for which the template
of this constraint has no module. Then the compilation of the template failed for a reason, and the
errors of the review that are about this target and this kind are exactly one, which gives this
reason, or none at all if the evaluation at the target fails. -/
theorem uncompiled_run (setup : Setup) (operations : List Operation) (timeoutMs : Nat) (v : Json)
    (result : ReviewResult) (target : Target) (input : Json) (tc : TargetConstraint)
    (compiled : CompiledTemplate)
    (hresult : ((Client.fresh setup).run operations).1.reviewWithin timeoutMs v = .ok result)
    (ht : target ∈ setup.registry.targets) (hshape : target.shape? v = some input)
    (htc : tc ∈ ((Client.fresh setup).run operations).1.cache.forTarget target.name)
    (hcovers : target.covers tc.constraint.matchSpec input = true)
    (hcompiled : ((Client.fresh setup).run operations).1.cache.template? tc.constraint.kind =
      some compiled)
    (hnone : compiled.artifact? target.name = none) :
    ∃ e, compiled.failure? target.name = some e ∧
      result.errors.filter
          (fun x => x.target = target.name ∧ x.kind = some tc.constraint.kind) =
        if ((Client.fresh setup).run operations).1.TargetFails timeoutMs v target then []
        else [uncompiledError target.name tc.constraint.kind e] := by
  obtain ⟨e, hfailure, -⟩ := Cache.exists_failure_of_mem_forTarget htc hcompiled hnone
  have hregistered : target ∈ ((Client.fresh setup).run operations).1.setup.registry.targets := by
    rw [setup_run]
    exact ht
  have hcovering : tc ∈ covering ((Client.fresh setup).run operations).1.cache target input :=
    List.mem_filter.2 ⟨htc, hcovers⟩
  refine ⟨e, hfailure, ?_⟩
  rw [← filter_kind_errorsFrom hshape hcovering hcompiled hnone hfailure,
    ← filter_target_errors hregistered hresult, List.filter_filter]
  simp only [Bool.decide_and, Bool.and_comm]

/-! ### An instance -/

namespace HalfCompiled

/-- A target that handles every value. -/
def target (name : TargetName) : Target where
  name
  matchSchema := .anything
  shape? := some
  covers _ _ := true
  dataEntry? _ := none

/-- A target for which one template does not compile. -/
def left : Target := target ⟨"left", by decide +kernel⟩

/-- A target for which it does. -/
def right : Target := target ⟨"right", by decide +kernel⟩

/-- The kind of a template for one target. -/
def whole : TemplateKind := ⟨"Whole", by decide +kernel⟩

/-- The kind of a template that compiles for one of two targets. -/
def half : TemplateKind := ⟨"Half", by decide +kernel⟩

/-- An evaluator that has no answer for the template of one target when null is reviewed. -/
def setup : Setup where
  evaluator := {
    parses := fun _ => true
    results := fun q =>
      if q.module = .forTemplate left.name whole && q.input == Store.ruleInput .null .null then
        .error .failed
      else .ok [] }
  registry := ⟨[left, right], by decide +kernel⟩

/-- A rule with a package, and one without. -/
def rule (hasPackage : Bool) : String :=
  if hasPackage then "package a\nviolation[r] { r }" else "violation[r] { r }"

def operations : List Operation :=
  [.addTemplate {
      kind := whole
      targets := SortedMap.empty.insert left.name { rego := rule true } },
    .addTemplate {
      kind := half
      targets := (SortedMap.empty.insert left.name { rego := rule false }).insert right.name
        { rego := rule true } },
    .addConstraint { kind := whole, name := ⟨"both", by decide +kernel⟩ },
    .addConstraint { kind := half, name := ⟨"both", by decide +kernel⟩ }]

/-- A client with both templates. -/
def client : Client := ((Client.fresh setup).run operations).1

/-- What a review finds when the evaluator has no answer. -/
def unanswered : Except PolicyError ReviewResult := client.reviewWithin 1000 .null

/-- One target has no module for one kind. Its review succeeds for true; for null this kind is not
among what the review reports of it. -/
theorem reviews :
    ((client.cache.forTarget left.name).any fun tc => tc.constraint.kind = half &&
        (client.cache.template? tc.constraint.kind).any fun compiled =>
          (compiled.artifact? left.name).isNone) = true ∧
      ¬client.TargetFails 1000 (.bool true) left ∧
      (unanswered.toOption.any fun result => (result.errors.filter fun x =>
        x.target = left.name ∧ x.kind = some half).isEmpty) = true := by
  decide +kernel

/-- The template of one kind has no module for one target. -/
theorem exists_uncompiled : ∃ tc compiled, tc ∈ client.cache.forTarget left.name ∧
    tc.constraint.kind = half ∧ client.cache.template? tc.constraint.kind = some compiled ∧
      compiled.artifact? left.name = none := by
  obtain ⟨tc, htc, hfound⟩ := List.any_eq_true.1 reviews.1
  obtain ⟨hkind, hcompiled⟩ := Bool.and_eq_true_iff.1 hfound
  rw [Option.any_eq_true] at hcompiled
  obtain ⟨compiled, hcompiled, hnone⟩ := hcompiled
  exact ⟨tc, compiled, htc, of_decide_eq_true hkind, hcompiled, Option.isNone_iff_eq_none.1 hnone⟩

end HalfCompiled

theorem uncompiled_run_halfCompiled :
    ∃ result tc compiled e,
      HalfCompiled.client.reviewWithin 1000 (.bool true) = .ok result ∧
        HalfCompiled.left ∈ HalfCompiled.setup.registry.targets ∧
        HalfCompiled.left.shape? (.bool true) = some (.bool true) ∧
        tc ∈ HalfCompiled.client.cache.forTarget HalfCompiled.left.name ∧
        HalfCompiled.left.covers tc.constraint.matchSpec (.bool true) = true ∧
        HalfCompiled.client.cache.template? tc.constraint.kind = some compiled ∧
        compiled.artifact? HalfCompiled.left.name = none ∧
        result.errors.filter
            (fun x => x.target = HalfCompiled.left.name ∧ x.kind = some tc.constraint.kind) =
          [uncompiledError HalfCompiled.left.name tc.constraint.kind e] := by
  obtain ⟨tc, compiled, htc, -, hcompiled, hnone⟩ := HalfCompiled.exists_uncompiled
  obtain ⟨-, hfails, -⟩ := HalfCompiled.reviews
  rw [HalfCompiled.client] at htc hcompiled hfails ⊢
  have ht : HalfCompiled.left ∈ HalfCompiled.setup.registry.targets := List.mem_cons_self
  obtain ⟨result, hresult⟩ := exists_reviewWithin_eq_ok (by rwa [setup_run]) rfl hfails
  obtain ⟨e, -, hreported⟩ := uncompiled_run HalfCompiled.setup HalfCompiled.operations 1000
    (.bool true) result HalfCompiled.left (.bool true) tc compiled hresult ht rfl htc rfl hcompiled
    hnone
  refine ⟨result, tc, compiled, e, hresult, ht, rfl, htc, rfl, hcompiled, hnone, ?_⟩
  rw [hreported]
  exact if_neg hfails

/-- Where the evaluation at a target fails, a kind without a module is not reported. -/
theorem exists_unreported :
    ∃ result tc compiled,
      HalfCompiled.client.reviewWithin 1000 .null = .ok result ∧
        HalfCompiled.left ∈ HalfCompiled.setup.registry.targets ∧
        HalfCompiled.left.shape? .null = some .null ∧
        tc ∈ HalfCompiled.client.cache.forTarget HalfCompiled.left.name ∧
        HalfCompiled.left.covers tc.constraint.matchSpec .null = true ∧
        HalfCompiled.client.cache.template? tc.constraint.kind = some compiled ∧
        compiled.artifact? HalfCompiled.left.name = none ∧
        result.errors.filter
          (fun x => x.target = HalfCompiled.left.name ∧ x.kind = some tc.constraint.kind) = [] := by
  obtain ⟨tc, compiled, htc, hkind, hcompiled, hnone⟩ := HalfCompiled.exists_uncompiled
  obtain ⟨-, -, hlost⟩ := HalfCompiled.reviews
  rw [Option.any_eq_true] at hlost
  obtain ⟨result, hresult, hlost⟩ := hlost
  refine ⟨result, tc, compiled, Outcome.toOption_eq_some.1 hresult, List.mem_cons_self, rfl, htc,
    rfl, hcompiled, hnone, ?_⟩
  rw [hkind]
  exact List.isEmpty_iff.1 hlost

end Client

end PolicyEngine
