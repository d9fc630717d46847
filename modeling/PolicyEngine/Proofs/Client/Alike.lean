import PolicyEngine.Proofs.Client.Locality
import PolicyEngine.Proofs.Client.Review
import PolicyEngine.Proofs.Template.Confined

/-!
# Clients that look alike to a constraint

Operations on other constraints and on templates of other kinds leave a client as it is in the eyes
of a constraint. The question about the constraint loads, of the modules beneath that of its kind,
just those of its own template, and their code refers to nothing else. So clients that look alike to
a constraint ask questions about it that differ in other modules only, and get the same answers from
a confined evaluator.

## Main definitions

* `PolicyEngine.Client.Operation.Spares` — operations on other templates and other constraints.
* `PolicyEngine.Client.LooksAlike` — clients that look alike to a constraint.

## Main results

* `PolicyEngine.Client.LooksAlike.perform`, `PolicyEngine.Client.LooksAlike.run` — to a constraint
  that is spared a client looks as before.
* `PolicyEngine.Client.Coherent.get?_beneath_eq_some_iff` — the modules beneath that of a kind.
* `PolicyEngine.Client.Coherent.isConfined_question` — the questions of reviews are confined.
* `PolicyEngine.Client.LooksAlike.results_eq` — clients that look alike get the same answers.
-/

namespace PolicyEngine.Client

/-! ### Operations that spare a constraint -/

/-- The operation adds or removes a template of another kind, or another constraint. -/
def Operation.Spares (key : ConstraintKey) : Operation → Prop
  | .addTemplate t => t.kind ≠ key.kind
  | .removeTemplate kind => kind ≠ key.kind
  | .addConstraint c => c.key ≠ key
  | .removeConstraint key' => key' ≠ key
  | _ => False

instance (key : ConstraintKey) (operation : Operation) : Decidable (operation.Spares key) :=
  match operation with
  | .addTemplate t => inferInstanceAs (Decidable (t.kind ≠ key.kind))
  | .removeTemplate kind => inferInstanceAs (Decidable (kind ≠ key.kind))
  | .addConstraint c => inferInstanceAs (Decidable (c.key ≠ key))
  | .removeConstraint key' => inferInstanceAs (Decidable (key' ≠ key))
  | .addData _ | .removeData _ | .reset => inferInstanceAs (Decidable False)

/-- Two clients look alike to a constraint: it is the same in both or in none, with the same
template, and they have the same setup and inventories. -/
structure LooksAlike (key : ConstraintKey) (a b : Client) : Prop where
  setup_eq : a.setup = b.setup
  template?_eq : a.cache.template? key.kind = b.cache.template? key.kind
  constraint?_eq : a.cache.constraint? key = b.cache.constraint? key
  inventories_eq : a.store.inventories = b.store.inventories

namespace LooksAlike

variable {a b client : Client} {key : ConstraintKey}

/-- To a constraint that an operation spares the client looks as before. -/
theorem perform (h : client.cache.WellFormed) {operation : Operation}
    (hspares : operation.Spares key) : LooksAlike key (client.perform operation).1 client := by
  have hsetup := client.setup_perform operation
  cases operation with
  | addTemplate t =>
    have hsame : Cache.SameAt key.kind (client.perform (.addTemplate t)).1.cache client.cache :=
      sameAt_perform h rfl (Ne.symm hspares)
    exact ⟨hsetup, hsame.template?_eq, hsame.constraint?_eq key.name,
      inventories_perform client rfl⟩
  | removeTemplate kind =>
    have hsame :
        Cache.SameAt key.kind (client.perform (.removeTemplate kind)).1.cache client.cache :=
      sameAt_perform h rfl (Ne.symm hspares)
    exact ⟨hsetup, hsame.template?_eq, hsame.constraint?_eq key.name,
      inventories_perform client rfl⟩
  | addConstraint c =>
    refine ⟨hsetup, Cache.template?_upsertConstraint _ _ _, ?_, rfl⟩
    change (client.cache.upsertConstraint c).1.constraint? key = _
    rw [Cache.upsertConstraint]
    split
    · rfl
    · exact (Cache.constraint?_putConstraint _ _ _).trans (if_neg (Ne.symm hspares))
  | removeConstraint key' =>
    refine ⟨hsetup, Cache.template?_removeConstraint _ _ _, ?_, rfl⟩
    refine (h.constraint?_removeConstraint key' key).trans ?_
    cases hentry : client.cache.constraint? key with
    | none => rfl
    | some entry =>
      have hne : entry.constraint.key ≠ key' := by
        rw [h.ordered.key_eq hentry]
        exact Ne.symm hspares
      rw [Option.filter_some, if_pos (decide_eq_true hne)]
  | addData v => exact hspares.elim
  | removeData v => exact hspares.elim
  | reset => exact hspares.elim

/-- To a constraint that operations spare the client looks as before. -/
theorem run (h : client.Coherent) {operations : List Operation}
    (hspares : ∀ operation ∈ operations, operation.Spares key) :
    LooksAlike key (client.run operations).1 client := by
  induction operations generalizing client with
  | nil => exact ⟨rfl, rfl, rfl, rfl⟩
  | cons operation rest ih =>
    obtain ⟨hfirst, hrest⟩ := List.forall_mem_cons.1 hspares
    have hstep := perform h.wellFormed hfirst
    have hlater := ih (h.perform operation) hrest
    exact ⟨hlater.setup_eq.trans hstep.setup_eq, hlater.template?_eq.trans hstep.template?_eq,
      hlater.constraint?_eq.trans hstep.constraint?_eq,
      hlater.inventories_eq.trans hstep.inventories_eq⟩

end LooksAlike

/-! ### The modules of a kind -/

/-- Beneath the module of a target and a kind the store has just the modules of the template of this
kind that stand there. -/
theorem Coherent.get?_beneath_eq_some_iff {client : Client} (h : client.Coherent)
    {target : TargetName} {kind : TemplateKind} {id : ModuleId} {source : String} :
    (client.store.modules.filter fun id _ =>
        (ModuleId.forTemplate target kind).covers id).get? id = some source ↔
      ∃ compiled, client.cache.template? kind = some compiled ∧ (id, source) ∈ compiled.modules ∧
        (ModuleId.forTemplate target kind).covers id = true := by
  rw [SortedMap.get?_filter, Option.filter_eq_some_iff, h.modules_iff]
  constructor
  · rintro ⟨⟨kind', compiled, hcompiled, hmem⟩, hcovers⟩
    obtain ⟨target', a, ha, hma⟩ := CompiledTemplate.IsOutcome.mem_modules_iff.1 hmem
    have hstands := ((h.isOutcome hcompiled).standsAt ha).2.covers hma
    have hkind := (ModuleId.eq_of_covers_forTemplate hstands hcovers).2
    rw [h.wellFormed.kind_eq hcompiled] at hkind
    rw [hkind] at hcompiled
    exact ⟨compiled, hcompiled, hmem, hcovers⟩
  · rintro ⟨compiled, hcompiled, hmem, hcovers⟩
    exact ⟨⟨kind, compiled, hcompiled, hmem⟩, hcovers⟩

/-- Questions load modules of templates only. -/
theorem Coherent.exists_template_of_mem_question {client : Client} (h : client.Coherent)
    {target : Target} {input : Json} {c : Constraint} {m : ModuleId × String}
    (hm : m ∈ (client.question target input c).modules) :
    ∃ kind compiled, client.cache.template? kind = some compiled ∧ m ∈ compiled.modules :=
  h.modules_iff.1 (SortedMap.mem_entries_iff.1 (List.mem_of_mem_filter hm))

/-- The question about a constraint that is evaluated is about all modules beneath that of
its kind. -/
theorem ownModules_question {client : Client} {target : Target} {input : Json} {c : Constraint}
    (hc : c ∈ client.evaluated target input) :
    (client.question target input c).ownModules =
      (client.store.modules.filter fun id _ =>
        (ModuleId.forTemplate target.name c.kind).covers id).entries := by
  rw [RuleQuery.ownModules, question, List.filter_filter]
  refine List.filter_congr fun m _ => ?_
  dsimp only
  cases hcovers : (ModuleId.forTemplate target.name c.kind).covers m.1 with
  | false => rfl
  | true =>
    rw [Bool.true_and]
    exact List.any_eq_true.2 ⟨c, hc, hcovers⟩

/-- The questions about constraints that are evaluated are confined. -/
theorem Coherent.isConfined_question {client : Client} (h : client.Coherent) {target : Target}
    {input : Json} {c : Constraint} (hc : c ∈ client.evaluated target input) :
    (client.question target input c).IsConfined client.setup.evaluator where
  exists_module := ⟨_, _, rfl⟩
  rule_eq := rfl
  exists_covers := by
    intro m hm
    obtain ⟨kind, compiled, hcompiled, hmem⟩ := h.exists_template_of_mem_question hm
    obtain ⟨target', a, ha, hma⟩ := CompiledTemplate.IsOutcome.mem_modules_iff.1 hmem
    exact ⟨target', compiled.kind, ((h.isOutcome hcompiled).standsAt ha).2.covers hma⟩
  admits := by
    intro m hm
    obtain ⟨kind, compiled, hcompiled, hmem⟩ := h.exists_template_of_mem_question hm
    exact (h.isOutcome hcompiled).admits m hmem
  refersWithin := by
    rw [ownModules_question hc]
    rintro ⟨id, source⟩ hm
    obtain ⟨compiled, hcompiled, hmem, hcovers⟩ :=
      h.get?_beneath_eq_some_iff.1 (SortedMap.mem_entries_iff.1 hm)
    have hkind : compiled.kind = c.kind := h.wellFormed.kind_eq hcompiled
    rw [← hkind] at hcovers
    have hrefers := (h.isOutcome hcompiled).refersWithin hmem hcovers
    rwa [hkind] at hrefers

namespace LooksAlike

variable {a b : Client} {key : ConstraintKey} {target : Target} {input : Json} {c : Constraint}

/-- Clients that look alike to a constraint have the same modules beneath that of its kind. -/
theorem beneath_eq (h : LooksAlike key a b) (ha : a.Coherent) (hb : b.Coherent)
    (target : TargetName) :
    (a.store.modules.filter fun id _ => (ModuleId.forTemplate target key.kind).covers id) =
      b.store.modules.filter fun id _ => (ModuleId.forTemplate target key.kind).covers id := by
  refine SortedMap.ext_get? fun id => Option.ext fun source => ?_
  rw [ha.get?_beneath_eq_some_iff, hb.get?_beneath_eq_some_iff, h.template?_eq]

/-- Clients that look alike to a constraint ask alike questions about it. -/
theorem question_alike (h : LooksAlike key a b) (ha : a.Coherent) (hb : b.Coherent)
    (hkey : c.key = key) (hca : c ∈ a.evaluated target input)
    (hcb : c ∈ b.evaluated target input) :
    (a.question target input c).Alike (b.question target input c) where
  module_eq := rfl
  rule_eq := rfl
  inventory_eq := by rw [question, question, Store.inventory, Store.inventory, h.inventories_eq]
  input_eq := rfl
  ownModules_eq := by
    obtain rfl := hkey
    rw [ownModules_question hca, ownModules_question hcb]
    exact congrArg SortedMap.entries (h.beneath_eq ha hb target.name)

/-- Clients that look alike to a constraint get the same answer about it, if they get one. -/
theorem results_eq (h : LooksAlike key a b) (ha : a.Coherent) (hb : b.Coherent)
    (hconfined : a.setup.evaluator.Confined) (hkey : c.key = key)
    (hca : c ∈ a.evaluated target input) (hcb : c ∈ b.evaluated target input)
    {results results' : List Json} (hresults : a.answer target input c = .ok results)
    (hresults' : b.answer target input c = .ok results') : results = results' := by
  rw [answer, ← h.setup_eq] at hresults'
  have hquestion := hb.isConfined_question hcb
  rw [← h.setup_eq] at hquestion
  exact hconfined _ _ (h.question_alike ha hb hkey hca hcb) (ha.isConfined_question hca) hquestion
    results results' hresults hresults'

/-- A constraint is evaluated in both or in none of two clients that look alike to it. -/
theorem evaluates_eq (h : LooksAlike key a b) {entry : ConstraintEntry}
    (hkey : entry.constraint.key = key) (target : Target) (input : Json) :
    a.evaluates target input entry = b.evaluates target input entry := by
  obtain rfl := hkey
  rw [evaluates, evaluates]
  exact congrArg (fun compiled : Option CompiledTemplate => entry.isActive &&
    (compiled.bind (·.artifact? target.name)).isSome && _ && _) h.template?_eq

end LooksAlike

end PolicyEngine.Client
