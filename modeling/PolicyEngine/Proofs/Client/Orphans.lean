import PolicyEngine.Client.Operation
import PolicyEngine.Proofs.Cache.Orphans

/-!
# Orphans of clients

A client changes its cache only by the updates of caches, and removes templates only under its own
orphan policy. So what holds of caches after updates under one policy holds of the cache of every
client that can occur: where constraints go with their templates every constraint has one, and where
they are retained a constraint is an orphan exactly as long as there is no template whose schema it
satisfies.

## Main definitions

* `PolicyEngine.Client.updates` — what an operation does to the cache.

## Main results

* `PolicyEngine.Client.cache_perform`, `PolicyEngine.Client.exists_cache_run_eq` — the cache of a
  client is what updates under its policy lead to.
* `PolicyEngine.Client.status_run` — what the status of a constraint says.
-/

namespace PolicyEngine.Client

/-! ### Operations of clients as updates of caches -/

/-- The updates that an operation makes to the cache. -/
def updates (client : Client) : Operation → List Cache.Operation
  | .addTemplate t =>
    match client.current? t, client.prepareTemplate t with
    | none, .ok (compiled, _) => [.installTemplate compiled]
    | _, _ => []
  | .removeTemplate kind =>
    match client.cache.template? kind with
    | none => []
    | some _ => [.removeTemplate client.setup.config.orphanPolicy kind]
  | .addConstraint c => [.upsertConstraint c]
  | .removeConstraint key => [.removeConstraint key]
  | .addData _ => []
  | .removeData _ => []
  | .reset => [.clear]

theorem cache_perform (client : Client) (operation : Operation) :
    (client.perform operation).1.cache = client.cache.run (client.updates operation) := by
  cases operation with
  | addTemplate t =>
    rw [perform, addTemplate, updates]
    cases client.current? t with
    | some compiled => rfl
    | none =>
      cases client.prepareTemplate t with
      | error e => rfl
      | ok result => rfl
  | removeTemplate kind =>
    rw [perform, removeTemplate, updates]
    cases client.cache.template? kind with
    | none => rfl
    | some compiled => rfl
  | addConstraint c => rfl
  | removeConstraint key => rfl
  | addData v => rfl
  | removeData v => rfl
  | reset => rfl

/-- A client removes templates under its own policy. -/
theorem obeys_of_mem_updates {client : Client} {operation : Operation} {update : Cache.Operation}
    (h : update ∈ client.updates operation) : update.Obeys client.setup.config.orphanPolicy := by
  cases operation with
  | addTemplate t =>
    rw [updates] at h
    split at h
    · rw [List.mem_singleton.1 h]
      trivial
    · cases h
  | removeTemplate kind =>
    rw [updates] at h
    split at h
    · cases h
    · rw [List.mem_singleton.1 h]
      rfl
  | addConstraint c =>
    rw [List.mem_singleton.1 h]
    trivial
  | removeConstraint key =>
    rw [List.mem_singleton.1 h]
    trivial
  | addData v => cases h
  | removeData v => cases h
  | reset =>
    rw [List.mem_singleton.1 h]
    trivial

/-- The cache of a client is what updates under its policy lead to. -/
theorem exists_cache_run_eq (client : Client) (operations : List Operation) :
    ∃ updates : List Cache.Operation,
      (∀ update ∈ updates, update.Obeys client.setup.config.orphanPolicy) ∧
        (client.run operations).1.cache = client.cache.run updates := by
  induction operations generalizing client with
  | nil => exact ⟨[], List.forall_mem_nil _, rfl⟩
  | cons operation rest ih =>
    obtain ⟨later, hobeys, hlater⟩ := ih (client.perform operation).1
    rw [setup_perform] at hobeys
    refine ⟨client.updates operation ++ later, ?_, ?_⟩
    · exact List.forall_mem_append.2 ⟨fun _ => obeys_of_mem_updates, hobeys⟩
    · rw [Cache.run_append, ← cache_perform, ← hlater]
      rfl

/-! ### Statuses -/

/-- The status of every constraint of a client is right. -/
theorem settled_of_constraint? (setup : Setup) (operations : List Operation) {key : ConstraintKey}
    {entry : ConstraintEntry}
    (hentry : ((Client.fresh setup).run operations).1.cache.constraint? key = some entry) :
    Cache.Settled setup.config.orphanPolicy ((Client.fresh setup).run operations).1.cache
      entry := by
  obtain ⟨updates, hobeys, hrun⟩ := exists_cache_run_eq (.fresh setup) operations
  have hempty := Cache.WellFormed.empty 0 0
  rw [hrun] at hentry ⊢
  exact Cache.settled_run hempty (fun _ h => by cases h) hobeys entry
    ((hempty.run updates).ordered.mem_entries_of_get? hentry)

/-- **What the status of a constraint says.** After any operations from a fresh client: where
constraints go with their templates no constraint is an orphan, and each has a template. Where they
are retained each constraint in force has a template, each without one is an orphan, and no orphan
satisfies the schema of a template of its kind. -/
theorem status_run (setup : Setup) (operations : List Operation) :
    let cache := ((Client.fresh setup).run operations).1.cache
    ∀ key entry, cache.constraint? key = some entry →
      match setup.config.orphanPolicy with
      | .cascade =>
        entry.status = .active ∧
          ∃ compiled, cache.template? entry.constraint.kind = some compiled
      | .retain =>
        (entry.status = .active →
            ∃ compiled, cache.template? entry.constraint.kind = some compiled) ∧
          (cache.template? entry.constraint.kind = none → entry.status = .orphaned) ∧
          ∀ compiled, entry.status = .orphaned →
            cache.template? entry.constraint.kind = some compiled →
              ∃ e, compiled.schema.validate entry.constraint = .error e := by
  intro cache key entry hentry
  have hsettled := settled_of_constraint? setup operations hentry
  cases hpolicy : setup.config.orphanPolicy with
  | cascade =>
    have hactive : entry.status = .active := by
      cases hstatus : entry.status with
      | active => rfl
      | orphaned =>
        have hretain := hsettled.retain hstatus
        rw [hpolicy] at hretain
        cases hretain
    exact ⟨hactive, hsettled.exists_template hactive⟩
  | retain =>
    refine ⟨hsettled.exists_template, fun hnone => ?_, fun compiled horphaned hcompiled => ?_⟩
    · cases hstatus : entry.status with
      | orphaned => rfl
      | active =>
        obtain ⟨compiled, hcompiled⟩ := hsettled.exists_template hstatus
        rw [hnone] at hcompiled
        cases hcompiled
    · have hinvalid := hsettled.validate_eq horphaned hcompiled
      cases hvalidate : compiled.schema.validate entry.constraint with
      | error e => exact ⟨e, rfl⟩
      | ok _ =>
        rw [hvalidate] at hinvalid
        cases hinvalid

/-! ### An instance -/

namespace Returning

/-- A target that handles no values. -/
def target : Target where
  name := ⟨"notes", by decide +kernel⟩
  matchSchema := .anything
  shape? _ := none
  covers _ _ := true
  dataEntry? _ := none

/-- A client that retains constraints. -/
def setup : Setup where
  evaluator := { parses := fun _ => true, results := fun _ => .ok [] }
  registry := ⟨[target], List.pairwise_singleton _ _⟩
  config := { orphanPolicy := .retain }

/-- A template whose parameters satisfy a schema. -/
def template (schema : Option Json) : Template where
  kind := ⟨"Owned", by decide +kernel⟩
  validation := { schema }
  targets := SortedMap.empty.insert target.name { rego := "package owned\nviolation[r] { r }" }

/-- A constraint with parameters that only the free schema accepts. -/
def constraint : Constraint where
  kind := (template none).kind
  name := ⟨"each", by decide +kernel⟩
  parameters := .emptyObject

/-- A schema that asks for an owner. -/
def strict : Json := .obj [("required", .arr [.str "owner"]), ("type", .str "object")]

/-- A template goes and a stricter one comes in its place. -/
def operations : List Operation :=
  [.addTemplate (template none), .addConstraint constraint, .removeTemplate constraint.kind,
    .addTemplate (template (some strict))]

end Returning

theorem status_run_returning :
    let cache := ((Client.fresh Returning.setup).run Returning.operations).1.cache
    ∃ entry compiled, cache.constraint? Returning.constraint.key = some entry ∧
      cache.template? entry.constraint.kind = some compiled ∧ entry.status = .orphaned ∧
        ∃ e, compiled.schema.validate entry.constraint = .error e := by
  intro cache
  have horphan : (cache.constraint? Returning.constraint.key).any (fun entry =>
      entry.status = .orphaned ∧ (cache.template? entry.constraint.kind).isSome) = true := by
    decide +kernel
  rw [Option.any_eq_true] at horphan
  obtain ⟨entry, hentry, hstatus⟩ := horphan
  obtain ⟨horphaned, htemplate⟩ := of_decide_eq_true hstatus
  obtain ⟨compiled, hcompiled⟩ := Option.isSome_iff_exists.1 htemplate
  obtain ⟨-, -, hinvalid⟩ := status_run Returning.setup Returning.operations _ entry hentry
  exact ⟨entry, compiled, hentry, hcompiled, horphaned, hinvalid compiled horphaned hcompiled⟩

end PolicyEngine.Client
