import PolicyEngine.Cache.Update
import PolicyEngine.Client.Review

/-!
# Clients

A client serves a registry of targets with an evaluator. It keeps the policy store and the cache in
step: the modules in the store are those of the templates in the cache. An operation that fails
leaves both as they were.

## Main definitions

* `PolicyEngine.Setup` — the evaluator, the targets and the settings, which never change.
* `PolicyEngine.Client` — a setup with a store and a cache.
* `PolicyEngine.Client.addTemplate`, `PolicyEngine.Client.removeTemplate`.
* `PolicyEngine.Client.addConstraint`, `PolicyEngine.Client.removeConstraint`.
* `PolicyEngine.Client.addData`, `PolicyEngine.Client.removeData`, `PolicyEngine.Client.reset`.
* `PolicyEngine.Client.review`, `PolicyEngine.Client.dump`.
-/

namespace PolicyEngine

/-- What a client is set up with. -/
structure Setup where
  evaluator : Evaluator
  registry : Registry
  config : ClientConfig := {}

/-- A setup with the state it works on. -/
structure Client where
  setup : Setup
  store : Store := {}
  cache : Cache := {}

/-- What adding a template did. -/
inductive TemplateChange where
  | installed (replaced : Bool)
  /-- The same template was there already. -/
  | unchanged
deriving DecidableEq, Repr

/-- What adding a template reports. -/
structure TemplateStatus where
  kind : TemplateKind
  change : TemplateChange
  /-- The targets for which the template does not compile, by name. -/
  failures : List (TargetName × PolicyError)

namespace TemplateStatus

/-- The report on a compiled template. -/
def ofCompiled (compiled : CompiledTemplate) (change : TemplateChange) : TemplateStatus :=
  ⟨compiled.kind, change, compiled.failures⟩

/-- Whether the template was installed. -/
def isChanged (status : TemplateStatus) : Bool := status.change ≠ .unchanged

/-- Whether some target failed. -/
def isPartial (status : TemplateStatus) : Bool := !status.failures.isEmpty

end TemplateStatus

namespace Client

/-- A client without templates, constraints and data. -/
def fresh (setup : Setup) : Client := { setup }

/-! ### Templates -/

/-- Compile a template without installing it. -/
def validateTemplate (client : Client) (t : Template) : Except PolicyError CompiledTemplate :=
  t.compile client.setup.evaluator client.setup.registry client.setup.config.compilePolicy

/-- The compiled template of a template's kind, if it is that of an equal template. -/
def current? (client : Client) (t : Template) : Option CompiledTemplate :=
  (client.cache.template? t.kind).filter fun compiled => compiled.template == t

/-- Compile a template and prepare the modules that it puts in place of those of its predecessor. -/
def prepareTemplate (client : Client) (t : Template) :
    Except PolicyError (CompiledTemplate × PreparedChange client.setup.evaluator) := do
  let compiled ← client.validateTemplate t
  let change := compiled.moduleChange (client.cache.template? t.kind)
  let prepared ← (Store.prepare client.setup.evaluator change).mapError .store
  return (compiled, prepared)

/-- Install a template, unless it is there already. -/
def addTemplate (client : Client) (t : Template) : Client × Except PolicyError TemplateStatus :=
  match client.current? t with
  | some compiled => (client, .ok (.ofCompiled compiled .unchanged))
  | none =>
    match client.prepareTemplate t with
    | .error e => (client, .error e)
    | .ok (compiled, prepared) =>
      let (cache, installed) := client.cache.installTemplate compiled
      ({ client with store := (client.store.commit prepared).1, cache },
        .ok (.ofCompiled compiled (.installed installed.previous.isSome)))

/-- Remove the template of a kind, and its constraints as the orphan policy says. -/
def removeTemplate (client : Client) (kind : TemplateKind) : Client × Removal :=
  match client.cache.template? kind with
  | none => (client, .notFound)
  | some compiled =>
    let prepared := PreparedChange.ofRemovals client.setup.evaluator compiled.moduleIds
    let (cache, removal) := client.cache.removeTemplate client.setup.config.orphanPolicy kind
    ({ client with store := (client.store.commit prepared).1, cache }, removal)

/-- The template of a kind. -/
def template? (client : Client) (kind : TemplateKind) : Option Template :=
  (client.cache.template? kind).map (·.template)

/-- The kinds of the templates in order. -/
def templateKinds (client : Client) : List TemplateKind := client.cache.templates.keys

/-- The published schema of the constraints of a kind. -/
def constraintSchema (client : Client) (kind : TemplateKind) : Except PolicyError Json :=
  match client.cache.template? kind with
  | some compiled => .ok compiled.schema.toJson
  | none => .error (.unknownTemplate kind)

/-! ### Constraints -/

/-- Check and store a constraint. -/
def addConstraint (client : Client) (c : Constraint) : Client × Except PolicyError Unit :=
  let (cache, outcome) := client.cache.upsertConstraint c
  ({ client with cache }, outcome.map fun _ => ())

/-- Check a constraint without storing it. -/
def validateConstraint (client : Client) (c : Constraint) : Except PolicyError Unit :=
  client.cache.checkConstraint c

/-- Remove the constraint of a key. -/
def removeConstraint (client : Client) (key : ConstraintKey) : Client × Removal :=
  let (cache, removal) := client.cache.removeConstraint key
  ({ client with cache }, removal)

/-- The constraint of a key. -/
def constraint? (client : Client) (key : ConstraintKey) : Option Constraint :=
  (client.cache.constraint? key).map (·.constraint)

/-- The keys of the constraints in the order in which they were first added. -/
def constraintKeys (client : Client) : List ConstraintKey :=
  client.cache.entries.map (·.constraint.key)

/-! ### Data -/

/-- The targets that keep an object, with the entries they make of it. -/
def dataEntries (client : Client) (v : Json) : List (TargetName × DataEntry) :=
  client.setup.registry.targets.filterMap fun target =>
    (target.dataEntry? v).map (target.name, ·)

/-- Put an object into the inventory of every target that keeps it, and count these. -/
def addData (client : Client) (v : Json) : Client × Nat :=
  let entries := client.dataEntries v
  ({ client with
      store := entries.foldl (fun store e => store.putData e.1 e.2.path e.2.value) client.store },
    entries.length)

/-- Remove what an object's path holds in the inventory of one target. -/
def removeEntry (state : Store × Nat) (e : TargetName × DataEntry) : Store × Nat :=
  let (store, found) := state.1.removeData e.1 e.2.path
  (store, if found then state.2 + 1 else state.2)

/-- Remove an object from the inventory of every target that keeps it, and count those that had
something at its path. -/
def removeData (client : Client) (v : Json) : Client × Nat :=
  let (store, count) := (client.dataEntries v).foldl removeEntry (client.store, 0)
  ({ client with store }, count)

/-! ### Reviews -/

/-- Review an object within a time for the queries of each target. -/
def reviewWithin (client : Client) (timeoutMs : Nat) (v : Json) : Except PolicyError ReviewResult :=
  reviewAll client.setup.evaluator client.setup.registry client.cache client.store v timeoutMs

/-- Review an object within the configured time. -/
def review (client : Client) (v : Json) : Except PolicyError ReviewResult :=
  client.reviewWithin client.setup.config.queryTimeoutMs v

/-! ### Everything -/

/-- Drop all templates, constraints and data. -/
def reset (client : Client) : Client :=
  { client with store := client.store.clear, cache := client.cache.clear }

/-- A template as a dump shows it: for each target its module, or why there is none. -/
def dumpTemplate (compiled : CompiledTemplate) : Json :=
  .ofMembers [
    ("kind", .str compiled.kind.text),
    ("targets", .ofMembers <|
      compiled.artifacts.entries.map (fun (target, artifact) =>
        (target.text, .ofMembers [("module", .str artifact.module.path)])) ++
      compiled.failures.map fun (target, e) =>
        (target.text, .ofMembers [("error", .str e.message)]))]

/-- A constraint as a dump shows it. -/
def dumpConstraint (entry : ConstraintEntry) : Json :=
  .ofMembers [
    ("kind", .str entry.constraint.kind.text),
    ("name", .str entry.constraint.name.text),
    ("enforcementAction", .str entry.constraint.action.label),
    ("status", .str entry.status.name)]

/-- The templates, constraints and modules of a client. -/
def dump (client : Client) : Json :=
  .ofMembers [
    ("templates", .arr (client.cache.templates.values.map dumpTemplate)),
    ("constraints", .arr (client.cache.entries.map dumpConstraint)),
    ("modules", .arr (client.store.modules.keys.map fun id => .str id.path))]

end Client

end PolicyEngine
