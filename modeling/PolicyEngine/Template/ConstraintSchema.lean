import PolicyEngine.Constraint
import PolicyEngine.Target.Registry
import PolicyEngine.Template

/-!
# The schema of a template's constraints

A constraint has to fit its template: its parameters satisfy the template's schema, and its match
specification that of a target which the template declares. Targets read match specifications
differently, so it is enough that one of them accepts the specification; the constraint then applies
at the targets that do.

## Main definitions

* `PolicyEngine.ConstraintSchema`, `PolicyEngine.ConstraintSchema.derive`.
* `PolicyEngine.ConstraintSchema.validate` — refuse a constraint that does not fit.
* `PolicyEngine.ConstraintSchema.matchApplies` — where a match specification applies.
* `PolicyEngine.ConstraintSchema.root` — the schema of whole constraints, for publication.
-/

namespace PolicyEngine

/-- What the constraints of a template have to satisfy. -/
structure ConstraintSchema where
  kind : TemplateKind
  /-- The resolved schema of the parameters. -/
  parameters : Schema
  /-- The resolved match schemas of the declared targets that are registered. -/
  matchSchemas : SortedMap TargetName Schema

namespace ConstraintSchema

/-- The resolved schema of a template's parameters. Without a schema document they are free. -/
def deriveParameters (t : Template) : Except PolicyError Schema :=
  match t.validation.schema with
  | none => .ok (Schema.anything.resolve t.validation.legacySchema)
  | some document =>
    match Schema.ofJson document with
    | .ok s => .ok (s.resolve t.validation.legacySchema)
    | .error m => .error (.schemaValidation t.kind.text [⟨m.path, .malformed m.reason⟩])

/-- The resolved match schemas of the declared targets that are registered. -/
def deriveMatchSchemas (t : Template) (registry : Registry) : SortedMap TargetName Schema :=
  t.targets.filterMap fun name _ =>
    (registry.get? name).map fun target => target.matchSchema.resolve false

/-- The schema of a template's constraints. -/
def derive (t : Template) (registry : Registry) : Except PolicyError ConstraintSchema :=
  (deriveParameters t).map fun parameters =>
    { kind := t.kind, parameters, matchSchemas := deriveMatchSchemas t registry }

/-- What is wrong with the parameters of a constraint. Null stands for no parameters and is not
looked at. -/
def parameterDetails (s : ConstraintSchema) (c : Constraint) : List Detail :=
  if c.parameters.isNull then []
  else (s.parameters.violations c.parameters).map fun v =>
    ⟨"parameters" :: v.path, .violation v.fault⟩

/-- What a target's schema finds wrong with a match specification. -/
def rejections (spec : Json) (target : TargetName) (schema : Schema) : List Detail :=
  (schema.violations spec).map fun v => ⟨"match" :: v.path, .matchViolation v.fault target⟩

/-- What is wrong with the match specification of a constraint: nothing if a target accepts it or
none is registered, and otherwise all that the targets find. -/
def matchDetails (s : ConstraintSchema) (c : Constraint) : List Detail :=
  match c.matchSpec with
  | none => []
  | some spec =>
    if s.matchSchemas.isEmpty || s.matchSchemas.values.any (·.accepts spec) then []
    else s.matchSchemas.entries.flatMap fun (target, schema) => rejections spec target schema

/-- Everything that is wrong with a constraint. -/
def details (s : ConstraintSchema) (c : Constraint) : List Detail :=
  s.parameterDetails c ++ s.matchDetails c

/-- Refuse a constraint that does not fit the schema. -/
def validate (s : ConstraintSchema) (c : Constraint) : Except PolicyError Unit :=
  if (s.details c).isEmpty then .ok ()
  else .error (.schemaValidation c.key.text (s.details c))

/-- Whether a constraint with a given match specification applies at a target: without one
everywhere, and with one where the schema of the target accepts it. -/
def matchApplies (s : ConstraintSchema) (target : TargetName) (spec : Option Json) : Bool :=
  match spec with
  | none => true
  | some spec => (s.matchSchemas.get? target).any (·.accepts spec)

/-- The schema of the match specification, for publication. -/
def publishedMatch (s : ConstraintSchema) : List (String × Schema) :=
  match s.matchSchemas.values with
  | [] => []
  | [only] => [("match", only)]
  | _ => [("match",
      .withDescription "must satisfy the match schema of at least one target" .anything)]

/-- The schema of whole constraints, for publication. -/
def root (s : ConstraintSchema) : Schema :=
  .withDescription ("Constraints of kind " ++ s.kind.text) <| .withUnknown .reject <|
    .record <| [("enforcementAction", .string), ("parameters", s.parameters)] ++ s.publishedMatch

/-- The published document of the schema. -/
def toJson (s : ConstraintSchema) : Json := s.root.toJson

end ConstraintSchema

end PolicyEngine
