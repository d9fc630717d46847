import PolicyEngine.Json.Decode

/-!
# Templates

A template is a reusable policy: a schema for parameters and, for each target it serves, the source
of its rule with the libraries the rule uses. Constraints instantiate it under its kind.

## Main definitions

* `PolicyEngine.TargetRule`, `PolicyEngine.Validation`, `PolicyEngine.Template`.
* `PolicyEngine.Template.ofJson`, `PolicyEngine.Template.toJson`.
-/

namespace PolicyEngine

/-! ### Rules -/

/-- The rule of a template for one target: a main source and the libraries beside it. -/
structure TargetRule where
  rego : String
  libs : List String := []
deriving DecidableEq, Repr

namespace TargetRule

/-- The field of the main source. -/
def regoField := Json.required "rego" Json.decodeString

/-- The field of the libraries. -/
def libsField := Json.optional "libs" (Json.decodeList Json.decodeString) []

/-- Read a rule. -/
def ofJson (v : Json) : Decoded TargetRule := do
  let r ← v.recordMembers "TargetRule" [regoField.slot, libsField.slot]
  return { rego := ← regoField.get r, libs := ← libsField.get r }

/-- Write a rule, leaving out an empty list of libraries. -/
def toJson (rule : TargetRule) : Json :=
  .ofMembers <| [("rego", .str rule.rego)] ++
    if rule.libs.isEmpty then [] else [("libs", .arr (rule.libs.map .str))]

end TargetRule

/-! ### Validation -/

/-- How a template restricts the parameters of its constraints. -/
structure Validation where
  /-- Whether undeclared parameters are preserved where the schema leaves that open. -/
  legacySchema : Bool := false
  /-- The schema document of the parameters. -/
  schema : Option Json := none

namespace Validation

instance : BEq Validation where
  beq a b := a.legacySchema == b.legacySchema && a.schema == b.schema

/-- The field of the legacy mode. -/
def legacyField := Json.optional "legacySchema" Json.decodeBool false

/-- The field of the schema document. -/
def schemaField := Json.optional "openAPIV3Schema" (Json.decodeOption Json.decodeAny) none

/-- Read a validation. -/
def ofJson (v : Json) : Decoded Validation := do
  let r ← v.recordMembers "Validation" [legacyField.slot, schemaField.slot]
  return { legacySchema := ← legacyField.get r, schema := ← schemaField.get r }

/-- Write a validation, leaving out an absent schema. -/
def toJson (validation : Validation) : Json :=
  .ofMembers <| [("legacySchema", .bool validation.legacySchema)] ++
    validation.schema.toList.map fun document => ("openAPIV3Schema", document)

end Validation

/-! ### Templates -/

/-- A policy that constraints instantiate. -/
structure Template where
  kind : TemplateKind
  shortNames : List String := []
  validation : Validation := {}
  targets : SortedMap TargetName TargetRule := .empty

namespace Template

instance : BEq Template where
  beq a b :=
    a.kind == b.kind && a.shortNames == b.shortNames && a.validation == b.validation &&
      a.targets == b.targets

/-- Serve a target, replacing the rule it had. -/
def withTarget (t : Template) (target : TargetName) (rule : TargetRule) : Template :=
  { t with targets := t.targets.insert target rule }

/-- The field of the kind. -/
def kindField := Json.required "kind" TemplateKind.ofJson

/-- The field of the short names. -/
def shortNamesField := Json.optional "shortNames" (Json.decodeList Json.decodeString) []

/-- The field of the validation. -/
def validationField := Json.optional "validation" Validation.ofJson {}

/-- The field of the rules. -/
def targetsField :=
  Json.required "targets" (Json.decodeMap (decodeIdentifier TargetName.ofString) TargetRule.ofJson)

/-- Read a template. -/
def ofJson (v : Json) : Decoded Template := do
  let r ← v.recordMembers "Template"
    [kindField.slot, shortNamesField.slot, validationField.slot, targetsField.slot]
  return {
    kind := ← kindField.get r
    shortNames := ← shortNamesField.get r
    validation := ← validationField.get r
    targets := ← targetsField.get r }

/-- Write a template, leaving out an empty list of short names. -/
def toJson (t : Template) : Json :=
  .ofMembers <| [
    ("kind", .str t.kind.text),
    ("validation", t.validation.toJson),
    ("targets", .obj (t.targets.entries.map fun (name, rule) => (name.text, rule.toJson)))] ++
    if t.shortNames.isEmpty then [] else [("shortNames", .arr (t.shortNames.map .str))]

end Template

end PolicyEngine
