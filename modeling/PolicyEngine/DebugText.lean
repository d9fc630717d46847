import PolicyEngine.Cache.Locks
import PolicyEngine.Client.Basic

/-!
# Texts for developers

How registries, caches, locks and clients are shown to developers: the name of the type with its
fields in braces.

## Main definitions

* `PolicyEngine.DebugText.record` — the form of all these texts.
* `PolicyEngine.Registry.debugText`, `PolicyEngine.Cache.debugText`,
  `PolicyEngine.Client.debugText`.
-/

namespace PolicyEngine

namespace DebugText

/-- A type's name with its fields in braces; two dots at the end stand for fields that are not
shown. -/
def record (name : String) (fields : List (String × String)) (more : Bool) : String :=
  let shown := fields.map (fun (field, value) => field ++ ": " ++ value) ++
    if more then [".."] else []
  name ++ " \x7b " ++ ", ".intercalate shown ++ " \x7d"

/-- A type's name with its only part in parentheses. -/
def wrapped (name value : String) : String := name ++ "(" ++ value ++ ")"

/-- A list of texts. -/
def list (texts : List String) : String := "[" ++ ", ".intercalate (texts.map Text.quoted) ++ "]"

end DebugText

/-- The name of a case. -/
def CompilePolicy.debugText : CompilePolicy → String
  | bestEffort => "BestEffort"
  | strict => "Strict"

/-- The name of a case. -/
def OrphanPolicy.debugText : OrphanPolicy → String
  | cascade => "Cascade"
  | retain => "Retain"

/-- The settings of a client for developers. -/
def ClientConfig.debugText (config : ClientConfig) : String :=
  DebugText.record "ClientConfig" [
    ("query_timeout", showDuration config.queryTimeoutMs),
    ("compile_policy", config.compilePolicy.debugText),
    ("orphan_policy", config.orphanPolicy.debugText),
    ("max_evaluations", toString config.maxEvaluations)] false

namespace Registry

/-- The targets of a registry, under a type's name. -/
def debugTextAs (name : String) (registry : Registry) : String :=
  DebugText.record name [("targets", DebugText.list (registry.names.map (·.text)))] false

/-- A registry for developers. -/
def debugText : Registry → String := debugTextAs "TargetRegistry"

/-- A registry that is still open to registrations, for developers. -/
def builderDebugText : Registry → String := debugTextAs "TargetRegistryBuilder"

end Registry

/-- A cache for developers. -/
def Cache.debugText (policy : OrphanPolicy) (cache : Cache) : String :=
  DebugText.record "Cache" [
    ("orphan_policy", policy.debugText),
    ("templates", toString cache.templates.size),
    ("constraints", toString cache.constraints.size),
    ("generation", toString cache.generation)] false

/-- A client for developers. -/
def Client.debugText (client : Client) : String :=
  DebugText.record "Client" [
    ("config", client.setup.config.debugText),
    ("targets", client.setup.registry.debugText),
    ("cache", client.cache.debugText client.setup.config.orphanPolicy)] true

/-- A template kind for developers. -/
def TemplateKind.debugText (kind : TemplateKind) : String :=
  DebugText.wrapped "TemplateKind" (Text.quoted kind.text)

/-- A constraint name for developers. -/
def ConstraintName.debugText (name : ConstraintName) : String :=
  DebugText.wrapped "ConstraintName" (Text.quoted name.text)

/-- A constraint key for developers. -/
def ConstraintKey.debugText (key : ConstraintKey) : String :=
  DebugText.record "ConstraintKey"
    [("kind", key.kind.debugText), ("name", key.name.debugText)] false

namespace KeyLocks

/-- The locks for developers. -/
def debugText (locks : KeyLocks) : String :=
  DebugText.record "KeyLocks" [("stripes", toString locks.stripes)] false

/-- The lock held for a template, for developers. -/
def templateGuardText (kind : TemplateKind) : String :=
  DebugText.record "TemplateGuard" [("kind", kind.debugText)] false

/-- The lock held for a constraint, for developers. -/
def constraintGuardText (key : ConstraintKey) : String :=
  DebugText.record "ConstraintGuard" [("key", key.debugText)] false

/-- All locks held at once, for developers. -/
def allKeysGuardText : String := DebugText.record "AllKeysGuard" [] true

end KeyLocks

end PolicyEngine
