import PolicyEngine.Json.Decode
import PolicyEngine.Text.Blank

/-!
# Configuration

The settings of the engine: how long a query may take, how many may run at once, what a template
that fails for one of its targets means for the others, and what becomes of the constraints of a
template that is removed. They are read from JSON, or from named variables whose values are texts.

## Main definitions

* `PolicyEngine.CompilePolicy`, `PolicyEngine.OrphanPolicy`.
* `PolicyEngine.ClientConfig`, `PolicyEngine.CacheConfig`.
* `PolicyEngine.ClientConfig.ofVariables` — the settings that variables give.
* `PolicyEngine.showDuration` — how messages show a time.
-/

namespace PolicyEngine

/-! ### Policies -/

/-- What happens to a template that compiles for some of its targets only. -/
inductive CompilePolicy where
  /-- It is used at the targets for which it compiles. -/
  | bestEffort
  /-- It is refused. -/
  | strict
deriving DecidableEq, Repr, Inhabited

/-- What happens to the constraints of a template that is removed. -/
inductive OrphanPolicy where
  /-- They are removed as well. -/
  | cascade
  /-- They are kept aside until the template returns. -/
  | retain
deriving DecidableEq, Repr, Inhabited

/-- A text that names no policy. -/
inductive PolicyNameError where
  | compile (text : String)
  | orphan (text : String)
deriving DecidableEq, Repr

/-- The wording of the error for a text that names no policy. -/
def PolicyNameError.message : PolicyNameError → String
  | compile text =>
    "unknown compile policy " ++ Text.quoted text ++ " (expected best-effort or strict)"
  | orphan text =>
    "unknown orphan policy " ++ Text.quoted text ++ " (expected cascade or retain)"

namespace CompilePolicy

/-- The policies by name. -/
def variants : Json.Variants CompilePolicy := [("best-effort", bestEffort), ("strict", strict)]

/-- The name of a policy. -/
def name : CompilePolicy → String
  | bestEffort => "best-effort"
  | strict => "strict"

/-- The policy with a given name. -/
def ofString (text : String) : Except PolicyNameError CompilePolicy :=
  match Assoc.get? text variants with
  | some policy => .ok policy
  | none => .error (.compile text)

/-- Read a policy. -/
def ofJson : Json → Decoded CompilePolicy := Json.decodeVariant variants

end CompilePolicy

namespace OrphanPolicy

/-- The policies by name. -/
def variants : Json.Variants OrphanPolicy := [("cascade", cascade), ("retain", retain)]

/-- The name of a policy. -/
def name : OrphanPolicy → String
  | cascade => "cascade"
  | retain => "retain"

/-- The policy with a given name. -/
def ofString (text : String) : Except PolicyNameError OrphanPolicy :=
  match Assoc.get? text variants with
  | some policy => .ok policy
  | none => .error (.orphan text)

/-- Read a policy. -/
def ofJson : Json → Decoded OrphanPolicy := Json.decodeVariant variants

end OrphanPolicy

/-! ### Settings -/

/-- The number of evaluations that may run at once unless something else is set. -/
def defaultMaxEvaluations : Nat := 32

/-- The settings of a client. -/
structure ClientConfig where
  /-- How many milliseconds a query may take. -/
  queryTimeoutMs : Nat := 5000
  compilePolicy : CompilePolicy := .bestEffort
  orphanPolicy : OrphanPolicy := .cascade
  /-- How many evaluations may run at once. -/
  maxEvaluations : Nat := defaultMaxEvaluations
deriving DecidableEq, Repr, Inhabited

namespace ClientConfig

/-- The field of the time limit. -/
def timeoutField := Json.optional "queryTimeoutMs" (Json.decodeNat "u64") 5000

/-- The field of the compile policy. -/
def compilePolicyField := Json.optional "compilePolicy" CompilePolicy.ofJson .bestEffort

/-- The field of the orphan policy. -/
def orphanPolicyField := Json.optional "orphanPolicy" OrphanPolicy.ofJson .cascade

/-- The field of the number of evaluations. -/
def maxEvaluationsField :=
  Json.optional "maxEvaluations" (Json.decodeNat "usize") defaultMaxEvaluations

/-- Read the settings of a client. -/
def ofJson (v : Json) : Decoded ClientConfig := do
  let r ← v.recordMembers "ClientConfig"
    [timeoutField.slot, compilePolicyField.slot, orphanPolicyField.slot, maxEvaluationsField.slot]
  return {
    queryTimeoutMs := ← timeoutField.get r
    compilePolicy := ← compilePolicyField.get r
    orphanPolicy := ← orphanPolicyField.get r
    maxEvaluations := ← maxEvaluationsField.get r }

/-- Write the settings of a client. -/
def toJson (config : ClientConfig) : Json :=
  .ofMembers [
    ("queryTimeoutMs", .ofNat config.queryTimeoutMs),
    ("compilePolicy", .str config.compilePolicy.name),
    ("orphanPolicy", .str config.orphanPolicy.name),
    ("maxEvaluations", .ofNat config.maxEvaluations)]

end ClientConfig

/-- The settings of a cache. -/
structure CacheConfig where
  orphanPolicy : OrphanPolicy := .cascade
  /-- The number of locks that keys share; zero stands for the default. -/
  lockStripes : Nat := 0
deriving DecidableEq, Repr, Inhabited

namespace CacheConfig

/-- The field of the orphan policy. -/
def orphanPolicyField := Json.optional "orphanPolicy" OrphanPolicy.ofJson .cascade

/-- The field of the number of locks. -/
def lockStripesField := Json.optional "lockStripes" (Json.decodeNat "usize") 0

/-- Read the settings of a cache. -/
def ofJson (v : Json) : Decoded CacheConfig := do
  let r ← v.recordMembers "CacheConfig" [orphanPolicyField.slot, lockStripesField.slot]
  return {
    orphanPolicy := ← orphanPolicyField.get r
    lockStripes := ← lockStripesField.get r }

/-- Write the settings of a cache. -/
def toJson (config : CacheConfig) : Json :=
  .ofMembers [
    ("orphanPolicy", .str config.orphanPolicy.name),
    ("lockStripes", .ofNat config.lockStripes)]

end CacheConfig

/-! ### Variables -/

/-- Why a variable does not give a setting. -/
inductive ConfigError where
  | milliseconds (var raw : String)
  | count (var raw : String)
  /-- A policy is unknown; the variable is absent when the text comes from elsewhere. -/
  | policy (var? : Option String) (e : PolicyNameError)
deriving DecidableEq, Repr

/-- The wording of a configuration error. -/
def ConfigError.message : ConfigError → String
  | milliseconds var raw =>
    var ++ ": expected a positive number of milliseconds, got " ++ Text.quoted raw
  | count var raw => var ++ ": expected a positive count, got " ++ Text.quoted raw
  | policy (some var) e => var ++ ": " ++ e.message
  | policy none e => e.message

/-- The number that digits denote, when it takes at most 64 bits. One plus sign may precede them. -/
def parseCount? (text : String) : Option Nat :=
  let digits := match text.toList with
    | '+' :: rest => rest
    | cs => cs
  if digits.isEmpty || !digits.all Char.isDigit then none
  else
    let n := digits.foldl (fun n d => 10 * n + (d.toNat - '0'.toNat)) 0
    if n < Nat.pow 2 64 then some n else none

/-- The positive number that a text denotes between blanks. -/
def positiveCount? (raw : String) : Option Nat :=
  (parseCount? (Text.trim raw)).filter (0 < ·)

namespace ClientConfig

/-- The variable of the time limit. -/
def timeoutVariable : String := "WARDEN_QUERY_TIMEOUT_MS"

/-- The variable of the compile policy. -/
def compilePolicyVariable : String := "WARDEN_COMPILE_POLICY"

/-- The variable of the orphan policy. -/
def orphanPolicyVariable : String := "WARDEN_ORPHAN_POLICY"

/-- The variable of the number of evaluations. -/
def maxEvaluationsVariable : String := "WARDEN_MAX_EVALUATIONS"

/-- The setting that a variable gives, or its default when the variable is not set. -/
def fromVariable (lookup : String → Option String) (var : String) (default : α)
    (read : String → Except ConfigError α) : Except ConfigError α :=
  match lookup var with
  | none => .ok default
  | some raw => read raw

/-- The settings that variables give. The first variable that gives none decides the error. -/
def ofVariables (lookup : String → Option String) : Except ConfigError ClientConfig := do
  let timeout ← fromVariable lookup timeoutVariable 5000 fun raw =>
    match positiveCount? raw with
    | some n => .ok n
    | none => .error (.milliseconds timeoutVariable raw)
  let compilePolicy ← fromVariable lookup compilePolicyVariable .bestEffort fun raw =>
    (CompilePolicy.ofString (Text.trim raw)).mapError (.policy (some compilePolicyVariable))
  let orphanPolicy ← fromVariable lookup orphanPolicyVariable .cascade fun raw =>
    (OrphanPolicy.ofString (Text.trim raw)).mapError (.policy (some orphanPolicyVariable))
  let maxEvaluations ← fromVariable lookup maxEvaluationsVariable defaultMaxEvaluations fun raw =>
    match positiveCount? raw with
    | some n => .ok n
    | none => .error (.count maxEvaluationsVariable raw)
  return { queryTimeoutMs := timeout, compilePolicy, orphanPolicy, maxEvaluations }

end ClientConfig

/-! ### Times -/

/-- How messages show a number of milliseconds: in seconds from one second on, without trailing
zeros, and no time at all in nanoseconds. -/
def showDuration (ms : Nat) : String :=
  if ms == 0 then "0ns"
  else if ms < 1000 then toString ms ++ "ms"
  else
    let fraction := (toString (1000 + ms % 1000)).toList.drop 1
    let digits := (fraction.reverse.dropWhile (· == '0')).reverse
    toString (ms / 1000) ++ (if digits.isEmpty then "" else "." ++ String.ofList digits) ++ "s"

end PolicyEngine
