import PolicyEngine.Target.Basic

/-!
# Admission requests

The target of requests to create, change or delete the objects of a cluster. A request names the
kind of its object, its name and namespace, and carries the object itself, or under `oldObject` the
object that is to be deleted. A bare object is reviewed as well, wrapped into a request without an
operation.

A match specification lists criteria, all of which have to hold: `kinds`, `namespaces`,
`excludedNamespaces`, `labelSelector`, `scope` and `name`. The namespace criteria do not apply to
objects without a namespace; a namespace object counts as one in the namespace of its own name.

## Main definitions

* `PolicyEngine.Admission.Request` — what the criteria look at.
* `PolicyEngine.Admission.Request.satisfies` — whether a match specification covers a request.
* `PolicyEngine.Admission.target`.
-/

namespace PolicyEngine.Admission

/-! ### Requests -/

/-- Whether a value is a request and not a bare object: its kind is spelled out in parts. -/
def isRequest (v : Json) : Bool :=
  (((v.get? "kind").bind (·.get? "kind")).bind Json.text?).isSome

/-- The text of a member, or the empty text. -/
def textOf (key : String) (v : Json) : String :=
  ((v.get? key).bind Json.text?).getD ""

/-- A text cut at its first slash; without a slash there is nothing before it. -/
def splitGroup (apiVersion : String) : String × String :=
  let cs := apiVersion.toList
  if cs.contains '/' then
    (String.ofList (cs.takeWhile (· != '/')), String.ofList ((cs.dropWhile (· != '/')).drop 1))
  else ("", apiVersion)

/-- A bare object as a request without an operation. -/
def wrap? (v : Json) : Option Json := do
  let apiVersion ← (v.get? "apiVersion").bind Json.text?
  let kind ← (v.get? "kind").bind Json.text?
  let metadata ← (v.get? "metadata").filter Json.isObject
  let (group, version) := splitGroup apiVersion
  return .ofMembers <| [
    ("kind", .ofMembers [("group", .str group), ("version", .str version), ("kind", .str kind)]),
    ("operation", .str ""),
    ("object", v)] ++
    (metadata.get? "name").toList.map (fun name => ("name", name)) ++
    (metadata.get? "namespace").toList.map (fun ns => ("namespace", ns))

/-- The form in which rules see a request or a bare object. -/
def shape? (v : Json) : Option Json :=
  if isRequest v then some v else wrap? v

/-- The parts of a request that criteria look at. -/
structure Request where
  group : String
  kind : String
  name : String
  ns : String
  object : Option Json

/-- The object that a request carries; that of a deletion stands under `oldObject`. -/
def carriedObject (review : Json) : Option Json :=
  match (review.get? "object").filter fun v => !v.isNull with
  | some v => some v
  | none => (review.get? "oldObject").filter fun v => !v.isNull

/-- A text of the request itself, or where that is empty the text in the metadata of its object. -/
def ownOrMetadata (review : Json) (key : String) : String :=
  match textOf key review with
  | "" => (((carriedObject review).bind (·.get? "metadata")).map (textOf key)).getD ""
  | own => own

namespace Request

/-- The parts of a shaped request. -/
def ofReview (review : Json) : Request where
  group := ((review.get? "kind").map (textOf "group")).getD ""
  kind := ((review.get? "kind").map (textOf "kind")).getD ""
  name := ownOrMetadata review "name"
  ns := ownOrMetadata review "namespace"
  object := carriedObject review

/-- Whether the object is itself a namespace. -/
def isNamespace (r : Request) : Bool := r.group == "" && r.kind == "Namespace"

/-- The namespace that namespace criteria look at. -/
def effectiveNamespace? (r : Request) : Option String :=
  if r.isNamespace then some r.name
  else if r.ns == "" then none
  else some r.ns

/-- The text of a label of the object. -/
def label? (r : Request) (key : String) : Option String :=
  (((r.object.bind (·.get? "metadata")).bind (·.get? "labels")).bind (·.get? key)).bind Json.text?

/-! ### Criteria -/

/-- Whether some entry of `kinds` names the group and the kind, by name or by an asterisk. -/
def kindsMatch (spec : Json) (r : Request) : Bool :=
  match (spec.get? "kinds").bind Json.elements? with
  | none => true
  | some [] => true
  | some entries => entries.any fun entry =>
    ((entry.strings? "apiGroups").getD []).any (fun g => g == "*" || g == r.group) &&
      ((entry.strings? "kinds").getD []).any (fun k => k == "*" || k == r.kind)

/-- Whether the request has a namespace, or none, as `scope` demands. -/
def scopeMatches (spec : Json) (r : Request) : Bool :=
  match (spec.get? "scope").bind Json.text? with
  | some "Cluster" => r.ns == ""
  | some "Namespaced" => r.ns != ""
  | _ => true

/-- Whether the namespace is one of those included and none of those excluded. -/
def namespacesMatch (spec : Json) (r : Request) : Bool :=
  match r.effectiveNamespace? with
  | none => true
  | some ns =>
    let included := (spec.strings? "namespaces").getD []
    let excluded := (spec.strings? "excludedNamespaces").getD []
    (included.isEmpty || included.any (Target.matchesGlob · ns)) &&
      !excluded.any (Target.matchesGlob · ns)

/-- Whether the name is covered by the pattern of `name`. -/
def nameMatches (spec : Json) (r : Request) : Bool :=
  match (spec.get? "name").bind Json.text? with
  | some pattern => Target.matchesGlob pattern r.name
  | none => true

/-- Whether the labels are as an expression of a selector demands. -/
def expressionHolds (r : Request) (expression : Json) : Bool :=
  let values := (expression.strings? "values").getD []
  let actual := r.label? (textOf "key" expression)
  match (expression.get? "operator").bind Json.text? with
  | some "In" => actual.any values.contains
  | some "NotIn" => !actual.any values.contains
  | some "Exists" => actual.isSome
  | some "DoesNotExist" => actual.isNone
  | _ => false

/-- The members of an object. -/
def members (v : Json) : List (String × Json) :=
  match v with
  | .obj members => members
  | _ => []

/-- Whether the labels are as a selector demands. -/
def labelsMatch (spec : Json) (r : Request) : Bool :=
  match spec.get? "labelSelector" with
  | none => true
  | some selector =>
    (((selector.get? "matchLabels").map members).getD []).all
        (fun (key, value) => r.label? key == value.text?) &&
      (((selector.get? "matchExpressions").bind Json.elements?).getD []).all r.expressionHolds

/-- Whether all criteria of a match specification hold. -/
def satisfies (r : Request) (spec : Json) : Bool :=
  kindsMatch spec r && scopeMatches spec r && namespacesMatch spec r && nameMatches spec r &&
    labelsMatch spec r

end Request

/-! ### The target -/

/-- An array of strings. -/
def stringsSchema : Schema := .arrayOf .string

/-- The schema of match specifications. -/
def matchSchema : Schema :=
  .record [
    ("kinds", .arrayOf (.record [("apiGroups", stringsSchema), ("kinds", stringsSchema)])),
    ("namespaces", stringsSchema),
    ("excludedNamespaces", stringsSchema),
    ("labelSelector", .record [
      ("matchLabels", .mapOf .string),
      ("matchExpressions", .arrayOf <| .withRequired ["key", "operator"] <| .record [
        ("key", .string),
        ("operator", .withAllowed
          [.str "In", .str "NotIn", .str "Exists", .str "DoesNotExist"] .string),
        ("values", stringsSchema)])]),
    ("scope", .withAllowed [.str "*", .str "Cluster", .str "Namespaced"] .string),
    ("name", .string)]

/-- Objects are kept by namespace, or as objects of the cluster, and then by version, kind
and name. -/
def dataEntry? (v : Json) : Option DataEntry := do
  let apiVersion ← (v.get? "apiVersion").bind Json.text?
  let kind ← (v.get? "kind").bind Json.text?
  let metadata ← v.get? "metadata"
  let name ← (metadata.get? "name").bind Json.text?
  let scope := match textOf "namespace" metadata with
    | "" => ["cluster"]
    | ns => ["namespace", ns]
  return { path := scope ++ [apiVersion, kind, name], value := v }

/-- The name of the target. -/
def name : TargetName := ⟨"admission.k8s.warden.dev", by decide +kernel⟩

/-- The target of admission requests. -/
def target : Target where
  name := name
  matchSchema := matchSchema
  shape? := shape?
  covers spec review := spec.all (Request.ofReview review).satisfies
  dataEntry? := dataEntry?

end PolicyEngine.Admission
