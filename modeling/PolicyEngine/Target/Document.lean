import PolicyEngine.Json.Pointer
import PolicyEngine.Target.Basic

/-!
# Documents

A target for JSON objects of any form. A match specification restricts the `kind` of an object to
some texts, and the values at some places of it to given ones.

## Main definitions

* `PolicyEngine.Document.satisfies` — whether a match specification covers an object.
* `PolicyEngine.Document.target` — the target of a given name.
-/

namespace PolicyEngine.Document

/-- The schema of match specifications. -/
def matchSchema : Schema :=
  .record [("kinds", .arrayOf .string), ("fields", .mapOf .anything)]

/-- Whether the object is of one of the kinds that a specification lists, if it lists any. -/
def kindsMatch (spec review : Json) : Bool :=
  match spec.strings? "kinds" with
  | none => true
  | some [] => true
  | some kinds => ((review.get? "kind").bind Json.text?).any kinds.contains

/-- Whether the object has at each place of `fields` the value given there. -/
def fieldsMatch (spec review : Json) : Bool :=
  match spec.get? "fields" with
  | some (.obj fields) =>
    fields.all fun (place, expected) => (review.at? place).any (· == expected)
  | _ => true

/-- Whether a match specification covers an object. -/
def satisfies (spec review : Json) : Bool := kindsMatch spec review && fieldsMatch spec review

/-- Objects are kept by kind and name. -/
def dataEntry? (v : Json) : Option DataEntry := do
  let kind ← (v.get? "kind").bind Json.text?
  let name ← (v.get? "name").bind Json.text?
  return { path := [kind, name], value := v }

/-- The target of JSON objects under a given name. -/
def target (name : TargetName) : Target where
  name := name
  matchSchema := matchSchema
  shape? v := if v.isObject then some v else none
  covers spec review := spec.all fun spec => satisfies spec review
  dataEntry? := dataEntry?

end PolicyEngine.Document
