import PolicyEngine.Proofs.Schema.Malformed
import PolicyEngine.Proofs.Schema.Places
import PolicyEngine.Template.ConstraintSchema

/-!
# Where reported faults are

What is wrong with a value, with a schema document or with a constraint is reported with a path.
The text of a path is a pointer by the grammar, and it leads to what is wrong. For a constraint it
does so in every object that shows the parameters and the match specification under their names, as
the document of the constraint does.

## Main definitions

* `PolicyEngine.Constraint.ShownIn` — the objects that show what of a constraint is checked.
* `PolicyEngine.Detail.IsAbout` — what the faults of a constraint are about.
* `PolicyEngine.Json.IsReached` — the part of a value to which the text of a pointer leads.

## Main results

* `PolicyEngine.Constraint.shownIn_toJson` — the document of a constraint shows what is checked.
* `PolicyEngine.ConstraintSchema.exists_isAbout` — the path of a constraint's fault leads to what it
  is about.
* `PolicyEngine.isReached_of_reported` — the texts of all reported paths lead to what is wrong.
-/

namespace PolicyEngine

/-! ### Checked parts of constraints -/

namespace Constraint

/-- An object that shows what of a constraint is checked, which are its parameters, unless they are
null, and its match specification, if it has one. -/
structure ShownIn (document : Json) (c : Constraint) : Prop where
  parameters : c.parameters.isNull = false → document.get? "parameters" = some c.parameters
  matchSpec : ∀ spec, c.matchSpec = some spec → document.get? "match" = some spec

/-- What of a constraint is checked lists the members of its objects in order. -/
structure Canonical (c : Constraint) : Prop where
  parameters : c.parameters.Canonical
  matchSpec : ∀ spec, c.matchSpec = some spec → spec.Canonical

/-- The document of a constraint shows what is checked. -/
theorem shownIn_toJson (c : Constraint) : c.ShownIn c.toJson := by
  refine ⟨fun hnull => ?_, fun spec hspec => ?_⟩
  · rw [toJson, hnull, if_neg Bool.false_ne_true, Json.ofMembers, Json.get?, Assoc.get?_ofList]
    · cases c.matchSpec <;> rfl
    · cases c.matchSpec <;> simp
  · rw [toJson, hspec, Json.ofMembers, Json.get?, Assoc.get?_ofList]
    · cases c.parameters.isNull <;> rfl
    · cases c.parameters.isNull <;> simp

end Constraint

/-! ### Faults of constraints -/

/-- What the faults of a constraint are about: parts of its parameters, or parts of its match
specification at which a registered target finds fault. -/
inductive Detail.IsAbout (s : ConstraintSchema) (c : Constraint) : Detail → Json → Prop where
  | parameter {x : Schema.Violation} {part : Json} (h : x.IsAbout s.parameters c.parameters part) :
      IsAbout s c ⟨"parameters" :: x.path, .violation x.fault⟩ part
  | matchSpec {target : TargetName} {schema : Schema} {spec : Json} {x : Schema.Violation}
      {part : Json} (htarget : s.matchSchemas.get? target = some schema)
      (hspec : c.matchSpec = some spec) (h : x.IsAbout schema spec part) :
      IsAbout s c ⟨"match" :: x.path, .matchViolation x.fault target⟩ part

namespace ConstraintSchema

variable {s : ConstraintSchema} {c : Constraint} {document : Json}

theorem exists_violation_of_mem_parameterDetails {x : Detail} (h : x ∈ s.parameterDetails c) :
    c.parameters.isNull = false ∧ ∃ y ∈ s.parameters.violations c.parameters,
      x = ⟨"parameters" :: y.path, .violation y.fault⟩ := by
  rw [parameterDetails] at h
  split at h
  · cases h
  · rename_i hnull
    obtain ⟨y, hy, rfl⟩ := List.mem_map.1 h
    exact ⟨Bool.eq_false_iff.2 hnull, y, hy, rfl⟩

theorem exists_violation_of_mem_matchDetails {x : Detail} (h : x ∈ s.matchDetails c) :
    ∃ spec target schema, c.matchSpec = some spec ∧ s.matchSchemas.get? target = some schema ∧
      ∃ y ∈ schema.violations spec, x = ⟨"match" :: y.path, .matchViolation y.fault target⟩ := by
  rw [matchDetails] at h
  split at h
  · cases h
  · rename_i spec hspec
    split at h
    · cases h
    · obtain ⟨⟨target, schema⟩, hentry, hx⟩ := List.mem_flatMap.1 h
      obtain ⟨y, hy, rfl⟩ := List.mem_map.1 hx
      exact ⟨spec, target, schema, hspec, SortedMap.mem_entries_iff.1 hentry, y, hy, rfl⟩

/-- The path of a constraint's fault leads to what the fault is about. -/
theorem exists_isAbout (hc : c.Canonical) (hdocument : c.ShownIn document) {x : Detail}
    (h : x ∈ s.details c) :
    ∃ part, x.IsAbout s c part ∧ x.path.resolve? document = some part := by
  have hstep : ∀ {name : String} {member : Json}, document.get? name = some member →
      Pointer.step? name document = some member := by
    intro name member hmember
    cases document with
    | obj members => exact hmember
    | null | bool | num | str | arr => cases hmember
  rcases List.mem_append.1 h with hparameter | hmatch
  · obtain ⟨hnull, y, hy, rfl⟩ := exists_violation_of_mem_parameterDetails hparameter
    obtain ⟨part, hpart, hpath⟩ := Schema.exists_isAbout hc.parameters hy
    refine ⟨part, .parameter hpart, ?_⟩
    rw [Pointer.resolve?, hstep (hdocument.parameters hnull)]
    exact hpath
  · obtain ⟨spec, target, schema, hspec, htarget, y, hy, rfl⟩ :=
      exists_violation_of_mem_matchDetails hmatch
    obtain ⟨part, hpart, hpath⟩ := Schema.exists_isAbout (hc.matchSpec spec hspec) hy
    refine ⟨part, .matchSpec htarget hspec hpart, ?_⟩
    rw [Pointer.resolve?, hstep (hdocument.matchSpec spec hspec)]
    exact hpath

/-- A constraint is refused with its faults, of which there is one at least. -/
theorem validate_eq_error_iff {e : PolicyError} :
    s.validate c = .error e ↔
      s.details c ≠ [] ∧ e = .schemaValidation c.key.text (s.details c) := by
  rw [validate]
  cases s.details c with
  | nil => simp
  | cons x rest => simp [eq_comm]

end ConstraintSchema

/-! ### Texts of paths -/

/-- A text is a pointer by the grammar, and leads from a value to a part of it. -/
structure Json.IsReached (v : Json) (text : String) (part : Json) : Prop where
  exists_denotes : ∃ p : Pointer, Pointer.Denotes text.toList p ∧ p.resolve? v = some part
  at?_eq : v.at? text = some part

theorem Json.isReached_render {v part : Json} {p : Pointer} (h : p.resolve? v = some part) :
    v.IsReached p.render part :=
  ⟨⟨p, Pointer.denotes_iff.2 rfl, h⟩, (v.at?_render p).trans h⟩

/-- **Reported paths lead to what is wrong.** The text of every reported path is a pointer by the
grammar. It leads to what the fault is about: in a value from the fault of the value, in a document
from its refusal, and from each fault of a constraint in the objects that show the constraint's
parameters and match specification. -/
theorem isReached_of_reported :
    (∀ (s : Schema) (v : Json), v.Canonical → ∀ x ∈ s.violations v,
      ∃ part, x.IsAbout s v part ∧ v.IsReached x.path.render part) ∧
    (∀ document : Json, document.Canonical → ∀ m, Schema.ofJson document = .error m →
      ∃ part, m.reason.IsAbout part ∧ document.IsReached m.path.render part) ∧
    (∀ (s : ConstraintSchema) (c : Constraint), c.Canonical → ∀ e, s.validate c = .error e →
      ∃ details, details ≠ [] ∧ e = .schemaValidation c.key.text details ∧ ∀ x ∈ details,
        ∀ document, c.ShownIn document →
          ∃ part, x.IsAbout s c part ∧ document.IsReached x.path.render part) := by
  refine ⟨fun s v hv x hx => ?_, fun document hdocument m hm => ?_, fun s c hc e he => ?_⟩
  · obtain ⟨part, hpart, hpath⟩ := Schema.exists_isAbout hv hx
    exact ⟨part, hpart, Json.isReached_render hpath⟩
  · obtain ⟨route, part, hroute, hpath, hpart⟩ := Schema.locates_ofJson hdocument m hm
    obtain rfl : m.path = route := hroute
    exact ⟨part, hpart, Json.isReached_render hpath⟩
  · obtain ⟨hfaults, rfl⟩ := ConstraintSchema.validate_eq_error_iff.1 he
    refine ⟨_, hfaults, rfl, fun x hx document hdocument => ?_⟩
    obtain ⟨part, hpart, hpath⟩ := ConstraintSchema.exists_isAbout hc hdocument hx
    exact ⟨part, hpart, Json.isReached_render hpath⟩

/-- Rooms with names that a path cannot show as they are. -/
def oddRooms : Json := .obj [("", .null), ("~1/", .arr [.bool true, .null])]

/-- Each room is a list of truth values, and the one without a name is not declared. -/
def oddSchema : Schema := .object {} [("~1/", .arrayOf .boolean)] [] .unset

/-- The document of such rooms, one of which has a type that is none. -/
def oddDocument : Json :=
  .obj [("properties", .obj [("~1/", .obj [("type", .str "shape")])])]

/-- A constraint that has the rooms as its parameters. -/
def oddConstraint : Constraint where
  kind := ⟨"Rooms", by decide +kernel⟩
  name := ⟨"odd", by decide +kernel⟩
  parameters := oddRooms

theorem canonical_oddRooms : oddRooms.Canonical :=
  ⟨.cons (List.forall_mem_singleton.2 (by decide +kernel)) (List.pairwise_singleton _ _),
    trivial, ⟨trivial, trivial, trivial⟩, trivial⟩

theorem canonical_oddDocument : oddDocument.Canonical :=
  ⟨List.pairwise_singleton _ _, ⟨List.pairwise_singleton _ _,
    ⟨List.pairwise_singleton _ _, trivial, trivial⟩, trivial⟩, trivial⟩

theorem isReached_of_reported_oddRooms :
    (∃ part, oddRooms.IsReached "/~01~1/1" part) ∧
      (∃ part, oddDocument.IsReached "/properties/~01~1/type" part) ∧
      ∃ part, oddConstraint.toJson.IsReached "/parameters/" part := by
  obtain ⟨hvalues, hdocuments, hconstraints⟩ := isReached_of_reported
  refine ⟨?_, ?_, ?_⟩
  · have hfault : (⟨["~1/", "1"], .null⟩ : Schema.Violation) ∈ oddSchema.violations oddRooms :=
      .tail _ (.head _)
    obtain ⟨part, -, hpart⟩ := hvalues oddSchema oddRooms canonical_oddRooms _ hfault
    exact ⟨part, hpart⟩
  · obtain ⟨part, -, hpart⟩ := hdocuments oddDocument canonical_oddDocument
      ⟨["properties", "~1/", "type"], .unknownType "shape"⟩ rfl
    exact ⟨part, hpart⟩
  · obtain ⟨details, -, hdetails, hall⟩ := hconstraints ⟨oddConstraint.kind, oddSchema, .empty⟩
      oddConstraint ⟨canonical_oddRooms, fun _ h => nomatch h⟩ _ rfl
    obtain rfl := (PolicyError.schemaValidation.inj hdetails).2
    obtain ⟨part, -, hpart⟩ := hall ⟨["parameters", ""], .violation .unknownField⟩ (.head _) _
      oddConstraint.shownIn_toJson
    exact ⟨part, hpart⟩

end PolicyEngine
