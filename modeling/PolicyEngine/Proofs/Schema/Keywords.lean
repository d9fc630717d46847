import PolicyEngine.Proofs.SortedMap
import PolicyEngine.Schema.Document

/-!
# The keywords of a document

The document of a schema tree is an object whose keywords say what its root node says: keywords that
every node can have, and those of its kind. No keyword is written twice, so each is found in the
document with the value that was written for it.

## Main definitions

* `PolicyEngine.Schema.keywords` — the keywords of the document of a tree.

## Main results

* `PolicyEngine.Schema.toJson_eq` — the document of a tree has its keywords as members.
* `PolicyEngine.Schema.get?_type`, `PolicyEngine.Schema.get?_description`,
  `PolicyEngine.Schema.get?_nullable`, `PolicyEngine.Schema.get?_enum`,
  `PolicyEngine.Schema.get?_preserve` — the values of keywords.
* `PolicyEngine.Schema.get?_properties`, `PolicyEngine.Schema.get?_required`,
  `PolicyEngine.Schema.get?_additionalProperties` — the values of keywords of object nodes.
-/

namespace PolicyEngine.Schema

/-! ### What is written -/

/-- A keyword that is written if it has a value. -/
def written (key : String) (value : Option Json) : List (String × Json) :=
  value.toList.map (key, ·)

theorem keys_written (key : String) (value : Option Json) :
    ((written key value).map Prod.fst).Sublist [key] := by
  cases value with
  | none => exact List.nil_sublist _
  | some v => exact List.Sublist.refl _

theorem get?_written (name key : String) (value : Option Json) :
    Assoc.get? name (written key value) = if name = key then value else none := by
  cases value with
  | none => exact (ite_self _).symm
  | some v => rfl

theorem commonKeywords_eq (s : Schema) : commonKeywords s =
    written "type" ((if s.notes.explicitType then typeName? s else none).map .str) ++
      written "description" (s.notes.description.map .str) ++
      written "nullable" ((if s.notes.nullable then some true else none).map .bool) ++
      written "enum" (s.notes.allowed.map .arr) := by
  rw [commonKeywords]
  cases s.notes.explicitType <;> cases s.notes.nullable <;>
    simp [written, Option.toList_map, Function.comp_def]

/-- The keywords of a node that are not common to all nodes. -/
def ownKeywords : Schema → List (String × Json)
  | .object _ properties required unknown =>
    written "properties" (if properties.isEmpty then none
      else some (.obj (propertiesToJson properties))) ++
    written "required" ((if required.isEmpty then none
      else some (required.map Json.str)).map .arr) ++
    unknownToJson unknown
  | .array _ items => itemsToJson items
  | .scalar .. => []
  | .any _ => [(preserveKeyword, .bool true)]

/-- The keywords of the document of a tree. -/
def keywords (s : Schema) : List (String × Json) :=
  Assoc.ofList (commonKeywords s ++ ownKeywords s)

theorem toJson_eq (s : Schema) : s.toJson = .obj (keywords s) := by
  rw [keywords]
  cases s with
  | object notes properties required unknown =>
    rw [toJson, ownKeywords, ← List.append_assoc, ← List.append_assoc]
    cases properties.isEmpty <;> cases required.isEmpty <;> rfl
  | array notes items => rfl
  | scalar notes type =>
    rw [ownKeywords, List.append_nil]
    rfl
  | any notes => rfl

/-! ### Which keywords there are -/

theorem keys_commonKeywords (s : Schema) :
    ((commonKeywords s).map Prod.fst).Sublist ["type", "description", "nullable", "enum"] := by
  rw [commonKeywords_eq, List.map_append, List.map_append, List.map_append]
  exact (((keys_written _ _).append (keys_written _ _)).append (keys_written _ _)).append
    (keys_written _ _)

theorem keys_ownKeywords (s : Schema) :
    ((ownKeywords s).map Prod.fst).Sublist
      ["properties", "required", preserveKeyword, "additionalProperties", "items"] := by
  cases s with
  | object notes properties required unknown =>
    have hunknown : ((unknownToJson unknown).map Prod.fst).Sublist
        [preserveKeyword, "additionalProperties", "items"] := by
      cases unknown <;> simp [unknownToJson]
    rw [ownKeywords, List.map_append, List.map_append]
    exact ((keys_written _ _).append (keys_written _ _)).append hunknown
  | array notes items => cases items <;> simp [ownKeywords, itemsToJson]
  | scalar notes type => exact List.nil_sublist _
  | any notes => simp [ownKeywords]

/-! ### Values of keywords -/

theorem get?_keywords (s : Schema) (name : String) : Assoc.get? name (keywords s) =
    (Assoc.get? name (commonKeywords s)).or (Assoc.get? name (ownKeywords s)) := by
  have hkeys := (keys_commonKeywords s).append (keys_ownKeywords s)
  rw [← List.map_append] at hkeys
  rw [keywords, Assoc.get?_ofList (List.Nodup.sublist hkeys (by decide)), Assoc.get?_append]

/-- A keyword that only some nodes have is found among these. -/
theorem get?_keywords_own (s : Schema) (name : String)
    (h : name ∉ ["type", "description", "nullable", "enum"]) :
    Assoc.get? name (keywords s) = Assoc.get? name (ownKeywords s) := by
  have hnone : Assoc.get? name (commonKeywords s) = none :=
    Assoc.get?_eq_none_iff_notMem.2 fun hmem => h ((keys_commonKeywords s).subset hmem)
  rw [get?_keywords, hnone, Option.none_or]

/-- A keyword that all nodes have is found among these. -/
theorem get?_keywords_common (s : Schema) (name : String)
    (h : name ∉ ["properties", "required", preserveKeyword, "additionalProperties", "items"]) :
    Assoc.get? name (keywords s) =
      (((if name = "type" then (if s.notes.explicitType then typeName? s else none).map Json.str
        else none).or
      (if name = "description" then s.notes.description.map Json.str else none)).or
      (if name = "nullable" then (if s.notes.nullable then some true else none).map Json.bool
        else none)).or
      (if name = "enum" then s.notes.allowed.map Json.arr else none) := by
  have hnone : Assoc.get? name (ownKeywords s) = none :=
    Assoc.get?_eq_none_iff_notMem.2 fun hmem => h ((keys_ownKeywords s).subset hmem)
  rw [get?_keywords, hnone, Option.or_none, commonKeywords_eq, Assoc.get?_append,
    Assoc.get?_append, Assoc.get?_append, get?_written, get?_written, get?_written, get?_written]

theorem get?_type (s : Schema) : Assoc.get? "type" (keywords s) =
    (if s.notes.explicitType then typeName? s else none).map .str := by
  simp [get?_keywords_common s "type" (by decide)]

theorem get?_description (s : Schema) :
    Assoc.get? "description" (keywords s) = s.notes.description.map .str := by
  simp [get?_keywords_common s "description" (by decide)]

theorem get?_nullable (s : Schema) : Assoc.get? "nullable" (keywords s) =
    (if s.notes.nullable then some true else none).map .bool := by
  simp [get?_keywords_common s "nullable" (by decide)]

theorem get?_enum (s : Schema) :
    Assoc.get? "enum" (keywords s) = s.notes.allowed.map .arr := by
  simp [get?_keywords_common s "enum" (by decide)]

/-! ### Object nodes -/

section Objects

variable {notes : Annotations} {properties : List (String × Schema)} {required : List String}
  {unknown : UnknownFields Schema}

/-- A keyword that only object nodes have is found among these. -/
theorem get?_keywords_object (name : String)
    (h : name ∉ ["type", "description", "nullable", "enum"]) :
    Assoc.get? name (keywords (.object notes properties required unknown)) =
      ((if name = "properties" then
        if properties.isEmpty then none else some (.obj (propertiesToJson properties))
        else none).or
      (if name = "required" then
        (if required.isEmpty then none else some (required.map Json.str)).map .arr
        else none)).or
      (Assoc.get? name (unknownToJson unknown)) := by
  rw [get?_keywords_own _ name h, ownKeywords, Assoc.get?_append, Assoc.get?_append, get?_written,
    get?_written]

theorem get?_properties :
    Assoc.get? "properties" (keywords (.object notes properties required unknown)) =
      if properties.isEmpty then none else some (.obj (propertiesToJson properties)) := by
  rw [get?_keywords_object "properties" (by decide)]
  cases unknown <;> simp [unknownToJson, Assoc.get?_cons, preserveKeyword]

theorem get?_required :
    Assoc.get? "required" (keywords (.object notes properties required unknown)) =
      (if required.isEmpty then none else some (required.map Json.str)).map .arr := by
  rw [get?_keywords_object "required" (by decide)]
  cases unknown <;> simp [unknownToJson, Assoc.get?_cons, preserveKeyword]

theorem get?_additionalProperties :
    Assoc.get? "additionalProperties" (keywords (.object notes properties required unknown)) =
      match unknown with
      | .validate values => some (.obj (keywords values))
      | _ => none := by
  rw [get?_keywords_object "additionalProperties" (by decide)]
  cases unknown <;> simp [unknownToJson, Assoc.get?_cons, preserveKeyword, toJson_eq]

end Objects

/-- What a node says of leaving undeclared members alone. -/
def preserves : Schema → Option Bool
  | .object _ _ _ .preserve => some true
  | .any _ => some true
  | _ => none

theorem get?_preserve (s : Schema) :
    Assoc.get? preserveKeyword (keywords s) = s.preserves.map .bool := by
  cases s with
  | object notes properties required unknown =>
    rw [get?_keywords_object preserveKeyword (by decide)]
    cases unknown <;> rfl
  | array notes items =>
    rw [get?_keywords_own _ preserveKeyword (by decide)]
    cases items <;> rfl
  | scalar notes type => exact get?_keywords_own _ preserveKeyword (by decide)
  | any notes => exact get?_keywords_own _ preserveKeyword (by decide)

end PolicyEngine.Schema
