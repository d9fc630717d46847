import PolicyEngine.Proofs.Schema.Keywords
import PolicyEngine.Proofs.Schema.Legible
import PolicyEngine.Proofs.Schema.Reading

/-!
# Rendering a schema and reading it back

A resolved tree is published as a document. Reading the document gives a tree again, in which a
refusal of undeclared members is left unsaid until it is resolved. There is one more difference. An
object node that does not state its type is known by its properties, or by a schema for undeclared
members. If it has neither its document says nothing of an object, and it is read back as a node
without restriction. These hollow nodes are all that is lost: a tree without them comes back as it
was.

## Main definitions

* `PolicyEngine.Schema.isHollow` — object nodes whose documents do not show that they are.
* `PolicyEngine.Schema.reread` — the tree that the document of a tree describes.
* `PolicyEngine.Schema.solid` — trees without hollow nodes.

## Main results

* `PolicyEngine.Schema.readNode_keywords_eq` — what the document of a tree is read as.
* `PolicyEngine.Schema.resolve_reread_eq_iff` — when nothing is lost.
* `PolicyEngine.Schema.ofJson_toJson_resolve` — rendering a tree that was read, and reading it back.
-/

namespace PolicyEngine.Schema

/-! ### Trees that are read back -/

/-- Whether an object node gives no sign in its document that it is one: its type is not stated, and
it has neither properties nor a schema for undeclared members. -/
def isHollow (notes : Annotations) (properties : List (String × Schema)) :
    UnknownFields Schema → Bool
  | .validate _ => false
  | _ => !notes.explicitType && properties.isEmpty

mutual

/-- The tree that the document of a tree describes. Hollow nodes have no restriction in it, and no
node refuses undeclared members yet. -/
def reread : Schema → Schema
  | .object notes properties required unknown =>
    if isHollow notes properties unknown then .any notes
    else .object notes (rereadProperties properties) required (rereadUnknown unknown)
  | .array notes items => .array notes (rereadItems items)
  | .scalar notes type => .scalar notes type
  | .any notes => .any notes

/-- What the documents of properties describe. -/
def rereadProperties : List (String × Schema) → List (String × Schema)
  | [] => []
  | (name, s) :: rest => (name, reread s) :: rereadProperties rest

/-- What the keyword for undeclared members describes. -/
def rereadUnknown : UnknownFields Schema → UnknownFields Schema
  | .unset => .unset
  | .reject => .unset
  | .preserve => .preserve
  | .validate s => .validate (reread s)

/-- What the keyword for array elements describes. -/
def rereadItems : Option Schema → Option Schema
  | none => none
  | some s => some (reread s)

end

mutual

/-- Whether no node of a tree is hollow. -/
def solid : Schema → Bool
  | .object notes properties _ unknown =>
    !isHollow notes properties unknown && solidProperties properties && solidUnknown unknown
  | .array _ items => solidItems items
  | .scalar .. => true
  | .any _ => true

/-- Whether no node of a property is hollow. -/
def solidProperties : List (String × Schema) → Bool
  | [] => true
  | (_, s) :: rest => solid s && solidProperties rest

/-- Whether no node of the schema of undeclared members is hollow. -/
def solidUnknown : UnknownFields Schema → Bool
  | .validate s => solid s
  | _ => true

/-- Whether no node of the schema of elements is hollow. -/
def solidItems : Option Schema → Bool
  | none => true
  | some s => solid s

end

/-! ### Hollow nodes -/

theorem isHollow_resolve (legacy : Bool) (notes : Annotations)
    (properties : List (String × Schema)) (unknown : UnknownFields Schema) :
    isHollow notes (resolveProperties legacy properties) (resolveUnknown legacy unknown) =
      isHollow notes properties unknown := by
  have hproperties : (resolveProperties legacy properties).isEmpty = properties.isEmpty := by
    cases properties <;> rfl
  cases unknown with
  | unset => cases legacy <;> exact congrArg (!notes.explicitType && ·) hproperties
  | reject => exact congrArg (!notes.explicitType && ·) hproperties
  | preserve => exact congrArg (!notes.explicitType && ·) hproperties
  | validate values => rfl

mutual

/-- Resolving a tree makes no node hollow, and fills none. -/
theorem solid_resolve (legacy : Bool) : ∀ s : Schema, (s.resolve legacy).solid = s.solid
  | .object notes properties required unknown => by
    rw [resolve, solid, solid, isHollow_resolve, solidProperties_resolve legacy properties,
      solidUnknown_resolve legacy unknown]
  | .array notes items => by rw [resolve, solid, solid, solidItems_resolve legacy items]
  | .scalar _ _ => rfl
  | .any _ => rfl

theorem solidProperties_resolve (legacy : Bool) : ∀ properties : List (String × Schema),
    solidProperties (resolveProperties legacy properties) = solidProperties properties
  | [] => rfl
  | (name, s) :: rest => by
    rw [resolveProperties, solidProperties, solidProperties, solid_resolve legacy s,
      solidProperties_resolve legacy rest]

theorem solidUnknown_resolve (legacy : Bool) : ∀ unknown : UnknownFields Schema,
    solidUnknown (resolveUnknown legacy unknown) = solidUnknown unknown
  | .unset => by cases legacy <;> rfl
  | .reject => rfl
  | .preserve => rfl
  | .validate s => solid_resolve legacy s

theorem solidItems_resolve (legacy : Bool) : ∀ items : Option Schema,
    solidItems (resolveItems legacy items) = solidItems items
  | none => rfl
  | some s => solid_resolve legacy s

end

mutual

/-- Resolved strictly, a tree that is read back is the tree that was rendered if no node of it is
hollow. -/
theorem resolve_reread_eq_iff : ∀ s : Schema,
    s.reread.resolve false = s.resolve false ↔ s.solid = true
  | .object notes properties required unknown => by
    rw [reread, solid, Bool.and_eq_true, Bool.and_eq_true,
      ← resolveProperties_rereadProperties_eq_iff properties,
      ← resolveUnknown_rereadUnknown_eq_iff unknown]
    cases isHollow notes properties unknown with
    | true => simp [resolve]
    | false => simp [resolve]
  | .array notes items => by
    rw [reread, solid, ← resolveItems_rereadItems_eq_iff items, resolve, resolve, array.injEq]
    exact and_iff_right rfl
  | .scalar _ _ => iff_of_true rfl rfl
  | .any _ => iff_of_true rfl rfl

theorem resolveProperties_rereadProperties_eq_iff : ∀ l : List (String × Schema),
    resolveProperties false (rereadProperties l) = resolveProperties false l ↔
      solidProperties l = true
  | [] => iff_of_true rfl rfl
  | (name, s) :: rest => by
    rw [rereadProperties, solidProperties, Bool.and_eq_true, ← resolve_reread_eq_iff s,
      ← resolveProperties_rereadProperties_eq_iff rest, resolveProperties, resolveProperties,
      List.cons.injEq, Prod.mk.injEq]
    exact and_congr_left fun _ => and_iff_right rfl

theorem resolveUnknown_rereadUnknown_eq_iff : ∀ u : UnknownFields Schema,
    resolveUnknown false (rereadUnknown u) = resolveUnknown false u ↔ solidUnknown u = true
  | .unset => iff_of_true rfl rfl
  | .reject => iff_of_true rfl rfl
  | .preserve => iff_of_true rfl rfl
  | .validate s => by
    rw [rereadUnknown, solidUnknown, ← resolve_reread_eq_iff s, resolveUnknown, resolveUnknown,
      UnknownFields.validate.injEq]

theorem resolveItems_rereadItems_eq_iff : ∀ o : Option Schema,
    resolveItems false (rereadItems o) = resolveItems false o ↔ solidItems o = true
  | none => iff_of_true rfl rfl
  | some s => by
    rw [rereadItems, solidItems, ← resolve_reread_eq_iff s, resolveItems, resolveItems,
      Option.some.injEq]

end

/-! ### Reading keywords -/

/-- A keyword that only some nodes have is there if it is among these. -/
theorem contains_keywords (s : Schema) (name : String)
    (h : name ∉ ["type", "description", "nullable", "enum"]) :
    Assoc.contains name (parts (keywords s)) = (Assoc.get? name (ownKeywords s)).isSome := by
  rw [contains_parts, Assoc.contains, get?_keywords_own s name h]

/-- A keyword is read as what was written. -/
theorem keyword?_parts {α : Type} {l : List (String × Json)} {name : String}
    {read : Json → Option α} {f : α → Json} {o : Option α} (h : Assoc.get? name l = o.map f)
    (hread : ∀ x, read (f x) = some x) (path : Pointer) (expected : String) :
    keyword? (parts l) path name expected read = .ok o := by
  rw [keyword?, get?_parts, h]
  cases o with
  | none => rfl
  | some x => simp only [Option.map_some, value_part, hread]

theorem readRequired_str (path : Pointer) (i : Nat) (names : List String) :
    readRequired path i (names.map .str) = .ok names := by
  induction names generalizing i with
  | nil => rfl
  | cons name rest ih =>
    rw [List.map_cons, readRequired, ih]
    rfl

/-! ### Reading nodes -/

/-- The node that the keywords of a node are read as, if its own keywords are. -/
theorem readNode_keywords (s : Schema) (path : Pointer) :
    let type := if s.notes.explicitType then typeName? s else none
    let notes := { s.notes with explicitType := type.isSome }
    let ps := parts (keywords s)
    readNode ps path =
      match type with
      | some "object" => readObject ps path (s.preserves.getD false) notes
      | some "array" => readArray ps path notes
      | some "string" => .ok (.scalar notes .string)
      | some "integer" => .ok (.scalar notes .integer)
      | some "number" => .ok (.scalar notes .number)
      | some "boolean" => .ok (.scalar notes .boolean)
      | some name => .error ⟨path ++ ["type"], .unknownType name⟩
      | none =>
        if Assoc.contains "properties" ps || Assoc.contains "additionalProperties" ps then
          readObject ps path (s.preserves.getD false) notes
        else if Assoc.contains "items" ps then readArray ps path notes
        else .ok (.any notes) := by
  intro type notes ps
  have hnullable : (if s.notes.nullable then some true else none).getD false =
      s.notes.nullable := by
    cases s.notes.nullable <;> rfl
  rw [readNode, keyword?_parts (get?_type s) (fun _ => rfl),
    keyword?_parts (get?_preserve s) (fun _ => rfl),
    keyword?_parts (get?_nullable s) (fun _ => rfl),
    keyword?_parts (get?_description s) (fun _ => rfl),
    keyword?_parts (get?_enum s) (fun _ => rfl)]
  -- Every keyword is read as it was written; what remains is the choice of a kind.
  change (match type with
    | some "object" => _ | some "array" => _ | some "string" => _ | some "integer" => _
    | some "number" => _ | some "boolean" => _ | some name => _ | none => _) = _
  rw [hnullable]
  rfl

section Objects

variable {notes : Annotations} {properties : List (String × Schema)} {required : List String}
  {unknown : UnknownFields Schema}

theorem readProperties_keywords
    (h : ∀ path, readMembers (parts (propertiesToJson properties)) path =
      .ok (rereadProperties properties)) (path : Pointer) :
    readProperties (parts (keywords (.object notes properties required unknown))) path =
      .ok (rereadProperties properties) := by
  rw [readProperties, get?_parts, get?_properties]
  cases properties with
  | nil => rfl
  | cons first rest => exact h _

theorem readUnknown_keywords
    (h : ∀ values, unknown = .validate values → ∀ path,
      readNode (parts (keywords values)) path = .ok values.reread) (path : Pointer) :
    readUnknown (parts (keywords (.object notes properties required unknown))) path
        ((preserves (.object notes properties required unknown)).getD false) =
      .ok (rereadUnknown unknown) := by
  rw [readUnknown, get?_parts, get?_additionalProperties]
  cases unknown with
  | unset => rfl
  | reject => rfl
  | preserve => rfl
  | validate values =>
    change (readNode (parts (keywords values)) (path ++ ["additionalProperties"])).map
      UnknownFields.validate = _
    rw [h values rfl]
    rfl

theorem readObject_keywords
    (hproperties : ∀ path, readMembers (parts (propertiesToJson properties)) path =
      .ok (rereadProperties properties))
    (hunknown : ∀ values, unknown = .validate values → ∀ path,
      readNode (parts (keywords values)) path = .ok values.reread) (path : Pointer)
    (notes' : Annotations) :
    readObject (parts (keywords (.object notes properties required unknown))) path
        ((preserves (.object notes properties required unknown)).getD false) notes' =
      .ok (.object notes' (rereadProperties properties) required (rereadUnknown unknown)) := by
  have hrequired : (if required.isEmpty then none else some (required.map Json.str)).getD [] =
      required.map Json.str := by
    cases required <;> rfl
  rw [readObject, readProperties_keywords hproperties,
    keyword?_parts get?_required (fun _ => rfl), readUnknown_keywords hunknown]
  change (readRequired path 0 ((if required.isEmpty then none else
    some (required.map Json.str)).getD []) >>= _) = _
  rw [hrequired, readRequired_str]
  rfl

/-- An object node that does not state its type is taken for one unless it is hollow. -/
theorem contains_eq_not_isHollow (h : notes.explicitType = false) :
    (Assoc.contains "properties" (parts (keywords (.object notes properties required unknown))) ||
      Assoc.contains "additionalProperties"
        (parts (keywords (.object notes properties required unknown)))) =
      !isHollow notes properties unknown := by
  rw [contains_parts, contains_parts, Assoc.contains, Assoc.contains, get?_properties,
    get?_additionalProperties]
  cases unknown <;> cases properties <;> simp [isHollow, h]

theorem contains_items :
    Assoc.contains "items" (parts (keywords (.object notes properties required unknown))) =
      false := by
  rw [contains_parts, Assoc.contains, get?_keywords_object "items" (by decide)]
  cases unknown <;> rfl

theorem readNode_object
    (hproperties : ∀ path, readMembers (parts (propertiesToJson properties)) path =
      .ok (rereadProperties properties))
    (hunknown : ∀ values, unknown = .validate values → ∀ path,
      readNode (parts (keywords values)) path = .ok values.reread) (path : Pointer) :
    readNode (parts (keywords (.object notes properties required unknown))) path =
      .ok (.reread (.object notes properties required unknown)) := by
  have hobject : ∀ notes', readObject
      (parts (keywords (.object notes properties required unknown))) path _ notes' = _ :=
    readObject_keywords hproperties hunknown path
  rw [readNode_keywords, reread]
  obtain ⟨nullable, allowed, description, explicitType⟩ := notes
  cases explicitType with
  | true =>
    have hsolid : isHollow ⟨nullable, allowed, description, true⟩ properties unknown = false := by
      cases unknown <;> rfl
    rw [hsolid]
    exact hobject _
  | false =>
    -- No type is written, so the kind is chosen by the keywords that are there.
    change (if _ then _ else if _ then _ else _) = _
    rw [contains_eq_not_isHollow rfl, contains_items]
    cases isHollow _ properties unknown with
    | true => rfl
    | false => exact hobject _

end Objects

section Others

variable {notes : Annotations}

theorem readItems_keywords {items : Option Schema}
    (h : ∀ s, items = some s → ∀ path, readNode (parts (keywords s)) path = .ok s.reread)
    (path : Pointer) :
    readItems (parts (keywords (.array notes items))) path = .ok (rereadItems items) := by
  rw [readItems, get?_parts, get?_keywords_own _ "items" (by decide), ownKeywords]
  cases items with
  | none => rfl
  | some s =>
    rw [itemsToJson, toJson_eq]
    change (readNode (parts (keywords s)) (path ++ ["items"])).map some = _
    rw [h s rfl]
    rfl

theorem readNode_array {items : Option Schema} (hitems : notes.explicitType = false → items.isSome)
    (h : ∀ s, items = some s → ∀ path, readNode (parts (keywords s)) path = .ok s.reread)
    (path : Pointer) :
    readNode (parts (keywords (.array notes items))) path = .ok (.reread (.array notes items)) := by
  have hread : readItems (parts (keywords (.array notes items))) path = _ :=
    readItems_keywords h path
  rw [readNode_keywords, reread]
  obtain ⟨nullable, allowed, description, explicitType⟩ := notes
  cases explicitType with
  | true =>
    change (readItems _ _).map _ = _
    rw [hread]
    rfl
  | false =>
    obtain ⟨s, rfl⟩ := Option.isSome_iff_exists.1 (hitems rfl)
    change (if _ then _ else if _ then (readItems _ _).map _ else _) = _
    rw [contains_keywords _ "properties" (by decide),
      contains_keywords _ "additionalProperties" (by decide),
      contains_keywords _ "items" (by decide), hread]
    rfl

theorem readNode_scalar (h : notes.explicitType = true) (type : ScalarType) (path : Pointer) :
    readNode (parts (keywords (.scalar notes type))) path = .ok (.scalar notes type) := by
  rw [readNode_keywords]
  obtain ⟨nullable, allowed, description, explicitType⟩ := notes
  obtain rfl : explicitType = true := h
  cases type <;> rfl

theorem readNode_any (h : notes.explicitType = false) (path : Pointer) :
    readNode (parts (keywords (.any notes))) path = .ok (.any notes) := by
  rw [readNode_keywords]
  obtain ⟨nullable, allowed, description, explicitType⟩ := notes
  obtain rfl : explicitType = false := h
  change (if _ then _ else if _ then _ else _) = _
  rw [contains_keywords _ "properties" (by decide),
    contains_keywords _ "additionalProperties" (by decide), contains_keywords _ "items" (by decide)]
  rfl

end Others

/-! ### Reading trees -/

mutual

/-- The document of a legible tree is read without an error. -/
theorem readNode_keywords_eq : ∀ s : Schema, s.Legible → ∀ path : Pointer,
    readNode (parts (keywords s)) path = .ok s.reread
  | .object _ properties _ unknown, h, path =>
    readNode_object (readMembers_propertiesToJson properties h.1)
      (readNode_keywords_of_unknown unknown h.2) path
  | .array _ items, h, path => readNode_array h.1 (readNode_keywords_of_items items h.2) path
  | .scalar _ type, h, path => readNode_scalar h type path
  | .any _, h, path => readNode_any h path

theorem readMembers_propertiesToJson : ∀ properties : List (String × Schema),
    LegibleProperties properties → ∀ path : Pointer,
      readMembers (parts (propertiesToJson properties)) path = .ok (rereadProperties properties)
  | [], _, _ => rfl
  | (name, s) :: rest, h, path => by
    rw [propertiesToJson, parts, readMembers, readMembers_propertiesToJson rest h.2, toJson_eq]
    change (readNode (parts (keywords s)) (path ++ [name]) >>= _) = _
    rw [readNode_keywords_eq s h.1]
    rfl

theorem readNode_keywords_of_unknown : ∀ unknown : UnknownFields Schema, LegibleUnknown unknown →
    ∀ s, unknown = .validate s → ∀ path : Pointer,
      readNode (parts (keywords s)) path = .ok s.reread
  | .validate s, h, _, rfl, path => readNode_keywords_eq s h path

theorem readNode_keywords_of_items : ∀ items : Option Schema, LegibleItems items →
    ∀ s, items = some s → ∀ path : Pointer, readNode (parts (keywords s)) path = .ok s.reread
  | some s, h, _, rfl, path => readNode_keywords_eq s h path

end

/-! ### Documents -/

/-- **What rendering a schema loses.** Let a tree be read from a document and resolved, in either
mode. Its own document is then read without an error. The tree that this gives, resolved strictly,
is the tree that was rendered if no node is hollow; each hollow node comes back without
restriction. -/
theorem ofJson_toJson_resolve (document : Json) (legacy : Bool) (s : Schema)
    (hread : ofJson document = .ok s) :
    ofJson (s.resolve legacy).toJson = .ok (s.resolve legacy).reread ∧
      ((s.resolve legacy).reread.resolve false = s.resolve legacy ↔ s.solid = true) := by
  have hlegible : (s.resolve legacy).Legible := (legible_of_ofJson hread).resolve legacy
  have hiff := resolve_reread_eq_iff (s.resolve legacy)
  rw [resolve_resolve, solid_resolve] at hiff
  refine ⟨?_, hiff⟩
  rw [ofJson, toJson_eq]
  exact readNode_keywords_eq _ hlegible []

/-- The document of a room with an owner, which does not state its type. -/
def roomDocument : Json :=
  .obj [("properties", .obj [("owner", .obj [("type", .str "string")])])]

theorem ofJson_toJson_resolve_room :
    ∃ s, ofJson roomDocument = .ok s ∧ ∃ t, ofJson (s.resolve true).toJson = .ok t ∧
      t.resolve false = s.resolve true := by
  have hread : ofJson roomDocument = .ok (.object { explicitType := false } [("owner", .string)] []
      .unset) := rfl
  obtain ⟨hreread, hiff⟩ := ofJson_toJson_resolve roomDocument true _ hread
  exact ⟨_, hread, _, hreread, hiff.2 rfl⟩

/-- The document of a room without properties. -/
def emptyRoomDocument : Json := .obj [("properties", .obj [])]

/-- A node without type and properties that refuses all members comes back without restriction. -/
theorem exists_resolve_ne :
    ∃ s, ofJson emptyRoomDocument = .ok s ∧ ∃ t, ofJson (s.resolve false).toJson = .ok t ∧
      t.resolve false ≠ s.resolve false :=
  ⟨.object { explicitType := false } [] [] .unset, rfl, .any { explicitType := false }, rfl,
    fun h => nomatch h⟩

end PolicyEngine.Schema
