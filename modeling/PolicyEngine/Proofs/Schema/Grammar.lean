import PolicyEngine.Proofs.Schema.Reading
import PolicyEngine.Proofs.SortedMap

/-!
# The grammar of schema documents

A document is a schema if it is an object whose keywords have their forms: those that every node can
have, and besides those of its kind. The kind is the stated type, or shows in the keywords that are
there. What other nodes have under the keywords of objects and arrays is not looked at. One keyword
overrules another: on an object node that preserves undeclared members `additionalProperties` is not
looked at either, although it is a keyword of objects. So the reader accepts every document of the
grammar, and beyond it those that break it at this place only.

## Main definitions

* `PolicyEngine.Schema.Grammatical` — the documents of the grammar, given the nodes on which
  `additionalProperties` is spared.
* `PolicyEngine.Schema.Preserving` — the nodes on which the reader spares it.

## Main results

* `PolicyEngine.Schema.exists_readNode_iff` — which nodes are read.
* `PolicyEngine.Schema.exists_ofJson_iff` — which documents are read.
* `PolicyEngine.Schema.exists_read_of_spared` — a document that is read and breaks the grammar.
-/

namespace PolicyEngine.Schema

/-! ### The grammar -/

/-- The types that documents can state. -/
def typeNames : List String := ["object", "array", "string", "integer", "number", "boolean"]

/-- The keywords that nodes of every kind can have hold values of their forms. -/
structure CommonForm (members : List (String × Json)) : Prop where
  preserve : ∀ v, Assoc.get? preserveKeyword members = some v → ∃ b, v = .bool b
  nullable : ∀ v, Assoc.get? "nullable" members = some v → ∃ b, v = .bool b
  description : ∀ v, Assoc.get? "description" members = some v → ∃ text, v = .str text
  enum : ∀ v, Assoc.get? "enum" members = some v → ∃ values, v = .arr values

/-- A node is an object node if it states so, or states no type and has keywords of objects. -/
def IsObjectNode (members : List (String × Json)) : Prop :=
  Assoc.get? "type" members = some (.str "object") ∨
    Assoc.get? "type" members = none ∧ (Assoc.contains "properties" members = true ∨
      Assoc.contains "additionalProperties" members = true)

/-- A node is an array node if it states so, or states no type and has the keyword of arrays and
none of objects. -/
def IsArrayNode (members : List (String × Json)) : Prop :=
  Assoc.get? "type" members = some (.str "array") ∨
    Assoc.get? "type" members = none ∧ ¬(Assoc.contains "properties" members = true ∨
      Assoc.contains "additionalProperties" members = true) ∧
      Assoc.contains "items" members = true

/-- The documents of the grammar, where `additionalProperties` is spared on some nodes. -/
inductive Grammatical (spared : List (String × Json) → Prop) : Json → Prop where
  /-- An object whose keywords have the forms of its kind. -/
  | node {members : List (String × Json)} (common : CommonForm members)
      (type : ∀ v, Assoc.get? "type" members = some v → ∃ name ∈ typeNames, v = .str name)
      (properties : IsObjectNode members → ∀ v, Assoc.get? "properties" members = some v →
        v.isObject = true)
      (property : IsObjectNode members → ∀ declared,
        Assoc.get? "properties" members = some (.obj declared) →
          ∀ m ∈ declared, Grammatical spared m.2)
      (required : IsObjectNode members → ∀ v, Assoc.get? "required" members = some v →
        ∃ names : List String, v = .arr (names.map .str))
      (undeclared : IsObjectNode members → ¬spared members →
        ∀ v, Assoc.get? "additionalProperties" members = some v → (∀ b, v ≠ .bool b) →
          Grammatical spared v)
      (items : IsArrayNode members → ∀ v, Assoc.get? "items" members = some v →
        Grammatical spared v) :
      Grammatical spared (.obj members)

/-- The nodes that preserve undeclared members. -/
def Preserving (members : List (String × Json)) : Prop :=
  Assoc.get? preserveKeyword members = some (.bool true)

/-- The keywords of an object node have their forms. -/
structure ObjectForm (spared : List (String × Json) → Prop) (members : List (String × Json)) :
    Prop where
  properties : ∀ v, Assoc.get? "properties" members = some v →
    ∃ declared, v = .obj declared ∧ ∀ m ∈ declared, Grammatical spared m.2
  required : ∀ v, Assoc.get? "required" members = some v →
    ∃ names : List String, v = .arr (names.map .str)
  undeclared : ¬spared members → ∀ v, Assoc.get? "additionalProperties" members = some v →
    (∀ b, v ≠ .bool b) → Grammatical spared v

/-- The type that a node states is known, and the keywords of its kind have their forms. -/
structure KindForm (spared : List (String × Json) → Prop) (members : List (String × Json)) :
    Prop where
  type : ∀ v, Assoc.get? "type" members = some v → ∃ name ∈ typeNames, v = .str name
  object : IsObjectNode members → ObjectForm spared members
  array : IsArrayNode members → ∀ v, Assoc.get? "items" members = some v → Grammatical spared v

namespace Grammatical

variable {spared spared' : List (String × Json) → Prop}

theorem obj_iff {members : List (String × Json)} :
    Grammatical spared (.obj members) ↔ CommonForm members ∧ KindForm spared members := by
  constructor
  · rintro ⟨common, type, properties, property, required, undeclared, items⟩
    refine ⟨common, type, fun h => ⟨fun v hv => ?_, required h, undeclared h⟩, items⟩
    obtain ⟨declared, rfl⟩ := Json.exists_obj_of_isObject (properties h v hv)
    exact ⟨declared, rfl, property h declared hv⟩
  · rintro ⟨common, type, object, items⟩
    refine .node common type (fun h v hv => ?_) (fun h declared hdeclared => ?_)
      (fun h => (object h).required) (fun h => (object h).undeclared) items
    · obtain ⟨declared, rfl, -⟩ := (object h).properties v hv
      rfl
    · obtain ⟨_, heq, hall⟩ := (object h).properties _ hdeclared
      exact Json.obj.inj heq ▸ hall

theorem isObject {v : Json} (h : Grammatical spared v) : v.isObject = true := by
  cases h
  rfl

/-- To spare `additionalProperties` on further nodes is to demand less. -/
theorem mono (hspared : ∀ members, spared members → spared' members) {v : Json}
    (h : Grammatical spared v) : Grammatical spared' v := by
  induction h with
  | node common type properties _ required _ _ property undeclared items =>
    exact .node common type properties property required
      (fun h hnot => undeclared h fun hs => hnot (hspared _ hs)) items

end Grammatical

/-! ### Reading keywords -/

theorem isSome_bool?_iff {v : Json} : (bool? v).isSome = true ↔ ∃ b, v = .bool b := by
  cases v <;> simp [bool?]

theorem isSome_text?_iff {v : Json} : v.text?.isSome = true ↔ ∃ text, v = .str text := by
  cases v <;> simp [Json.text?]

theorem isSome_elements?_iff {v : Json} :
    v.elements?.isSome = true ↔ ∃ values, v = .arr values := by
  cases v <;> simp [Json.elements?]

section Nodes

variable {members : List (String × Json)} {path : Pointer}

/-- Reading goes on after a keyword if it is absent or has its form. -/
theorem exists_keyword?_bind_iff {α β : Type} {name expected : String} {read : Json → Option α}
    {next : Option α → Except Malformed β} :
    (∃ b, (keyword? (parts members) path name expected read >>= next) = .ok b) ↔
      (∀ v, Assoc.get? name members = some v → (read v).isSome = true) ∧
        ∃ b, next ((Assoc.get? name members).bind read) = .ok b := by
  rw [Outcome.exists_bind_eq_ok, keyword?, get?_parts]
  cases Assoc.get? name members with
  | none => simp
  | some v =>
    simp only [Option.map_some, value_part, Option.bind_some, Option.some.injEq, forall_eq']
    cases read v <;> simp

/-- Every required property is named by a string. -/
theorem exists_readRequired_iff {i : Nat} {values : List Json} :
    (∃ names, readRequired path i values = .ok names) ↔
      ∃ names : List String, values = names.map .str := by
  induction values generalizing i with
  | nil => exact iff_of_true ⟨_, rfl⟩ ⟨[], rfl⟩
  | cons v rest ih =>
    cases v with
    | str name =>
      rw [readRequired, Outcome.exists_map_eq_ok, ih]
      constructor
      · rintro ⟨names, rfl⟩
        exact ⟨name :: names, rfl⟩
      · rintro ⟨names, hnames⟩
        obtain ⟨_, others, -, -, hothers⟩ := List.map_eq_cons_iff.1 hnames.symm
        exact ⟨others, hothers.symm⟩
    | null | bool | num | arr | obj =>
      refine iff_of_false Outcome.not_exists_error_eq_ok ?_
      rintro ⟨names, hnames⟩
      obtain ⟨_, _, -, hname, -⟩ := List.map_eq_cons_iff.1 hnames.symm
      cases hname

/-- The forms of the keywords of a node in the order in which they are read. -/
theorem commonForm_and_kindForm_iff {spared : List (String × Json) → Prop} :
    CommonForm members ∧ KindForm spared members ↔
      (∀ v, Assoc.get? "type" members = some v → ∃ name, v = .str name) ∧
      (∀ v, Assoc.get? preserveKeyword members = some v → ∃ b, v = .bool b) ∧
      (∀ v, Assoc.get? "nullable" members = some v → ∃ b, v = .bool b) ∧
      (∀ v, Assoc.get? "description" members = some v → ∃ text, v = .str text) ∧
      (∀ v, Assoc.get? "enum" members = some v → ∃ values, v = .arr values) ∧
      KindForm spared members := by
  constructor
  · rintro ⟨⟨hpreserve, hnullable, hdescription, henum⟩, h⟩
    refine ⟨fun v hv => ?_, hpreserve, hnullable, hdescription, henum, h⟩
    obtain ⟨name, -, hname⟩ := h.type v hv
    exact ⟨name, hname⟩
  · rintro ⟨-, hpreserve, hnullable, hdescription, henum, h⟩
    exact ⟨⟨hpreserve, hnullable, hdescription, henum⟩, h⟩

/-- What a stated type asks of a node. -/
theorem kindForm_iff_of_str {spared : List (String × Json) → Prop} {name : String}
    (h : Assoc.get? "type" members = some (.str name)) :
    KindForm spared members ↔ name ∈ typeNames ∧ (name = "object" → ObjectForm spared members) ∧
      (name = "array" → ∀ v, Assoc.get? "items" members = some v → Grammatical spared v) := by
  have hobject : IsObjectNode members ↔ name = "object" := by simp [IsObjectNode, h]
  have harray : IsArrayNode members ↔ name = "array" := by simp [IsArrayNode, h]
  rw [← hobject, ← harray]
  constructor
  · rintro ⟨htype, hform⟩
    obtain ⟨_, hknown, hname⟩ := htype _ h
    exact ⟨Json.str.inj hname ▸ hknown, hform, ‹_›⟩
  · rintro ⟨hknown, hobject, harray⟩
    exact ⟨fun v hv => ⟨name, hknown, Option.some.inj (hv.symm.trans h)⟩, hobject, harray⟩

/-- What a node is asked that does not state its type. -/
theorem kindForm_iff_of_none {spared : List (String × Json) → Prop}
    (h : Assoc.get? "type" members = none) : KindForm spared members ↔
      if (Assoc.contains "properties" members ||
        Assoc.contains "additionalProperties" members) = true then ObjectForm spared members
      else Assoc.contains "items" members = true →
        ∀ v, Assoc.get? "items" members = some v → Grammatical spared v := by
  have hobject : IsObjectNode members ↔ (Assoc.contains "properties" members ||
      Assoc.contains "additionalProperties" members) = true := by
    simp [IsObjectNode, h]
  have harray : IsArrayNode members ↔
      ¬IsObjectNode members ∧ Assoc.contains "items" members = true := by
    simp [IsObjectNode, IsArrayNode, h]
  have htype : ∀ v, Assoc.get? "type" members = some v → ∃ name ∈ typeNames, v = .str name := by
    simp [h]
  split
  · rename_i hkeywords
    have hnode := hobject.2 hkeywords
    exact ⟨fun hform => hform.object hnode,
      fun hform => ⟨htype, fun _ => hform, fun hnot => absurd hnode (harray.1 hnot).1⟩⟩
  · rename_i hkeywords
    have hnode := mt hobject.1 hkeywords
    exact ⟨fun hform hitems => hform.array (harray.2 ⟨hnode, hitems⟩),
      fun hform => ⟨htype, fun hnot => absurd hnot hnode, fun hitems => hform (harray.1 hitems).2⟩⟩

/-- An array of names, if there is one. -/
theorem required_iff {value : Option Json} :
    ((∀ v, value = some v → v.elements?.isSome = true) ∧
        ∃ names : List String, (value.bind Json.elements?).getD [] = names.map .str) ↔
      ∀ v, value = some v → ∃ names : List String, v = .arr (names.map .str) := by
  cases value with
  | none => simp
  | some v => cases v <;> simp [Json.elements?]

/-! ### Reading nodes -/

/-- A part is read as a schema if it is one by the grammar, and its members are if they are. -/
structure Part.Judged (p : Part) : Prop where
  schema : ∀ path, (∃ s, p.schema path = .ok s) ↔ Grammatical Preserving p.value
  members : ∀ path, (∃ l, p.members path = .ok l) ↔
    ∃ declared, p.value = .obj declared ∧ ∀ m ∈ declared, Grammatical Preserving m.2

variable (hjudged : ∀ m ∈ members, (part m.2).Judged)

include hjudged

theorem judged_of_get? {name : String} {v : Json} (h : Assoc.get? name members = some v) :
    (part v).Judged :=
  hjudged _ (Assoc.mem_of_get?_eq_some h)

theorem exists_readProperties_iff : (∃ l, readProperties (parts members) path = .ok l) ↔
    ∀ v, Assoc.get? "properties" members = some v →
      ∃ declared, v = .obj declared ∧ ∀ m ∈ declared, Grammatical Preserving m.2 := by
  rw [readProperties, get?_parts]
  cases hget : Assoc.get? "properties" members with
  | none => simp
  | some v =>
    have hmembers := (judged_of_get? hjudged hget).members (path ++ ["properties"])
    rw [value_part] at hmembers
    simp only [Option.map_some, value_part, Option.some.injEq, forall_eq']
    cases v with
    | obj declared => exact hmembers
    | null | bool | num | str | arr => simp [Json.isObject]

theorem exists_readUnknown_iff {preserve : Bool}
    (hpreserve : preserve = true ↔ Preserving members) :
    (∃ u, readUnknown (parts members) path preserve = .ok u) ↔
      (¬Preserving members → ∀ v, Assoc.get? "additionalProperties" members = some v →
        (∀ b, v ≠ .bool b) → Grammatical Preserving v) := by
  rw [readUnknown, get?_parts, ← hpreserve]
  cases preserve with
  | true => simp
  | false =>
    cases hget : Assoc.get? "additionalProperties" members with
    | none => simp
    | some v =>
      have hschema := (judged_of_get? hjudged hget).schema (path ++ ["additionalProperties"])
      rw [value_part] at hschema
      simp only [Option.map_some, value_part, Option.some.injEq, forall_eq', Bool.false_eq_true,
        not_false_eq_true, forall_const, if_false]
      cases v with
      | bool b => cases b <;> simp
      | obj declared => simpa [Outcome.exists_map_eq_ok] using hschema
      | null | num | str | arr =>
        refine iff_of_false Outcome.not_exists_error_eq_ok fun h => ?_
        exact absurd (h (by simp)).isObject Bool.false_ne_true

theorem exists_readItems_iff : (∃ o, readItems (parts members) path = .ok o) ↔
    ∀ v, Assoc.get? "items" members = some v → Grammatical Preserving v := by
  rw [readItems, get?_parts]
  cases hget : Assoc.get? "items" members with
  | none => simp
  | some v =>
    have hschema := (judged_of_get? hjudged hget).schema (path ++ ["items"])
    rw [value_part] at hschema
    simp only [Option.map_some, value_part, Option.some.injEq, forall_eq']
    cases v with
    | obj declared => exact Outcome.exists_map_eq_ok.trans hschema
    | null | bool | num | str | arr =>
      exact iff_of_false Outcome.not_exists_error_eq_ok fun h =>
        absurd h.isObject Bool.false_ne_true

theorem exists_readObject_iff {preserve : Bool} (hpreserve : preserve = true ↔ Preserving members)
    (path : Pointer) (notes : Annotations) :
    (∃ s, readObject (parts members) path preserve notes = .ok s) ↔
      ObjectForm Preserving members := by
  have hdone : ∀ s : Schema, ∃ b, (pure s : Except Malformed Schema) = .ok b := fun s => ⟨s, rfl⟩
  rw [readObject, Outcome.exists_bind_eq_ok]
  simp only [exists_keyword?_bind_iff]
  simp only [Outcome.exists_bind_eq_ok, hdone, and_true, exists_and_right,
    exists_readProperties_iff hjudged, exists_readRequired_iff,
    exists_readUnknown_iff hjudged hpreserve]
  rw [← and_assoc (c := _ → _), required_iff]
  constructor
  · rintro ⟨hproperties, hrequired, hundeclared⟩
    exact ⟨hproperties, hrequired, hundeclared⟩
  · exact fun h => ⟨h.properties, h.required, h.undeclared⟩

theorem exists_readArray_iff (path : Pointer) (notes : Annotations) :
    (∃ s, readArray (parts members) path notes = .ok s) ↔
      ∀ v, Assoc.get? "items" members = some v → Grammatical Preserving v :=
  Outcome.exists_map_eq_ok.trans (exists_readItems_iff hjudged)

/-- A node is read if it is one by the grammar. -/
theorem exists_readNode_iff :
    (∃ s, readNode (parts members) path = .ok s) ↔ Grammatical Preserving (.obj members) := by
  have hpreserve : ((Assoc.get? preserveKeyword members).bind bool?).getD false = true ↔
      Preserving members := by
    rw [Preserving]
    cases Assoc.get? preserveKeyword members with
    | none => simp
    | some v => cases v <;> simp [bool?]
  rw [readNode, exists_keyword?_bind_iff, exists_keyword?_bind_iff, exists_keyword?_bind_iff,
    exists_keyword?_bind_iff, exists_keyword?_bind_iff, Grammatical.obj_iff,
    commonForm_and_kindForm_iff]
  simp only [isSome_text?_iff, isSome_bool?_iff, isSome_elements?_iff]
  refine and_congr_right fun hstated => and_congr_right fun _ => and_congr_right fun _ =>
    and_congr_right fun _ => and_congr_right fun _ => ?_
  have hobject := fun notes => exists_readObject_iff hjudged hpreserve path notes
  have harray := fun notes => exists_readArray_iff hjudged path notes
  cases htype : Assoc.get? "type" members with
  | none =>
    rw [kindForm_iff_of_none htype]
    simp only [Option.bind_none, contains_parts]
    split
    · exact hobject _
    · split
      · rename_i hitems
        exact (harray _).trans ⟨fun h _ => h, fun h => h hitems⟩
      · rename_i hitems
        exact iff_of_true ⟨_, rfl⟩ fun h => absurd h hitems
  | some v =>
    obtain ⟨name, rfl⟩ := hstated v htype
    rw [kindForm_iff_of_str htype]
    simp only [Option.bind_some, Json.text?]
    split
    case h_1 heq =>
      obtain rfl := Option.some.inj heq
      simp [hobject, typeNames]
    case h_2 heq =>
      obtain rfl := Option.some.inj heq
      simp [harray, typeNames]
    case h_7 hobject harray hstring hinteger hnumber hboolean heq =>
      obtain rfl := Option.some.inj heq
      refine iff_of_false Outcome.not_exists_error_eq_ok fun h => ?_
      have hknown := h.1
      simp only [typeNames, List.mem_cons, List.not_mem_nil, or_false] at hknown
      tauto
    case h_8 heq => cases heq
    all_goals
      rename_i heq
      obtain rfl := Option.some.inj heq
      exact iff_of_true ⟨_, rfl⟩ (by simp [typeNames])

/-- The members of a part are read if all of them are schemas by the grammar. -/
theorem exists_readMembers_iff : (∃ l, readMembers (parts members) path = .ok l) ↔
    ∀ m ∈ members, Grammatical Preserving m.2 := by
  induction members with
  | nil => exact iff_of_true ⟨[], rfl⟩ (List.forall_mem_nil _)
  | cons m rest ih =>
    obtain ⟨hfirst, hrest⟩ := List.forall_mem_cons.1 hjudged
    obtain ⟨name, v⟩ := m
    have hschema := hfirst.schema (path ++ [name])
    rw [value_part] at hschema
    have hdone : ∀ l : List (String × Schema),
        ∃ b, (pure l : Except Malformed (List (String × Schema))) = .ok b := fun l => ⟨l, rfl⟩
    rw [parts, readMembers, Outcome.exists_bind_eq_ok, List.forall_mem_cons, ← hschema, ← ih hrest]
    simp only [Outcome.exists_bind_eq_ok, hdone, and_true, exists_and_right]

end Nodes

/-! ### Reading documents -/

/-- What is no object is no schema, and its members are none. -/
theorem judged_of_not_isObject {v : Json} (h : v.isObject = false) : (part v).Judged := by
  refine ⟨fun path => ?_, fun path => ?_⟩
  · obtain ⟨⟨e, he⟩, -⟩ := exists_error_of_not_isObject h path
    rw [value_part, he]
    exact iff_of_false Outcome.not_exists_error_eq_ok fun hnode =>
      absurd hnode.isObject (Bool.eq_false_iff.1 h)
  · obtain ⟨-, e, he⟩ := exists_error_of_not_isObject h path
    rw [value_part, he]
    refine iff_of_false Outcome.not_exists_error_eq_ok ?_
    rintro ⟨declared, rfl, -⟩
    cases h

mutual

/-- The parts of documents are read if they are schemas by the grammar. -/
theorem judged_part : ∀ document : Json, (part document).Judged
  | .obj members =>
    ⟨fun _ => exists_readNode_iff (judged_parts members), fun _ =>
      (exists_readMembers_iff (judged_parts members)).trans
        ⟨fun h => ⟨members, rfl, h⟩, fun ⟨_, heq, h⟩ => Json.obj.inj heq ▸ h⟩⟩
  | .null => judged_of_not_isObject rfl
  | .bool _ => judged_of_not_isObject rfl
  | .num _ => judged_of_not_isObject rfl
  | .str _ => judged_of_not_isObject rfl
  | .arr _ => judged_of_not_isObject rfl

theorem judged_parts : ∀ members : List (String × Json), ∀ m ∈ members, (part m.2).Judged
  | [] => List.forall_mem_nil _
  | (_, v) :: rest => List.forall_mem_cons.2 ⟨judged_part v, judged_parts rest⟩

end

/-- **Which documents are schemas.** A document is read as a schema exactly if it is one by the
grammar, where `additionalProperties` is spared on nodes that preserve undeclared members. So every
document is read that is a schema by the grammar without this exception. -/
theorem exists_ofJson_iff (document : Json) :
    ((∃ s, ofJson document = .ok s) ↔ Grammatical Preserving document) ∧
      (Grammatical (fun _ => False) document → ∃ s, ofJson document = .ok s) := by
  have hread : (∃ s, ofJson document = .ok s) ↔ Grammatical Preserving document := by
    rw [ofJson, (judged_part document).schema, value_part]
  exact ⟨hread, fun h => hread.2 (h.mono fun _ => False.elim)⟩

/-- The document of a room that preserves undeclared members and says nonsense of them. -/
def sparedRoom : Json :=
  .obj [("additionalProperties", .ofInt 7), ("type", .str "object"),
    (preserveKeyword, .bool true)]

/-- A document that is read, although it is no schema by the grammar without exception. -/
theorem exists_read_of_spared :
    (∃ s, ofJson sparedRoom = .ok s) ∧ ¬Grammatical (fun _ => False) sparedRoom := by
  refine ⟨⟨.object {} [] [] .preserve, rfl⟩, fun h => ?_⟩
  obtain ⟨-, hkind⟩ := Grammatical.obj_iff.1 h
  have hvalues := (hkind.object (.inl rfl)).undeclared id _ rfl (by simp [Json.ofInt])
  exact absurd hvalues.isObject Bool.false_ne_true

end PolicyEngine.Schema
