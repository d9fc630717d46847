import PolicyEngine.Json.Basic

/-!
# Schema trees

A schema describes the values that parameters and match specifications may take. It is a tree whose
nodes are objects, arrays, four scalar types, or no restriction at all; every node carries the same
annotations. An object node may leave open what holds for members it does not declare, and resolving
a schema fills in every such gap.

## Main definitions

* `PolicyEngine.Schema` — the trees.
* `PolicyEngine.Schema.resolve` — settle what an object node says about undeclared members.

## Main results

* `PolicyEngine.Schema.induction` — induction over the nodes of a tree.
* `PolicyEngine.Schema.resolve_resolve` — resolving a second time changes nothing.
-/

namespace PolicyEngine

/-- What an object node says about members that it does not declare. -/
inductive UnknownFields (σ : Type) where
  /-- Nothing yet. -/
  | unset
  /-- They are refused. -/
  | reject
  /-- They may hold anything. -/
  | preserve
  /-- Each has to satisfy a schema. -/
  | validate (values : σ)

/-- The types of scalar nodes. -/
inductive ScalarType where
  | string
  | integer
  | number
  | boolean
deriving DecidableEq, Repr, Inhabited

/-- The name of a scalar type. -/
def ScalarType.name : ScalarType → String
  | string => "string"
  | integer => "integer"
  | number => "number"
  | boolean => "boolean"

/-- Whether a value has a scalar type. A double without a fraction counts as an integer. -/
def ScalarType.holds : ScalarType → Json → Bool
  | .string, .str _ => true
  | .boolean, .bool _ => true
  | .number, .num _ => true
  | .integer, .num n => n.isInteger
  | _, _ => false

/-- What every schema node may say besides its type. -/
structure Annotations where
  /-- Whether null is accepted. -/
  nullable : Bool := false
  /-- The only values allowed, when they are listed. -/
  allowed : Option (List Json) := none
  /-- A text for readers. -/
  description : Option String := none
  /-- Whether the type was stated and not inferred. -/
  explicitType : Bool := true
deriving Inhabited

/-- A schema tree. The properties of an object node are listed by increasing name. -/
inductive Schema where
  | object (notes : Annotations) (properties : List (String × Schema)) (required : List String)
      (unknown : UnknownFields Schema)
  | array (notes : Annotations) (items : Option Schema)
  | scalar (notes : Annotations) (type : ScalarType)
  | any (notes : Annotations)

namespace Schema

instance : Inhabited Schema := ⟨.any { explicitType := false }⟩

/-- Induction over the nodes of a tree: what holds of a node if it holds of the schemas of its
properties, of its undeclared members and of its elements, holds of every tree. -/
@[elab_as_elim]
theorem induction {motive : Schema → Prop}
    (object : ∀ notes properties required unknown, (∀ m ∈ properties, motive m.2) →
      (∀ values, unknown = .validate values → motive values) →
        motive (.object notes properties required unknown))
    (array : ∀ notes items, (∀ s, items = some s → motive s) → motive (.array notes items))
    (scalar : ∀ notes type, motive (.scalar notes type))
    (any : ∀ notes, motive (.any notes)) : ∀ s, motive s :=
  Schema.rec (motive_2 := fun properties => ∀ m ∈ properties, motive m.2)
    (motive_3 := fun unknown => ∀ values, unknown = .validate values → motive values)
    (motive_4 := fun items => ∀ s, items = some s → motive s) (motive_5 := fun m => motive m.2)
    object array scalar any
    (fun _ h => nomatch h) (fun _ _ hfirst hrest => List.forall_mem_cons.2 ⟨hfirst, hrest⟩)
    (fun _ h => nomatch h) (fun _ h => nomatch h) (fun _ h => nomatch h)
    (fun _ hvalues _ h => UnknownFields.validate.inj h ▸ hvalues)
    (fun _ h => nomatch h) (fun _ hitems _ h => Option.some.inj h ▸ hitems)
    (fun _ _ hs => hs)

/-- The annotations of the root node. -/
def notes : Schema → Annotations
  | object notes .. => notes
  | array notes _ => notes
  | scalar notes _ => notes
  | any notes => notes

/-- Change the annotations of the root node. -/
def mapNotes (f : Annotations → Annotations) : Schema → Schema
  | object notes properties required unknown => object (f notes) properties required unknown
  | array notes items => array (f notes) items
  | scalar notes type => scalar (f notes) type
  | any notes => any (f notes)

/-! ### Building schemas -/

/-- Accept everything. -/
def anything : Schema := .any { explicitType := false }

/-- Accept strings. -/
def string : Schema := .scalar {} .string

/-- Accept whole numbers. -/
def integer : Schema := .scalar {} .integer

/-- Accept numbers. -/
def number : Schema := .scalar {} .number

/-- Accept booleans. -/
def boolean : Schema := .scalar {} .boolean

/-- Accept arrays whose elements satisfy a schema. -/
def arrayOf (items : Schema) : Schema := .array {} (some items)

/-- Accept objects with the given properties; of two properties of one name the later one stays. -/
def record (properties : List (String × Schema)) : Schema :=
  .object {} (Assoc.ofList properties) [] .unset

/-- Accept objects whose members all satisfy a schema. -/
def mapOf (values : Schema) : Schema := .object {} [] [] (.validate values)

/-- Require further properties of an object node. -/
def withRequired (names : List String) : Schema → Schema
  | object notes properties required unknown =>
    object notes properties (required ++ names) unknown
  | s => s

/-- Settle what an object node says about undeclared members. -/
def withUnknown (unknown : UnknownFields Schema) : Schema → Schema
  | object notes properties required _ => object notes properties required unknown
  | s => s

/-- Allow only the listed values. -/
def withAllowed (values : List Json) : Schema → Schema :=
  mapNotes fun notes => { notes with allowed := some values }

/-- Accept null as well. -/
def orNull : Schema → Schema :=
  mapNotes fun notes => { notes with nullable := true }

/-- Attach a text for readers. -/
def withDescription (text : String) : Schema → Schema :=
  mapNotes fun notes => { notes with description := some text }

/-- The schema of a declared property. -/
def property? (name : String) : Schema → Option Schema
  | object _ properties _ _ => Assoc.get? name properties
  | _ => none

/-! ### Resolving -/

mutual

/-- Settle every open object node: undeclared members are preserved in legacy mode and rejected
otherwise. Nodes that already say something keep it. -/
def resolve (legacy : Bool) : Schema → Schema
  | object notes properties required unknown =>
    object notes (resolveProperties legacy properties) required (resolveUnknown legacy unknown)
  | array notes items => array notes (resolveItems legacy items)
  | scalar notes type => scalar notes type
  | any notes => any notes

/-- Resolve the schema of every property. -/
def resolveProperties (legacy : Bool) : List (String × Schema) → List (String × Schema)
  | [] => []
  | (name, s) :: rest => (name, resolve legacy s) :: resolveProperties legacy rest

/-- Resolve what an object node says about undeclared members. -/
def resolveUnknown (legacy : Bool) : UnknownFields Schema → UnknownFields Schema
  | .unset => if legacy then .preserve else .reject
  | .reject => .reject
  | .preserve => .preserve
  | .validate s => .validate (resolve legacy s)

/-- Resolve the schema of an array's elements. -/
def resolveItems (legacy : Bool) : Option Schema → Option Schema
  | none => none
  | some s => some (resolve legacy s)

end

mutual

/-- Resolving a second time changes nothing, whichever mode is chosen. -/
theorem resolve_resolve (a b : Bool) : ∀ s : Schema, (s.resolve a).resolve b = s.resolve a
  | .object notes properties required unknown => by
    simp only [resolve, resolveProperties_resolveProperties a b properties,
      resolveUnknown_resolveUnknown a b unknown]
  | .array notes items => by simp only [resolve, resolveItems_resolveItems a b items]
  | .scalar _ _ => rfl
  | .any _ => rfl

theorem resolveProperties_resolveProperties (a b : Bool) : ∀ l : List (String × Schema),
    resolveProperties b (resolveProperties a l) = resolveProperties a l
  | [] => rfl
  | (name, s) :: rest => by
    simp only [resolveProperties, resolve_resolve a b s,
      resolveProperties_resolveProperties a b rest]

theorem resolveUnknown_resolveUnknown (a b : Bool) : ∀ u : UnknownFields Schema,
    resolveUnknown b (resolveUnknown a u) = resolveUnknown a u
  | .unset => by cases a <;> rfl
  | .reject => rfl
  | .preserve => rfl
  | .validate s => by simp only [resolveUnknown, resolve_resolve a b s]

theorem resolveItems_resolveItems (a b : Bool) : ∀ o : Option Schema,
    resolveItems b (resolveItems a o) = resolveItems a o
  | none => rfl
  | some s => by simp only [resolveItems, resolve_resolve a b s]

end

end Schema

end PolicyEngine
