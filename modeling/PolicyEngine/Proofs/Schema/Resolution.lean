import PolicyEngine.Proofs.Schema.Leniency

/-!
# Resolved trees

A tree is known by its nodes: by the routes that lead to them from the root, and by what each of
them says itself. Resolving a tree changes neither the routes nor what a node says, except that an
object node which leaves open what holds for undeclared members settles it. So no node of a resolved
tree leaves anything open, and there is nothing left to resolve. The check of values takes what is
open for refused, as the strict mode does.

## Main definitions

* `PolicyEngine.Schema.node?` — the node at the end of a route.
* `PolicyEngine.Schema.Head` — what a node says apart from the trees beneath it.
* `PolicyEngine.Schema.Head.settle` — a node that leaves nothing open.

## Main results

* `PolicyEngine.Schema.eq_of_head_node?_eq` — a tree is determined by what its nodes say.
* `PolicyEngine.Schema.node?_resolve`, `PolicyEngine.Schema.head_resolve` — the nodes of a resolved
  tree.
* `PolicyEngine.Schema.violations_resolve_false` — an open tree is checked as if resolved strictly.
* `PolicyEngine.Schema.resolve_settles` — resolving settles what is open, and nothing else.
-/

namespace PolicyEngine

/-- What an object node says of undeclared members, apart from their schema. -/
def UnknownFields.shape {σ : Type} : UnknownFields σ → UnknownFields Unit
  | unset => unset
  | reject => reject
  | preserve => preserve
  | validate _ => validate ()

namespace Schema

/-! ### Nodes -/

/-- A way from a node to one beneath it. -/
inductive Branch where
  /-- To a declared property, counted by increasing name. -/
  | property (i : Nat)
  /-- To the schema of undeclared members. -/
  | undeclared
  /-- To the schema of array elements. -/
  | elements

/-- The tree that a branch leads to. -/
def child? : Branch → Schema → Option Schema
  | .property i, .object _ properties _ _ => properties[i]?.map Prod.snd
  | .undeclared, .object _ _ _ (.validate values) => some values
  | .elements, .array _ items => items
  | _, _ => none

/-- The tree whose root is the node at the end of a route. -/
def node? : List Branch → Schema → Option Schema
  | [], s => some s
  | branch :: route, s => (child? branch s).bind (node? route)

/-- What a node says apart from the trees beneath it. -/
inductive Head where
  | object (notes : Annotations) (names required : List String) (unknown : UnknownFields Unit)
  | array (notes : Annotations) (hasItems : Bool)
  | scalar (notes : Annotations) (type : ScalarType)
  | any (notes : Annotations)

/-- What the root of a tree says. -/
def head : Schema → Head
  | object notes properties required unknown =>
    .object notes (properties.map Prod.fst) required unknown.shape
  | array notes items => .array notes items.isSome
  | scalar notes type => .scalar notes type
  | any notes => .any notes

/-- Two trees whose nodes say the same. -/
def SameNodes (s t : Schema) : Prop :=
  ∀ route, (node? route s).map head = (node? route t).map head

namespace SameNodes

variable {s t : Schema}

theorem head_eq (h : SameNodes s t) : s.head = t.head := Option.some.inj (h [])

/-- Beneath the same branch the same nodes follow. -/
theorem child (h : SameNodes s t) (branch : Branch) {s' t' : Schema}
    (hs : child? branch s = some s') (ht : child? branch t = some t') : SameNodes s' t' := by
  intro route
  have hroute := h (branch :: route)
  rwa [node?, node?, hs, ht, Option.bind_some, Option.bind_some] at hroute

variable {properties properties' : List (String × Schema)}

/-- Properties of the same names are the same if their trees are. -/
theorem properties_eq (hnames : properties.map Prod.fst = properties'.map Prod.fst)
    (h : ∀ (i : Nat) (m m' : String × Schema), properties[i]? = some m →
      properties'[i]? = some m' → m.2 = m'.2) :
    properties = properties' := by
  refine List.ext_getElem? fun i => ?_
  have hname : properties[i]?.map Prod.fst = properties'[i]?.map Prod.fst := by
    rw [← List.getElem?_map, ← List.getElem?_map, hnames]
  cases hm : properties[i]? with
  | none =>
    rw [hm] at hname
    exact (Option.map_eq_none_iff.1 hname.symm).symm
  | some m =>
    rw [hm] at hname
    obtain ⟨m', hm', hfst⟩ := Option.map_eq_some_iff.1 hname.symm
    rw [hm', Prod.ext hfst.symm (h i m m' hm hm')]

end SameNodes

/-- A tree is determined by what its nodes say. -/
theorem eq_of_head_node?_eq (s : Schema) : ∀ {t : Schema}, SameNodes s t → s = t := by
  induction s using Schema.induction with
  | object notes properties required unknown hproperties hunknown =>
    intro t h
    have hhead := h.head_eq
    cases t with
    | object notes' properties' required' unknown' =>
      obtain ⟨rfl, hnames, rfl, hshape⟩ := Head.object.inj hhead
      obtain rfl : properties = properties' := SameNodes.properties_eq hnames
        fun i m m' hm hm' => hproperties m (List.mem_of_getElem? hm)
          (h.child (.property i) (congrArg (Option.map Prod.snd) hm)
            (congrArg (Option.map Prod.snd) hm'))
      obtain rfl : unknown = unknown' := by
        cases unknown with
        | unset | reject | preserve => cases unknown' <;> first | rfl | cases hshape
        | validate values =>
          cases unknown' with
          | unset | reject | preserve => cases hshape
          | validate values' =>
            rw [hunknown values rfl (h.child .undeclared rfl rfl)]
      rfl
    | array | scalar | any => cases hhead
  | array notes items hitems =>
    intro t h
    have hhead := h.head_eq
    cases t with
    | array notes' items' =>
      obtain ⟨rfl, hsome⟩ := Head.array.inj hhead
      cases items with
      | none =>
        cases items' with
        | none => rfl
        | some _ => cases hsome
      | some s =>
        cases items' with
        | none => cases hsome
        | some s' => rw [hitems s rfl (h.child .elements rfl rfl)]
    | object | scalar | any => cases hhead
  | scalar notes type =>
    intro t h
    have hhead := h.head_eq
    cases t with
    | scalar notes' type' =>
      obtain ⟨rfl, rfl⟩ := Head.scalar.inj hhead
      rfl
    | object | array | any => cases hhead
  | any notes =>
    intro t h
    have hhead := h.head_eq
    cases t with
    | any notes' => rw [Head.any.inj hhead]
    | object | array | scalar => cases hhead

/-! ### Nodes of resolved trees -/

/-- A node that leaves open what holds for undeclared members. -/
def Head.IsOpen : Head → Prop
  | object _ _ _ .unset => True
  | _ => False

/-- The node that leaves nothing open. What it says already it keeps. -/
def Head.settle (legacy : Bool) : Head → Head
  | object notes names required .unset =>
    object notes names required (if legacy then .preserve else .reject)
  | head => head

theorem Head.settle_of_not_isOpen {legacy : Bool} {h : Head} (hopen : ¬h.IsOpen) :
    h.settle legacy = h := by
  cases h with
  | object notes names required unknown =>
    cases unknown with
    | unset => exact absurd trivial hopen
    | reject | preserve | validate => rfl
  | array | scalar | any => rfl

theorem Head.not_isOpen_settle (legacy : Bool) (h : Head) : ¬(h.settle legacy).IsOpen := by
  cases h with
  | object notes names required unknown =>
    cases unknown with
    | unset => cases legacy <;> exact id
    | reject | preserve | validate => exact id
  | array | scalar | any => exact id

/-- The root of a resolved tree says what the root of the tree says, and leaves nothing open. -/
theorem head_resolve (legacy : Bool) (s : Schema) :
    (s.resolve legacy).head = s.head.settle legacy := by
  cases s with
  | object notes properties required unknown =>
    have hnames : (resolveProperties legacy properties).map Prod.fst =
        properties.map Prod.fst := by
      rw [resolveProperties_eq_map, List.map_map]
      rfl
    rw [resolve, head, head, hnames]
    cases unknown <;> cases legacy <;> rfl
  | array notes items => cases items <;> rfl
  | scalar | any => rfl

/-- A branch of a resolved tree leads to a resolved tree. -/
theorem child?_resolve (legacy : Bool) (branch : Branch) (s : Schema) :
    child? branch (s.resolve legacy) = (child? branch s).map (resolve legacy) := by
  cases s with
  | object notes properties required unknown =>
    cases branch with
    | property i =>
      change (resolveProperties legacy properties)[i]?.map Prod.snd =
        (properties[i]?.map Prod.snd).map (resolve legacy)
      rw [resolveProperties_eq_map, List.getElem?_map, Option.map_map, Option.map_map]
      rfl
    | undeclared => cases unknown <;> cases legacy <;> rfl
    | elements => rfl
  | array notes items =>
    cases branch with
    | elements => cases items <;> rfl
    | property | undeclared => rfl
  | scalar | any => cases branch <;> rfl

/-- A route of a resolved tree leads to a resolved tree. -/
theorem node?_resolve (legacy : Bool) (route : List Branch) (s : Schema) :
    node? route (s.resolve legacy) = (node? route s).map (resolve legacy) := by
  induction route generalizing s with
  | nil => rfl
  | cons branch route ih =>
    rw [node?, node?, child?_resolve]
    cases child? branch s with
    | none => rfl
    | some t => exact ih t

/-- Every node of a resolved tree is the node of the tree, with nothing left open. -/
theorem head_node?_resolve (legacy : Bool) (route : List Branch) (s : Schema) :
    (node? route (s.resolve legacy)).map head =
      ((node? route s).map head).map (Head.settle legacy) := by
  rw [node?_resolve, Option.map_map, Option.map_map]
  exact congrArg (Option.map · _) (funext (head_resolve legacy))

/-! ### The check of open trees -/

section Children

variable {properties : List (String × Schema)} {unknown : UnknownFields Schema}

theorem memberViolations_resolve_false
    (hproperties : ∀ m ∈ properties, ∀ v, (m.2.resolve false).violations v = m.2.violations v)
    (hunknown : ∀ values, unknown = .validate values →
      ∀ v, (values.resolve false).violations v = values.violations v) (name : String) (v : Json) :
    memberViolations (resolveProperties false properties) (resolveUnknown false unknown) name v =
      memberViolations properties unknown name v := by
  have hget := Assoc.get?_map (resolve false) name properties
  rw [resolveProperties_eq_map]
  cases hfound : Assoc.get? name properties with
  | some s =>
    rw [hfound] at hget
    rw [memberViolations_of_get?_eq_some hget, memberViolations_of_get?_eq_some hfound]
    exact hproperties _ (Assoc.mem_of_get?_eq_some hfound) v
  | none =>
    rw [hfound] at hget
    rw [memberViolations_of_get?_eq_none hget, memberViolations_of_get?_eq_none hfound]
    cases unknown with
    | unset | reject | preserve => rfl
    | validate values => exact hunknown values rfl v

end Children

/-- A tree that leaves something open is checked as if it were resolved strictly. -/
theorem violations_resolve_false (s : Schema) :
    ∀ v, (s.resolve false).violations v = s.violations v := by
  induction s using Schema.induction with
  | object notes properties required unknown hproperties hunknown =>
    rintro (_ | _ | _ | _ | _ | members)
    case obj =>
      rw [resolve, violations_object, violations_object]
      simp only [memberViolations_resolve_false hproperties hunknown]
    all_goals rfl
  | array notes items hitems =>
    rintro (_ | _ | _ | _ | elements | _)
    case arr =>
      rw [resolve, violations_array, violations_array]
      cases items with
      | none => rfl
      | some s =>
        have helement : elementViolations (some (s.resolve false)) =
            elementViolations (some s) := funext (hitems s rfl)
        rw [resolveItems, helement]
    all_goals rfl
  | scalar notes type => exact fun _ => rfl
  | any notes => exact fun _ => rfl

/-! ### Resolving -/

/-- **Resolving settles what is open, and nothing else.** No node of a resolved tree leaves open
what holds for undeclared members, and resolving it again changes nothing. The resolved tree is the
one that has the nodes of the tree, each of which says what it said before and leaves nothing open;
a node that left nothing open stays as it is. And a tree with open nodes finds wrong with a value
what it finds when it is resolved strictly. -/
theorem resolve_settles (s : Schema) (legacy again : Bool) (v : Json) :
    (∀ route t, node? route (s.resolve legacy) = some t → ¬t.head.IsOpen) ∧
      (s.resolve legacy).resolve again = s.resolve legacy ∧
      (∀ t : Schema, t = s.resolve legacy ↔ ∀ route,
        (node? route t).map head = ((node? route s).map head).map (Head.settle legacy)) ∧
      (∀ route t, node? route s = some t → ¬t.head.IsOpen →
        (node? route (s.resolve legacy)).map head = some t.head) ∧
      s.violations v = (s.resolve false).violations v := by
  refine ⟨fun route t ht => ?_, resolve_resolve legacy again s, fun t => ⟨?_, fun h => ?_⟩,
    fun route t ht hopen => ?_, (violations_resolve_false s v).symm⟩
  · rw [node?_resolve] at ht
    obtain ⟨u, -, rfl⟩ := Option.map_eq_some_iff.1 ht
    rw [head_resolve]
    exact u.head.not_isOpen_settle legacy
  · rintro rfl route
    exact head_node?_resolve legacy route s
  · refine eq_of_head_node?_eq t fun route => ?_
    exact (h route).trans (head_node?_resolve legacy route s).symm
  · rw [head_node?_resolve, ht, Option.map_some, Option.map_some,
      Head.settle_of_not_isOpen hopen]

/-- A property that declares nothing is opened in legacy mode, and one that refuses stays closed. -/
example :
    let rooms := record [("open", record []), ("closed", (record []).withUnknown .reject)]
    (rooms.resolve true).accepts
      (.obj [("closed", .obj []), ("open", .obj [("seat", .null)])]) = true := by
  decide +kernel

end Schema

end PolicyEngine
