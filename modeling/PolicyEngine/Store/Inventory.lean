import PolicyEngine.Json.Basic

/-!
# Inventory trees

The objects that rules of a target can read form a tree of JSON objects. Values are put at paths and
removed from them; objects that a removal leaves empty are pruned.

## Main definitions

* `PolicyEngine.Inventory.insert` — put a value at a path.
* `PolicyEngine.Inventory.remove?` — the tree without the value at a path, if there is one.
* `PolicyEngine.Inventory.lookup?` — the value at a path.

## Main results

* `PolicyEngine.Inventory.lookup?_insert_self` — a value is found where it was put.
-/

namespace PolicyEngine.Inventory

/-- The members of a tree; a tree that is no object has none. -/
def members : Json → List (String × Json)
  | .obj members => members
  | _ => []

/-- Whether a tree is the object without members. -/
def isEmpty : Json → Bool
  | .obj [] => true
  | _ => false

/-- Put a value at a path. What is no object on the way gives way to one, and the empty path
replaces the whole tree. -/
def insert (value : Json) : (path : List String) → (tree : Json) → Json
  | [], _ => value
  | key :: rest, tree =>
    let child := (Assoc.get? key (members tree)).getD .emptyObject
    .obj (Assoc.insert key (insert value rest child) (members tree))

/-- The tree without the value at a path and without the objects that this leaves empty on the way;
or nothing if there is no such value. The empty path clears a tree that is not empty. -/
def remove? : (path : List String) → (tree : Json) → Option Json
  | [], tree => if isEmpty tree then none else some .emptyObject
  | [key], tree =>
    (Assoc.get? key (members tree)).map fun _ => .obj (Assoc.erase key (members tree))
  | key :: next :: rest, tree => do
    let child ← Assoc.get? key (members tree)
    let pruned ← remove? (next :: rest) child
    return .obj <|
      if isEmpty pruned then Assoc.erase key (members tree)
      else Assoc.insert key pruned (members tree)

/-- The value at a path of member names. -/
def lookup? : (path : List String) → (tree : Json) → Option Json
  | [], tree => some tree
  | key :: rest, tree => (tree.get? key).bind (lookup? rest)

/-- A value is found where it was put. -/
theorem lookup?_insert_self (value : Json) (path : List String) (tree : Json) :
    lookup? path (insert value path tree) = some value := by
  induction path generalizing tree with
  | nil => rfl
  | cons key rest ih => simp [lookup?, insert, Json.get?, Assoc.get?_insert, ih]

end PolicyEngine.Inventory
