import PolicyEngine.Number.Decimal

/-!
# Values of rules

What rules calculate with: JSON values with exact numbers, and sets. All values are ordered, first
by type and then within it; sets list their members, and objects their keys, in this order.

## Main definitions

* `PolicyEngine.Rule.Value`, `PolicyEngine.Rule.Value.cmp`.
* `PolicyEngine.Rule.Value.ofJson`, `PolicyEngine.Rule.Value.toJson?`.
* `PolicyEngine.Rule.Value.display`, `PolicyEngine.Rule.Value.text`.
-/

namespace PolicyEngine.Rule

/-- A value that rules calculate with. -/
inductive Value where
  | null
  | bool (value : Bool)
  | num (value : Decimal)
  | str (value : String)
  | arr (elements : List Value)
  | set (members : List Value)
  | obj (entries : List (Value × Value))
deriving Inhabited

namespace Value

/-- The place of a value's type in the order of types. -/
def rank : Value → Nat
  | null => 0
  | bool _ => 1
  | num _ => 2
  | str _ => 3
  | arr _ => 4
  | set _ => 5
  | obj _ => 6

mutual

/-- The order of values. -/
def cmp : Value → Value → Ordering
  | .null, .null => .eq
  | .bool a, .bool b => compare a b
  | .num a, .num b => compare a b
  | .str a, .str b => compare a b
  | .arr a, .arr b => cmpList a b
  | .set a, .set b => cmpList a b
  | .obj a, .obj b => cmpEntries a b
  | a, b => compare a.rank b.rank

/-- The order of lists of values: by their first difference. -/
def cmpList : List Value → List Value → Ordering
  | [], [] => .eq
  | [], _ :: _ => .lt
  | _ :: _, [] => .gt
  | a :: as, b :: bs => (cmp a b).then (cmpList as bs)

/-- The order of lists of entries: by their first difference, keys before values. -/
def cmpEntries : List (Value × Value) → List (Value × Value) → Ordering
  | [], [] => .eq
  | [], _ :: _ => .lt
  | _ :: _, [] => .gt
  | (k, a) :: as, (l, b) :: bs => ((cmp k l).then (cmp a b)).then (cmpEntries as bs)

end

instance : Ord Value := ⟨cmp⟩

instance : BEq Value := ⟨fun a b => cmp a b == .eq⟩

/-- Put a value into a list in increasing order, unless it is there. -/
def insertMember (x : Value) : List Value → List Value
  | [] => [x]
  | y :: rest =>
    match cmp x y with
    | .lt => x :: y :: rest
    | .eq => y :: rest
    | .gt => y :: insertMember x rest

/-- The set of the values of a list. -/
def setOf (values : List Value) : Value :=
  .set (values.foldl (fun members x => insertMember x members) [])

/-- Put a value under a key into a list of entries by increasing key. -/
def insertEntry (k x : Value) : List (Value × Value) → List (Value × Value)
  | [] => [(k, x)]
  | (l, y) :: rest =>
    match cmp k l with
    | .lt => (k, x) :: (l, y) :: rest
    | .eq => (k, x) :: rest
    | .gt => (l, y) :: insertEntry k x rest

/-- The object with the entries of a list; of two entries under a key the later one stays. -/
def objectOf (entries : List (Value × Value)) : Value :=
  .obj (entries.foldl (fun es e => insertEntry e.1 e.2 es) [])

/-! ### Members -/

/-- Place the elements of a list from a given position on. -/
def enumerate : Nat → List Value → List (Value × Value)
  | _, [] => []
  | i, x :: rest => (.num (.ofInt i), x) :: enumerate (i + 1) rest

/-- The keys of a collection with what stands under them: an array has its positions as keys, and a
set its own members. A scalar is no collection. -/
def members? : Value → Option (List (Value × Value))
  | arr elements => some (enumerate 0 elements)
  | set members => some (members.map fun x => (x, x))
  | obj entries => some entries
  | _ => none

/-- The keys of a value with what stands under them; a scalar has none. -/
def entries (v : Value) : List (Value × Value) := v.members?.getD []

/-- What stands under a key of a value. -/
def lookup? (v key : Value) : Option Value :=
  (v.entries.find? fun e => e.1 == key).map (·.2)

/-- Whether a value makes a condition hold: everything but `false` does. -/
def isTruthy : Value → Bool
  | bool false => false
  | _ => true

/-- What stands under a path of names. -/
def lookupPath? (v : Value) : List String → Option Value
  | [] => some v
  | name :: rest => (v.lookup? (.str name)).bind fun x => x.lookupPath? rest

/-- Put a value under a path of names. What is no object on the way gives way to one. -/
def putAt : Value → List String → Value → Value
  | _, [], x => x
  | v, name :: rest, x =>
    let es := match v with
      | .obj es => es
      | _ => []
    let child := ((Value.obj es).lookup? (.str name)).getD (.obj [])
    .obj (insertEntry (.str name) (child.putAt rest x) es)

/-! ### JSON -/

mutual

/-- A JSON value as a value of rules. -/
def ofJson : Json → Value
  | .null => .null
  | .bool b => .bool b
  | .num n => .num (.ofNumber n)
  | .str s => .str s
  | .arr elements => .arr (ofElements elements)
  | .obj members => .obj (ofMembers members)

/-- JSON elements as values of rules. -/
def ofElements : List Json → List Value
  | [] => []
  | v :: rest => ofJson v :: ofElements rest

/-- JSON members as entries. -/
def ofMembers : List (String × Json) → List (Value × Value)
  | [] => []
  | (name, v) :: rest => (.str name, ofJson v) :: ofMembers rest

end

mutual

/-- A value of rules as JSON, unless it has a number that no JSON number stands for. A set becomes
the array of its members, and a key that is no string the text of its own JSON form. -/
def toJson? : Value → Option Json
  | .null => some .null
  | .bool b => some (.bool b)
  | .num d => d.toNumber?.map .num
  | .str s => some (.str s)
  | .arr elements => (toElements? elements).map .arr
  | .set members => (toElements? members).map .arr
  | .obj entries => (toMembers? entries).map .ofMembers

/-- Values of rules as JSON elements. -/
def toElements? : List Value → Option (List Json)
  | [] => some []
  | v :: rest => do
    let v ← toJson? v
    let others ← toElements? rest
    return v :: others

/-- Entries as JSON members. -/
def toMembers? : List (Value × Value) → Option (List (String × Json))
  | [] => some []
  | (k, v) :: rest => do
    let name ← match k with
      | .str name => some name
      | k => (toJson? k).map Json.render
    let v ← toJson? v
    let others ← toMembers? rest
    return (name, v) :: others

end

/-! ### Texts -/

mutual

/-- How a value is shown inside a text: a blank behind each comma and colon, numbers with all their
digits, and sets in braces. -/
def display : Value → String
  | .null => "null"
  | .bool b => if b then "true" else "false"
  | .num d => d.text
  | .str s => Json.renderString s
  | .arr elements => "[" ++ ", ".intercalate (displayAll elements) ++ "]"
  | .set members => "\x7b" ++ ", ".intercalate (displayAll members) ++ "\x7d"
  | .obj entries => "\x7b" ++ ", ".intercalate (displayEntries entries) ++ "\x7d"

/-- How values are shown. -/
def displayAll : List Value → List String
  | [] => []
  | v :: rest => display v :: displayAll rest

/-- How entries are shown. -/
def displayEntries : List (Value × Value) → List String
  | [] => []
  | (k, v) :: rest => (display k ++ ": " ++ display v) :: displayEntries rest

end

/-- The text of a value: a string is its own text, and anything else is shown. -/
def text : Value → String
  | str s => s
  | v => v.display

end Value

end PolicyEngine.Rule
