import PolicyEngine.Number.Double
import PolicyEngine.SortedMap

/-!
# JSON documents

JSON values. A number is an integer or a double, and the two never compare equal. The members of an
object are listed by increasing key.

## Main definitions

* `PolicyEngine.Json` — the values, with `PolicyEngine.Json.beq` as their equality.
* `PolicyEngine.Json.Canonical` — every object lists its members by strictly increasing key.
* `PolicyEngine.Json.get?` — a member of an object.
-/

namespace PolicyEngine

/-- A JSON number. -/
inductive Number where
  /-- A number written without fraction and exponent, within 64 bits. -/
  | integer (n : Int)
  /-- Any other number. -/
  | double (x : Double)
deriving DecidableEq, Repr, Inhabited

namespace Number

/-- Whether two numbers are of one form and have the same value. -/
instance : BEq Number where
  beq
    | integer m, integer n => m == n
    | double x, double y => x == y
    | _, _ => false

/-- Whether the value is a whole number. -/
def isInteger : Number → Bool
  | integer _ => true
  | double x => x.isInteger

end Number

/-- A JSON value. -/
inductive Json where
  | null
  | bool (value : Bool)
  | num (value : Number)
  | str (value : String)
  | arr (elements : List Json)
  | obj (members : List (String × Json))
deriving Inhabited

namespace Json

/-- An integer value. -/
def ofInt (n : Int) : Json := .num (.integer n)

/-- A count as a value. -/
def ofNat (n : Nat) : Json := ofInt n

/-- The object with the given members; of two members under a key the later one stays. -/
def ofMembers (members : List (String × Json)) : Json := .obj (Assoc.ofList members)

/-- The object without members. -/
def emptyObject : Json := .obj []

mutual

/-- Equality of values: numbers of one form with one value, and otherwise part by part. -/
def beq : Json → Json → Bool
  | .null, .null => true
  | .bool a, .bool b => a == b
  | .num a, .num b => a == b
  | .str a, .str b => a == b
  | .arr a, .arr b => beqElements a b
  | .obj a, .obj b => beqMembers a b
  | _, _ => false

/-- Equality of element lists. -/
def beqElements : List Json → List Json → Bool
  | [], [] => true
  | a :: as, b :: bs => beq a b && beqElements as bs
  | _, _ => false

/-- Equality of member lists. -/
def beqMembers : List (String × Json) → List (String × Json) → Bool
  | [], [] => true
  | (k, a) :: as, (l, b) :: bs => k == l && beq a b && beqMembers as bs
  | _, _ => false

end

instance : BEq Json := ⟨beq⟩

mutual

/-- Every object, at any depth, lists its members by strictly increasing key. -/
def Canonical : Json → Prop
  | .arr elements => CanonicalElements elements
  | .obj members => Assoc.Sorted members ∧ CanonicalMembers members
  | _ => True

/-- Every element is canonical. -/
def CanonicalElements : List Json → Prop
  | [] => True
  | v :: rest => Canonical v ∧ CanonicalElements rest

/-- Every member's value is canonical. -/
def CanonicalMembers : List (String × Json) → Prop
  | [] => True
  | (_, v) :: rest => Canonical v ∧ CanonicalMembers rest

end

/-- The member of an object under a key. -/
def get? (key : String) : Json → Option Json
  | .obj members => Assoc.get? key members
  | _ => none

/-- The elements of an array. -/
def elements? : Json → Option (List Json)
  | .arr elements => some elements
  | _ => none

/-- The text of a string. -/
def text? : Json → Option String
  | .str s => some s
  | _ => none

/-- Whether the value is an object. -/
def isObject : Json → Bool
  | .obj _ => true
  | _ => false

/-- The name of the value's type. Integers are told apart from the other numbers. -/
def typeName : Json → String
  | .null => "null"
  | .bool _ => "boolean"
  | .num (.integer _) => "integer"
  | .num (.double _) => "number"
  | .str _ => "string"
  | .arr _ => "array"
  | .obj _ => "object"

/-- The name of the value's type, with one name for all numbers. -/
def basicTypeName : Json → String
  | .num _ => "number"
  | v => v.typeName

/-- The texts among the elements of an array member, when there is such a member. -/
def strings? (key : String) (v : Json) : Option (List String) :=
  ((v.get? key).bind elements?).map fun elements => elements.filterMap text?

/-- Whether the value is null. -/
def isNull : Json → Bool
  | .null => true
  | _ => false

end Json

end PolicyEngine
