import PolicyEngine.Rule.Value

/-!
# Terms, conditions and rules

The structure of a module: its package, the packages it imports, and its rules. A rule has a head,
which says what it defines, and a body of conditions.

## Main definitions

* `PolicyEngine.Rule.Term`, `PolicyEngine.Rule.Condition`.
* `PolicyEngine.Rule.Head`, `PolicyEngine.Rule.Clause`, `PolicyEngine.Rule.Module`.
-/

namespace PolicyEngine.Rule

/-- The name of variables that are not looked at. -/
def wildcard : String := "_"

/-- The operations on numbers. -/
inductive Operation where
  | add
  | sub
  | mul
  | rem
deriving DecidableEq, Repr

/-- The comparisons of values. -/
inductive Comparison where
  | gt
  | lt
  | ge
  | le
  | eq
  | ne
deriving DecidableEq, Repr

/-- Whether a comparison holds of two values in a given order. -/
def Comparison.holds : Comparison → Ordering → Bool
  | gt, o => o == .gt
  | lt, o => o == .lt
  | ge, o => o != .lt
  | le, o => o != .gt
  | eq, o => o == .eq
  | ne, o => o != .eq

mutual

/-- An expression that has values. -/
inductive Term where
  | const (value : Value)
  | var (name : String)
  | array (items : List Term)
  | set (items : List Term)
  | object (entries : List (Term × Term))
  /-- What stands under keys, one after another. -/
  | ref (base : Term) (steps : List Term)
  | call (name : List String) (args : List Term)
  | binary (op : Operation) (a b : Term)
  /-- The array of the values that a term has under conditions. -/
  | collect (head : Term) (body : List Condition)
  /-- The set of the values that a term has under conditions. -/
  | collectSet (head : Term) (body : List Condition)

/-- What a rule demands. -/
inductive Condition where
  /-- A term has a value other than `false`. -/
  | holds (t : Term)
  /-- A condition does not hold. -/
  | fails (c : Condition)
  /-- A variable stands for the value of a term. -/
  | assign (name : String) (t : Term)
  /-- Two terms have values that compare in a certain way. -/
  | compare (op : Comparison) (a b : Term)
  /-- A variable stands for a member of a collection. -/
  | someMember (name : String) (t : Term)
  /-- Two variables stand for a key of a collection and for what is under it. -/
  | someEntry (key name : String) (t : Term)

end

instance : Inhabited Term := ⟨.const .null⟩

/-- What a rule defines. -/
inductive Head where
  /-- A member of a set. -/
  | member (t : Term)
  /-- A value. -/
  | value (t : Term)
  /-- The value of a function. -/
  | function (params : List String) (t : Term)
  /-- The value if no other rule gives one. -/
  | fallback (t : Term)

/-- A rule. -/
structure Clause where
  name : String
  head : Head
  body : List Condition := []

/-- A module of rules. -/
structure Module where
  package : List String
  /-- The packages that the module imports, by the names it gives them. -/
  imports : List (String × List String) := []
  clauses : List Clause := []

end PolicyEngine.Rule
