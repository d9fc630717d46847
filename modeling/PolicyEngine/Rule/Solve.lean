import PolicyEngine.Rule.Variables

/-!
# Solutions of conditions

Terms and conditions are solved from left to right under bindings of variables. A term may have
several values, each under bindings of its own, and a condition several bindings under which it
holds; a term without values makes the condition around it fail. Solving ends early only with an
error.

What a name or a function stands for is the business of the module around it, so solving takes a
`PolicyEngine.Rule.Context` that answers these questions.

## Main definitions

* `PolicyEngine.Rule.Place` — a value, or a place in the data document.
* `PolicyEngine.Rule.Context` — what names and functions stand for.
* `PolicyEngine.Rule.solveTerm`, `PolicyEngine.Rule.solveBody`.
-/

namespace PolicyEngine.Rule

/-- The values of variables. -/
abbrev Bindings := List (String × Value)

/-- Results under the bindings that lead to them; nothing stands for an error. -/
abbrev Solutions (α : Type) := Option (List (α × Bindings))

/-- The one result under given bindings. -/
def Solutions.one (x : α) (b : Bindings) : Solutions α := some [(x, b)]

/-- Continue from every result, keeping the order. -/
def Solutions.andThen (s : Solutions α) (next : α → Bindings → Solutions β) : Solutions β :=
  (Option.bind s fun results => results.mapM fun r => next r.1 r.2).map List.flatten

/-- A single result that depends on all results at once, under given bindings. -/
def Solutions.gather (s : Solutions α) (f : List α → β) (b : Bindings) : Solutions β :=
  Option.map (fun results => [(f (results.map (·.1)), b)]) s

/-- What a reference has reached. -/
inductive Place where
  | value (v : Value)
  /-- A path of the data document that is not looked up yet. -/
  | document (path : List String)

/-- What names and functions stand for in a module. -/
structure Context where
  input : Value
  /-- Whether a name is that of a rule of the module. -/
  isRule : String → Bool
  /-- The value of a name that is no variable, if it has one; the outer `none` stands for an error,
  also when the name stands for nothing at all. -/
  name : String → Option (Option Value)
  /-- The value of a path of the data document, if it has one; the outer `none` stands for
  an error. -/
  resolve : List String → Option (Option Value)
  /-- The function of a name, if there is one. On arguments it has at most one value; the outer
  `none` stands for an error. -/
  function? : List String → Option (List Value → Option (Option Value))

/-- Results without bindings of their own. -/
def Solutions.ofOption (x : Option (Option α)) (b : Bindings) : Solutions α :=
  x.map fun
    | some y => [(y, b)]
    | none => []

/-- Let a variable stand for a value. -/
def bindName (b : Bindings) (name : String) (v : Value) : Bindings :=
  if name == wildcard then b else (name, v) :: b

/-- Whether a name is a variable without a value. -/
def isFree (ctx : Context) (b : Bindings) (name : String) : Bool :=
  name != "input" && name != "data" && !Assoc.contains name b && !ctx.isRule name

/-- The value of a name. -/
def solveName (ctx : Context) (name : String) (b : Bindings) : Solutions Value :=
  match Assoc.get? name b with
  | some v => .one v b
  | none =>
    if name == "input" then .one ctx.input b
    else .ofOption (if name == "data" then ctx.resolve [] else ctx.name name) b

/-- Whether a term is the data document as a whole. -/
def isDocument (b : Bindings) : Term → Bool
  | .var name => name == "data" && !Assoc.contains name b
  | _ => false

/-- The value of a place. -/
def placeValue (ctx : Context) (p : Place) (b : Bindings) : Solutions Value :=
  match p with
  | .value v => .one v b
  | .document path => .ofOption (ctx.resolve path) b

/-- What stands under a key of a value. -/
def stepKey (v key : Value) (b : Bindings) : Solutions Value :=
  .ofOption (some (v.lookup? key)) b

/-- What stands under every key of a value, with the key as the value of a variable. -/
def stepEach (v : Value) (name : String) (b : Bindings) : Solutions Value :=
  some (v.entries.map fun (key, x) => (x, bindName b name key))

/-- The value of an operation on whole numbers; it has none on anything else, nor for a remainder by
zero. -/
def calculate (op : Operation) (a b : Value) : Option Value :=
  match a, b with
  | .num x, .num y =>
    let (m, n, e) := x.align y
    match op with
    | .add => some (.num (.normal (m + n) e))
    | .sub => some (.num (.normal (m - n) e))
    | .mul => some (.num (.normal (x.coefficient * y.coefficient) (x.exponent + y.exponent)))
    | .rem => do
      let m ← x.toInt?
      let n ← y.toInt?
      if n == 0 then none else some (.num (.ofInt (m.tmod n)))
  | _, _ => none

mutual

/-- The values of a term. -/
def solveTerm (ctx : Context) : Term → Bindings → Solutions Value
  | .const v, b => .one v b
  | .var name, b => solveName ctx name b
  | .array items, b => (solveTerms ctx items b).andThen fun vs b => .one (.arr vs) b
  | .set items, b => (solveTerms ctx items b).andThen fun vs b => .one (.setOf vs) b
  | .object entries, b => (solveEntries ctx entries b).andThen fun es b => .one (.objectOf es) b
  | .ref base steps, b =>
    if isDocument b base then solveSteps ctx steps (.document []) b
    else (solveTerm ctx base b).andThen fun v b => solveSteps ctx steps (.value v) b
  | .call name args, b =>
    match ctx.function? name with
    | none => none
    | some f => (solveTerms ctx args b).andThen fun vs b => .ofOption (f vs) b
  | .binary op x y, b =>
    (solveTerm ctx x b).andThen fun v b =>
      (solveTerm ctx y b).andThen fun w b => .ofOption (some (calculate op v w)) b
  | .collect head body, b =>
    ((solveBody ctx body b).andThen fun _ b => solveTerm ctx head b).gather .arr b
  | .collectSet head body, b =>
    ((solveBody ctx body b).andThen fun _ b => solveTerm ctx head b).gather .setOf b

/-- The values of a reference along its steps. Plain names lead on in the data document, and
anything else looks up what has been reached. A free variable as a step runs through all keys. -/
def solveSteps (ctx : Context) : List Term → Place → Bindings → Solutions Value
  | [], p, b => placeValue ctx p b
  | .const (.str s) :: rest, .document path, b => solveSteps ctx rest (.document (path ++ [s])) b
  | .var name :: rest, p, b =>
    (placeValue ctx p b).andThen fun v b =>
      (if isFree ctx b name then stepEach v name b
        else (solveName ctx name b).andThen fun key b => stepKey v key b).andThen
          fun x b => solveSteps ctx rest (.value x) b
  | step :: rest, p, b =>
    (placeValue ctx p b).andThen fun v b =>
      ((solveTerm ctx step b).andThen fun key b => stepKey v key b).andThen
        fun x b => solveSteps ctx rest (.value x) b

/-- The values of several terms. -/
def solveTerms (ctx : Context) : List Term → Bindings → Solutions (List Value)
  | [], b => .one [] b
  | t :: rest, b =>
    (solveTerm ctx t b).andThen fun v b =>
      (solveTerms ctx rest b).andThen fun vs b => .one (v :: vs) b

/-- The values of the entries of an object. -/
def solveEntries (ctx : Context) : List (Term × Term) → Bindings → Solutions (List (Value × Value))
  | [], b => .one [] b
  | (k, t) :: rest, b =>
    (solveTerm ctx k b).andThen fun key b =>
      (solveTerm ctx t b).andThen fun v b =>
        (solveEntries ctx rest b).andThen fun es b => .one ((key, v) :: es) b

/-- The bindings under which a condition holds. -/
def solveCondition (ctx : Context) : Condition → Bindings → Solutions Unit
  | .holds t, b =>
    (solveTerm ctx t b).andThen fun v b => some (if v.isTruthy then [((), b)] else [])
  | .fails c, b =>
    Option.map (fun found => if found.isEmpty then [((), b)] else []) (solveCondition ctx c b)
  | .assign name t, b => (solveTerm ctx t b).andThen fun v b => .one () (bindName b name v)
  | .compare op x y, b =>
    match solveTerm ctx x b with
    -- a side that is missing does not keep the other one from being an error
    | some [] => if x.runs then some [] else Option.map (fun _ => []) (solveTerm ctx y b)
    | found => Solutions.andThen found fun v b =>
      (solveTerm ctx y b).andThen fun w b =>
        some (if op.holds (v.cmp w) then [((), b)] else [])
  | .someMember name t, b =>
    (solveTerm ctx t b).andThen fun v b =>
      v.members?.map fun es => es.map fun (_, x) => ((), bindName b name x)
  | .someEntry key name t, b =>
    (solveTerm ctx t b).andThen fun v b =>
      v.members?.map fun es => es.map fun (k, x) => ((), bindName (bindName b key k) name x)

/-- The bindings under which all conditions hold. -/
def solveBody (ctx : Context) : List Condition → Bindings → Solutions Unit
  | [], b => .one () b
  | c :: rest, b => (solveCondition ctx c b).andThen fun _ b => solveBody ctx rest b

end

end PolicyEngine.Rule
