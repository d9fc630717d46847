import PolicyEngine.Rule.Function
import PolicyEngine.Rule.Solve

/-!
# Programs

A program is a set of modules with an inventory and an input. Its rules give values to paths of the
data document, and a path that leads to modules has the object of their values. Rules refer to one
another; the depth of references that a program without cycles needs is at most the number of its
rules, and going deeper is an error.

## Main definitions

* `PolicyEngine.Rule.nameValue`, `PolicyEngine.Rule.functionValue` — what the rules of one name
  define.
* `PolicyEngine.Rule.Program`, `PolicyEngine.Rule.Program.resolve`.
* `PolicyEngine.Rule.Program.context` — what names and functions stand for in a module.
-/

namespace PolicyEngine.Rule

/-- Modules with what their rules read. -/
structure Program where
  modules : List Module
  inventory : Value
  input : Value

/-! ### Single rules -/

/-- The only one of the values that several rules give; different values are an error. -/
def agree (values : List Value) : Option (Option Value) :=
  match values with
  | [] => some none
  | v :: rest => if rest.all (· == v) then some (some v) else none

/-- The values of a term under every solution of a rule's body. -/
def bodyValues (ctx : Context) (t : Term) (body : List Condition) (b : Bindings) :
    Option (List Value) :=
  Option.map (fun found => found.map (·.1)) <|
    (solveBody ctx body b).andThen fun _ b => solveTerm ctx t b

/-- The values that the rules of one name contribute, for those heads that a choice picks. -/
def contributions (ctx : Context) (pick : Head → Option Term) (clauses : List Clause) :
    Option (List Value) :=
  Option.map List.flatten <| clauses.mapM fun clause =>
    match pick clause.head with
    | some t => bodyValues ctx t clause.body []
    | none => some []

/-- The term of a head that defines a member of a set. -/
def Head.member? : Head → Option Term
  | .member t => some t
  | _ => none

/-- The term of a head that defines a value. -/
def Head.value? : Head → Option Term
  | .value t => some t
  | _ => none

/-- The term of a head that defines a value for want of another. -/
def Head.fallback? : Head → Option Term
  | .fallback t => some t
  | _ => none

/-- The value that the rules of one name give it: the set of all members, the only value, or that
for want of another. -/
def nameValue (ctx : Context) (clauses : List Clause) : Option (Option Value) :=
  if clauses.any fun clause => (clause.head.member?).isSome then
    (contributions ctx Head.member? clauses).map fun vs => some (.setOf vs)
  else do
    let found ← (contributions ctx Head.value? clauses).bind agree
    match found with
    | some v => return some v
    | none => (contributions ctx Head.fallback? clauses).bind agree

/-- Whether a rule defines a function. -/
def Clause.isFunction (clause : Clause) : Bool :=
  match clause.head with
  | .function .. => true
  | _ => false

/-- The value of a function on arguments, from the rules of its name. -/
def functionValue (ctx : Context) (clauses : List Clause) (args : List Value) :
    Option (Option Value) := do
  let values ← clauses.mapM fun clause =>
    match clause.head with
    | .function params t =>
      if params.length == args.length then bodyValues ctx t clause.body (params.zip args) else none
    | _ => some []
  agree values.flatten

/-! ### Programs -/

namespace Module

/-- The rules of a name. -/
def clausesOf (m : Module) (name : String) : List Clause :=
  m.clauses.filter fun clause => clause.name == name

/-- The names of the rules, each once. -/
def ruleNames (m : Module) : List String := (m.clauses.map (·.name)).eraseDups

end Module

/-- The path of the data document that a function's name stands for: a path from the root, or the
name of a rule of a package. Imports name packages and no functions. -/
def functionPath? (package : Option (List String)) : List String → Option (List String)
  | "data" :: path => some path
  | name => package.map (· ++ name)

namespace Program

/-- The modules that have rules at a path of the data document, with these rules. -/
def clausesAt (p : Program) (path : List String) : List (Module × List Clause) :=
  match path.getLast? with
  | none => []
  | some name =>
    (p.modules.filter fun m => m.package == path.dropLast).filterMap fun m =>
      if (m.clausesOf name).isEmpty then none else some (m, m.clausesOf name)

/-- The first rules on the way along a path, with the rest of the path behind them. -/
def clausesOn? (p : Program) (path : List String) : Option (Module × List Clause × List String) :=
  (List.range path.length).findSome? fun n =>
    (p.clausesAt (path.take (n + 1))).head?.map fun (m, clauses) => (m, clauses, path.drop (n + 1))

/-- Add the values of the rules of a module to a package object, at the module's place in it. -/
def addModule (contextOf : Module → Context) (place : List String) (m : Module) (v : Value) :
    Option Value :=
  let start := if (v.lookupPath? place).isSome then v else v.putAt place (.obj [])
  m.ruleNames.foldlM
    (fun v name =>
      (nameValue (contextOf m) (m.clausesOf name)).map fun
        | some x => v.putAt (place ++ [name]) x
        | none => v)
    start

/-- The value of a path that leads to modules: an object with the values of their rules, in which
each package beneath another is a member of it. Functions and rules without a value are left out. -/
def packageValue (p : Program) (contextOf : Module → Context) (path : List String) :
    Option (Option Value) :=
  match p.modules.filter fun m => path.isPrefixOf m.package with
  | [] => some none
  | modules =>
    (modules.foldlM (fun v m => addModule contextOf (m.package.drop path.length) m v) (.obj [])).map
      some

/-- The value of a path of the data document, given the contexts of modules: the inventory, what
stands in the value of a rule, or a package. The document as a whole shows nothing but the
inventory. -/
def resolve (p : Program) (contextOf : Module → Context) (path : List String) :
    Option (Option Value) :=
  match path with
  | [] => some (some (.obj [(.str "inventory", p.inventory)]))
  | "inventory" :: rest => some (p.inventory.lookupPath? rest)
  | path =>
    match p.clausesOn? path with
    | some (m, clauses, rest) =>
      (nameValue (contextOf m) clauses).map fun v => v.bind fun v => v.lookupPath? rest
    | none => p.packageValue contextOf path

/-- The value of a name in a module, given the contexts of modules: that of its own rules, or else
of what it imports under the name. Any other name is an error. -/
def nameIn (p : Program) (contextOf : Module → Context) (m : Module) (name : String) :
    Option (Option Value) :=
  if (m.clausesOf name).isEmpty then
    (Assoc.get? name m.imports).bind fun path => p.resolve contextOf path
  else nameValue (contextOf m) (m.clausesOf name)

/-- The function of a name in a package, or outside of any, given the contexts of modules: that of
the rules it leads to, or else one that every module has. -/
def function? (p : Program) (contextOf : Module → Context) (package : Option (List String))
    (name : List String) : Option (List Value → Option (Option Value)) :=
  match (functionPath? package name).bind fun path =>
      (p.clausesAt path).find? fun found => found.2.any Clause.isFunction with
  | some (m, clauses) => some (functionValue (contextOf m) clauses)
  | none => builtin? name

/-- What names and functions stand for in a module, when references are followed to a
given depth. -/
def context (p : Program) : (depth : Nat) → Module → Context
  | 0, m =>
    { input := p.input
      isRule := fun name => !(m.clausesOf name).isEmpty
      name := fun _ => none
      resolve := fun _ => none
      function? := fun _ => none }
  | depth + 1, m =>
    { input := p.input
      isRule := fun name => !(m.clausesOf name).isEmpty
      name := p.nameIn (p.context depth) m
      resolve := p.resolve (p.context depth)
      function? := p.function? (p.context depth) (some m.package) }

/-- The number of rules. -/
def size (p : Program) : Nat := (p.modules.flatMap (·.clauses)).length

/-- What names and functions stand for outside of all modules. -/
def rootContext (p : Program) : Context :=
  { input := p.input
    isRule := fun _ => false
    name := fun _ => none
    resolve := p.resolve (p.context (p.size + 1))
    function? := p.function? (p.context (p.size + 1)) none }

end Program

end PolicyEngine.Rule
