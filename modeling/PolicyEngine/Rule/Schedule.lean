import PolicyEngine.Rule.Variables

/-!
# The order of conditions

Conditions are solved in an order in which every variable has a value before it is needed. Variables
are gone through by name, and each takes with it the conditions that define it and can be solved by
then; a condition that defines nothing is solved as soon as what it needs is there. A body that has
no such order keeps that of its source.

## Main definitions

* `PolicyEngine.Rule.Definition`, `PolicyEngine.Rule.Condition.definitions`.
* `PolicyEngine.Rule.scheduled` — the conditions of a body in this order.
* `PolicyEngine.Rule.Module.scheduled` — a module with all bodies in this order.
-/

namespace PolicyEngine.Rule

/-- What solving a condition gives a value to, and the variables that need one before. -/
structure Definition where
  /-- The variable; nothing for a condition that is only tested. -/
  target : Option String
  needs : List String
deriving DecidableEq, Repr

/-- The definitions of a condition: those of variables in brackets, and those by name. A condition
without a variable of its own is tested. -/
def Condition.definitions (c : Condition) : List Definition :=
  let own := if c.defined.isEmpty then [none] else c.defined.map some
  c.indexed.map (fun (x, needs) => ⟨some x, needs⟩) ++ own.map fun x => ⟨x, c.variables true⟩

/-- A body of which some conditions have their place. -/
structure Schedule where
  /-- The conditions that have a place, last first. -/
  placed : List Condition := []
  /-- The other conditions with their definitions, in the order of the source. -/
  waiting : List (Condition × List Definition)
  /-- The variables that have values. -/
  known : List String := []

namespace Schedule

/-- Place those of some conditions that define a variable, or nothing, and have what they need for
it. -/
def placeFrom (x : Option String) (s : Schedule) : List (Condition × List Definition) → Schedule
  | [] => s
  | (c, defs) :: rest =>
    if defs.any fun d => d.target == x && d.needs.all s.known.contains then
      placeFrom x
        { s with placed := c :: s.placed, known := s.known ++ defs.filterMap (·.target) } rest
    else placeFrom x { s with waiting := s.waiting ++ [(c, defs)] } rest

/-- Place what defines a variable, or nothing, and can be placed. -/
def place (x : Option String) (s : Schedule) : Schedule :=
  placeFrom x { s with waiting := [] } s.waiting

/-- Whether a schedule places more conditions than another. -/
def isLongerThan (s t : Schedule) : Bool := t.placed.length < s.placed.length

/-- Place what defines a variable, and then, if there was anything, the tests that have become
possible. -/
def visit (s : Schedule) (x : Option String) : Schedule :=
  let t := s.place x
  if t.isLongerThan s then t.place none else t

/-- Visit all variables again and again as long as that places conditions; at most as often as a
bound. -/
def complete (order : List (Option String)) : Nat → Schedule → Schedule
  | 0, s => s
  | bound + 1, s =>
    let t := order.foldl visit s
    if t.isLongerThan s then complete order bound t else t

end Schedule

/-- The variables of definitions by name, after what defines nothing. -/
def visitingOrder (defs : List Definition) : List (Option String) :=
  none :: ((defs.filterMap (·.target)).eraseDups.mergeSort fun x y => !(y < x)).map some

/-- The variables that a body gives values to when some have values from outside. These can be
defined anew only by name. -/
def ownVariables (outer : List String) (body : List Condition) : List String :=
  body.flatMap Condition.defined ++
    (body.flatMap Condition.introduced).filter fun x => !outer.contains x

/-- The definitions of a condition as far as they concern the variables of its body. -/
def Condition.definitionsIn (own : List String) (c : Condition) : List Definition :=
  (c.definitions.filter fun d => d.target.all own.contains).map fun d =>
    { d with needs := d.needs.filter own.contains }

/-- The conditions of a body in an order in which variables have values before they are needed, if
there is one, and otherwise in their own order. -/
def scheduled (outer : List String) (body : List Condition) : List Condition :=
  let own := ownVariables outer body
  let waiting := body.map fun c => (c, c.definitionsIn own)
  let start : Schedule := { waiting }
  let final := start.complete (visitingOrder (waiting.flatMap (·.2))) body.length
  if final.waiting.isEmpty then final.placed.reverse else body

mutual

/-- A term whose gathered collections have their conditions in order. -/
def Term.scheduled (outer : List String) : Term → Term
  | .const v => .const v
  | .var x => .var x
  | .array items => .array (scheduledList outer items)
  | .set items => .set (scheduledList outer items)
  | .object entries => .object (scheduledEntries outer entries)
  | .ref base steps => .ref (base.scheduled outer) (scheduledList outer steps)
  | .call name args => .call name (scheduledList outer args)
  | .binary op a b => .binary op (a.scheduled outer) (b.scheduled outer)
  | .collect head body =>
    let inner := outer ++ ownVariables outer body
    .collect (head.scheduled inner) (Rule.scheduled outer (scheduledParts inner body))
  | .collectSet head body =>
    let inner := outer ++ ownVariables outer body
    .collectSet (head.scheduled inner) (Rule.scheduled outer (scheduledParts inner body))

/-- Terms whose gathered collections have their conditions in order. -/
def scheduledList (outer : List String) : List Term → List Term
  | [] => []
  | t :: rest => t.scheduled outer :: scheduledList outer rest

/-- Entries whose gathered collections have their conditions in order. -/
def scheduledEntries (outer : List String) : List (Term × Term) → List (Term × Term)
  | [] => []
  | (k, t) :: rest => (k.scheduled outer, t.scheduled outer) :: scheduledEntries outer rest

/-- A condition whose gathered collections have their conditions in order. -/
def Condition.scheduled (outer : List String) : Condition → Condition
  | .holds t => .holds (t.scheduled outer)
  | .fails c => .fails (c.scheduled outer)
  | .assign x t => .assign x (t.scheduled outer)
  | .compare op a b => .compare op (a.scheduled outer) (b.scheduled outer)
  | .someMember x t => .someMember x (t.scheduled outer)
  | .someEntry k x t => .someEntry k x (t.scheduled outer)

/-- Conditions in their own order whose gathered collections have their conditions in order. -/
def scheduledParts (outer : List String) : List Condition → List Condition
  | [] => []
  | c :: rest => c.scheduled outer :: scheduledParts outer rest

end

/-- A head whose gathered collections have their conditions in order. -/
def Head.scheduled (outer : List String) : Head → Head
  | .member t => .member (t.scheduled outer)
  | .value t => .value (t.scheduled outer)
  | .function params t => .function params (t.scheduled outer)
  | .fallback t => .fallback (t.scheduled outer)

/-- A module whose bodies have their conditions in order. -/
def Module.scheduled (m : Module) : Module :=
  { m with
    clauses := m.clauses.map fun clause =>
      let outer := m.outerVariables clause
      let inner := outer ++ ownVariables outer clause.body
      { clause with
        head := clause.head.scheduled inner
        body := Rule.scheduled outer (scheduledParts inner clause.body) } }

end PolicyEngine.Rule
