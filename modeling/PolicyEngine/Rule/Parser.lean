import PolicyEngine.Rule.Lexeme
import PolicyEngine.Rule.Term

/-!
# Reading modules

A reader of modules from lexemes, by recursive descent. Every step of it reads at least one lexeme
or hands on to a reader of smaller things; the number of lexemes bounds its depth.

## Main definitions

* `PolicyEngine.Rule.readTerm?`, `PolicyEngine.Rule.readBody?`.
* `PolicyEngine.Rule.parse?` — the module that a source describes.
* `PolicyEngine.Rule.isModule` — whether a source is a module at all.
-/

namespace PolicyEngine.Rule

/-- A reader: what it read and the lexemes behind it. -/
abbrev Reader (α : Type) := List Lexeme → Option (α × List Lexeme)

/-- The words that cannot begin a term. -/
def reserved : List String :=
  ["as", "contains", "default", "else", "every", "if", "import", "in", "not", "package", "some",
   "with"]

/-- The lexemes behind a symbol. -/
def symbol? (s : String) : List Lexeme → Option (List Lexeme)
  | ⟨.symbol t, _, _⟩ :: rest => if s == t then some rest else none
  | _ => none

/-- The lexemes behind a word. -/
def word? (s : String) : List Lexeme → Option (List Lexeme)
  | ⟨.word t, _, _⟩ :: rest => if s == t then some rest else none
  | _ => none

/-- Read a word that can name something. -/
def name? : Reader String
  | ⟨.word s, _, _⟩ :: rest => if reserved.contains s then none else some (s, rest)
  | _ => none

/-- Read words with dots directly between them. -/
def path? : Reader (List String)
  | ⟨.word s, _, _⟩ :: rest =>
    match rest with
    | ⟨.symbol ".", false, _⟩ :: more =>
      match path? more with
      | some (path, rest) => some (s :: path, rest)
      | none => some ([s], rest)
    | _ => some ([s], rest)
  | _ => none

/-- The comparison that a symbol denotes. -/
def comparison? (s : String) : Option Comparison :=
  match s with
  | ">" => some .gt
  | "<" => some .lt
  | ">=" => some .ge
  | "<=" => some .le
  | "==" => some .eq
  | "=" => some .eq
  | "!=" => some .ne
  | _ => none

/-- The text of a step that is a plain member name. -/
def Term.memberName? : Term → Option String
  | .const (.str s) => some s
  | _ => none

/-- The words and plain steps of a term that could name a function. -/
def functionName? : Term → Option (List String)
  | .var name => some [name]
  | .ref (.var name) steps => (steps.mapM Term.memberName?).map (name :: ·)
  | _ => none

/-- Add a step to a reference. -/
def addStep (base step : Term) : Term :=
  match base with
  | .ref base steps => .ref base (steps ++ [step])
  | base => .ref base [step]

mutual

/-- Read a term: products with plus and minus between them. -/
def readTerm? : Nat → Reader Term
  | 0, _ => none
  | fuel + 1, ls => do
    let (t, ls) ← readProduct? fuel ls
    readSums? fuel t ls

/-- Read the rest of a sum whose first part is read. -/
def readSums? : Nat → Term → Reader Term
  | 0, _, _ => none
  | fuel + 1, a, ls =>
    match ls with
    | ⟨.symbol "+", _, _⟩ :: rest => do
      let (b, ls) ← readProduct? fuel rest
      readSums? fuel (.binary .add a b) ls
    | ⟨.symbol "-", _, _⟩ :: rest => do
      let (b, ls) ← readProduct? fuel rest
      readSums? fuel (.binary .sub a b) ls
    | ls => some (a, ls)

/-- Read operands with the signs of products between them. -/
def readProduct? : Nat → Reader Term
  | 0, _ => none
  | fuel + 1, ls => do
    let (t, ls) ← readOperand? fuel ls
    readProducts? fuel t ls

/-- Read the rest of a product whose first part is read. -/
def readProducts? : Nat → Term → Reader Term
  | 0, _, _ => none
  | fuel + 1, a, ls =>
    match ls with
    | ⟨.symbol "*", _, _⟩ :: rest => do
      let (b, ls) ← readOperand? fuel rest
      readProducts? fuel (.binary .mul a b) ls
    | ⟨.symbol "%", _, _⟩ :: rest => do
      let (b, ls) ← readOperand? fuel rest
      readProducts? fuel (.binary .rem a b) ls
    | ls => some (a, ls)

/-- Read a constant, a collection, a name or a term in parentheses, with what indexes it. -/
def readOperand? : Nat → Reader Term
  | 0, _ => none
  | fuel + 1, ls =>
    match ls with
    | ⟨.number d, _, _⟩ :: rest => some (.const (.num d), rest)
    | ⟨.symbol "-", _, _⟩ :: ⟨.number d, false, _⟩ :: rest =>
      some (.const (.num ⟨-d.coefficient, d.exponent⟩), rest)
    | ⟨.text s, _, _⟩ :: rest => readSteps? fuel (.const (.str s)) rest
    | ⟨.word "null", _, _⟩ :: rest => some (.const .null, rest)
    | ⟨.word "true", _, _⟩ :: rest => some (.const (.bool true), rest)
    | ⟨.word "false", _, _⟩ :: rest => some (.const (.bool false), rest)
    | ⟨.word s, _, _⟩ :: rest => if reserved.contains s then none else readSteps? fuel (.var s) rest
    | ⟨.symbol "(", _, _⟩ :: rest => do
      let (t, rest) ← readTerm? fuel rest
      let rest ← symbol? ")" rest
      readSteps? fuel t rest
    | ⟨.symbol "[", _, _⟩ :: rest =>
      match symbol? "]" rest with
      | some rest => readSteps? fuel (.array []) rest
      | none => do
        let (t, rest) ← readTerm? fuel rest
        match symbol? "|" rest with
        | some rest =>
          let (body, rest) ← readBody? fuel "]" rest
          readSteps? fuel (.collect t body) rest
        | none =>
          let (items, rest) ← readItems? fuel "]" rest
          readSteps? fuel (.array (t :: items)) rest
    | ⟨.symbol "\x7b", _, _⟩ :: rest =>
      match symbol? "\x7d" rest with
      | some rest => readSteps? fuel (.object []) rest
      | none => do
        let (t, rest) ← readTerm? fuel rest
        match symbol? "|" rest, symbol? ":" rest with
        | some rest, _ =>
          let (body, rest) ← readBody? fuel "\x7d" rest
          readSteps? fuel (.collectSet t body) rest
        | none, some rest =>
          let (v, rest) ← readTerm? fuel rest
          let (entries, rest) ← readEntries? fuel rest
          readSteps? fuel (.object ((t, v) :: entries)) rest
        | none, none =>
          let (items, rest) ← readItems? fuel "\x7d" rest
          readSteps? fuel (.set (t :: items)) rest
    | _ => none

/-- Read what directly follows an operand: member names, keys in brackets, and arguments. -/
def readSteps? : Nat → Term → Reader Term
  | 0, _, _ => none
  | fuel + 1, t, ls =>
    match ls with
    | ⟨.symbol ".", false, _⟩ :: ⟨.word s, false, _⟩ :: rest =>
      readSteps? fuel (addStep t (.const (.str s))) rest
    | ⟨.symbol "[", false, _⟩ :: rest => do
      let (key, rest) ← readTerm? fuel rest
      let rest ← symbol? "]" rest
      readSteps? fuel (addStep t key) rest
    | ⟨.symbol "(", false, _⟩ :: rest => do
      let name ← functionName? t
      match symbol? ")" rest with
      | some rest => readSteps? fuel (.call name []) rest
      | none =>
        let (first, rest) ← readTerm? fuel rest
        let (others, rest) ← readItems? fuel ")" rest
        readSteps? fuel (.call name (first :: others)) rest
    | ls => some (t, ls)

/-- Read further items up to a closing symbol; a comma may stand before it. -/
def readItems? : Nat → String → Reader (List Term)
  | 0, _, _ => none
  | fuel + 1, close, ls =>
    match symbol? close ls with
    | some rest => some ([], rest)
    | none => do
      let rest ← symbol? "," ls
      match symbol? close rest with
      | some rest => some ([], rest)
      | none =>
        let (t, rest) ← readTerm? fuel rest
        let (others, rest) ← readItems? fuel close rest
        return (t :: others, rest)

/-- Read further entries of an object up to its end; a comma may stand before it. -/
def readEntries? : Nat → Reader (List (Term × Term))
  | 0, _ => none
  | fuel + 1, ls =>
    match symbol? "\x7d" ls with
    | some rest => some ([], rest)
    | none => do
      let rest ← symbol? "," ls
      match symbol? "\x7d" rest with
      | some rest => some ([], rest)
      | none =>
        let (k, rest) ← readTerm? fuel rest
        let rest ← symbol? ":" rest
        let (v, rest) ← readTerm? fuel rest
        let (others, rest) ← readEntries? fuel rest
        return ((k, v) :: others, rest)

/-- Read a condition. -/
def readCondition? : Nat → Reader Condition
  | 0, _ => none
  | fuel + 1, ls =>
    match ls with
    | ⟨.word "not", _, _⟩ :: rest => do
      let (c, rest) ← readCondition? fuel rest
      return (.fails c, rest)
    | ⟨.word "some", _, _⟩ :: rest => do
      let (x, rest) ← name? rest
      match symbol? "," rest with
      | some rest =>
        let (y, rest) ← name? rest
        let rest ← word? "in" rest
        let (t, rest) ← readTerm? fuel rest
        return (.someEntry x y t, rest)
      | none =>
        let rest ← word? "in" rest
        let (t, rest) ← readTerm? fuel rest
        return (.someMember x t, rest)
    | ls => do
      let (a, rest) ← readTerm? fuel ls
      match a, rest with
      | .var x, ⟨.symbol ":=", _, _⟩ :: rest =>
        let (t, rest) ← readTerm? fuel rest
        return (.assign x t, rest)
      | a, ⟨.symbol s, _, _⟩ :: more =>
        match comparison? s with
        | some op =>
          let (b, rest) ← readTerm? fuel more
          return (.compare op a b, rest)
        | none => return (.holds a, rest)
      | a, rest => return (.holds a, rest)

/-- Read conditions up to a closing symbol, with semicolons or line ends between them. -/
def readBody? : Nat → String → Reader (List Condition)
  | 0, _, _ => none
  | fuel + 1, close, ls => do
    let (c, rest) ← readCondition? fuel ls
    match rest with
    | ⟨.symbol s, _, newLine⟩ :: more =>
      if s == close then return ([c], more)
      else if s == ";" then
        match symbol? close more with
        | some rest => return ([c], rest)
        | none =>
          let (others, rest) ← readBody? fuel close more
          return (c :: others, rest)
      else if newLine then
        let (others, rest) ← readBody? fuel close rest
        return (c :: others, rest)
      else none
    | ⟨_, _, true⟩ :: _ =>
      let (others, rest) ← readBody? fuel close rest
      return (c :: others, rest)
    | _ => none

end

/-! ### Rules -/

/-- Read the body of a rule: conditions in braces, or behind `if` also a single one. A rule without
a body always applies. -/
def readRuleBody? (fuel : Nat) : Reader (List Condition)
  | ⟨.symbol "\x7b", _, _⟩ :: rest => readBody? fuel "\x7d" rest
  | ⟨.word "if", _, _⟩ :: ⟨.symbol "\x7b", _, _⟩ :: rest => readBody? fuel "\x7d" rest
  | ⟨.word "if", _, _⟩ :: rest => (readCondition? fuel rest).map fun (c, rest) => ([c], rest)
  | rest => some ([], rest)

/-- The lexemes behind the sign that gives a rule its value. -/
def defining? : List Lexeme → Option (List Lexeme)
  | ⟨.symbol ":=", _, _⟩ :: rest => some rest
  | ⟨.symbol "=", _, _⟩ :: rest => some rest
  | _ => none

/-- Read parameters up to the closing parenthesis. -/
def readParams? : Reader (List String)
  | ⟨.symbol ")", _, _⟩ :: rest => some ([], rest)
  | ⟨.word x, _, _⟩ :: ⟨.symbol ")", _, _⟩ :: rest => some ([x], rest)
  | ⟨.word x, _, _⟩ :: ⟨.symbol ",", _, _⟩ :: rest =>
    (readParams? rest).map fun (xs, rest) => (x :: xs, rest)
  | _ => none

/-- The value of a rule that states none. -/
def trueTerm : Term := .const (.bool true)

/-- Read the value of a rule, if it states one. -/
def readRuleValue? (fuel : Nat) (ls : List Lexeme) : Option (Term × List Lexeme) :=
  match defining? ls with
  | some rest => readTerm? fuel rest
  | none => some (trueTerm, ls)

/-- Read a rule. -/
def readClause? (fuel : Nat) : Reader Clause
  | ⟨.word "default", _, _⟩ :: ls => do
    let (name, ls) ← name? ls
    let (t, ls) ← readTerm? fuel (← defining? ls)
    return (⟨name, .fallback t, []⟩, ls)
  | ls => do
    let (name, ls) ← name? ls
    let (head, ls) ← match ls with
      | ⟨.word "contains", _, _⟩ :: rest =>
        (readTerm? fuel rest).map fun (t, rest) => (Head.member t, rest)
      | ⟨.symbol "[", false, _⟩ :: rest => do
        let (t, rest) ← readTerm? fuel rest
        let rest ← symbol? "]" rest
        some (.member t, rest)
      | ⟨.symbol "(", false, _⟩ :: rest => do
        let (params, rest) ← readParams? rest
        let (t, rest) ← readRuleValue? fuel rest
        some (.function params t, rest)
      | ⟨.symbol "\x7b", _, _⟩ :: _ => some (.value trueTerm, ls)
      | ⟨.word "if", _, _⟩ :: _ => some (.value trueTerm, ls)
      | ls => do
        let (t, rest) ← readTerm? fuel (← defining? ls)
        some (.value t, rest)
    let (body, ls) ← readRuleBody? fuel ls
    return (⟨name, head, body⟩, ls)

/-- Read all rules of a module; the first argument bounds their number. -/
def readClauses? : Nat → List Lexeme → Option (List Clause)
  | _, [] => some []
  | 0, _ => none
  | fuel + 1, ls => do
    let (clause, ls) ← readClause? (fuel + 1) ls
    let others ← readClauses? fuel ls
    return clause :: others

/-- The name and the package that an import gives a module. Only imports of data have one. -/
def importName? (path : List String) : Option (String × List String) :=
  match path with
  | "data" :: package => package.getLast?.map (·, package)
  | _ => none

/-- Read the imports of a module; the first argument bounds their number. -/
def readImports? : Nat → Reader (List (String × List String))
  | 0, _ => none
  | fuel + 1, ls =>
    match word? "import" ls with
    | none => some ([], ls)
    | some ls => do
      let (path, ls) ← path? ls
      let (named, ls) ← match ls with
        | ⟨.word "as", _, _⟩ :: rest =>
          (name? rest).map fun (x, rest) => ((importName? path).map fun (_, p) => (x, p), rest)
        | ls => some (importName? path, ls)
      let (others, ls) ← readImports? fuel ls
      return (named.toList ++ others, ls)

/-- How deep the readers go at most for some lexemes. -/
def readingBound (ls : List Lexeme) : Nat := 8 * (ls.length + 1)

/-- The module that a source describes. -/
def parse? (source : String) : Option Module := do
  let ls ← lex? source
  let bound := readingBound ls
  let (package, ls) ← path? (← word? "package" ls)
  let (imports, ls) ← readImports? bound ls
  let clauses ← readClauses? bound ls
  return { package, imports, clauses }

/-! ### Well-formed sources -/

/-- The bracket that closes what a symbol opens, if it opens anything. -/
def closing? (s : String) : Option String :=
  match s with
  | "(" => some ")"
  | "[" => some "]"
  | "\x7b" => some "\x7d"
  | _ => none

/-- Whether brackets close in the order in which they open, given the closings that are due. -/
def balanced : (due : List String) → List Lexeme → Bool
  | due, [] => due.isEmpty
  | due, ⟨.symbol s, _, _⟩ :: rest =>
    match closing? s with
    | some close => balanced (close :: due) rest
    | none =>
      if s == ")" || s == "]" || s == "\x7d" then due.head? == some s && balanced due.tail rest
      else balanced due rest
  | due, _ :: rest => balanced due rest

/-- Whether a source is a module at all: its texts end, it begins with the path of a package, and
its brackets balance. Whether its rules are ones of this language shows only when they are
evaluated. -/
def isModule (source : String) : Bool :=
  match lex? source with
  | none => false
  | some ls => ((word? "package" ls).bind path?).isSome && balanced [] ls

end PolicyEngine.Rule
