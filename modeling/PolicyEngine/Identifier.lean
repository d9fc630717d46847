import PolicyEngine.SortedMap

/-!
# Identifiers

The names of templates, constraints and targets. Each is a type of its own that holds only texts of
its form, and is ordered as its text.

## Main definitions

* `PolicyEngine.TemplateKind`, `PolicyEngine.ConstraintName`, `PolicyEngine.TargetName`.
* `PolicyEngine.ConstraintKey` — a constraint's kind together with its name.
* `PolicyEngine.isShortName` — the form of a template's short names.
* `PolicyEngine.IdentifierError` — a text that is not of the form asked for.
-/

namespace PolicyEngine

/-- A text that is not of the form of an identifier. -/
inductive IdentifierError where
  | templateKind (text : String)
  | constraintName (text : String)
  | targetName (text : String)
  | shortName (text : String)
deriving DecidableEq, Repr

/-- The wording of an identifier error. -/
def IdentifierError.message : IdentifierError → String
  | .templateKind text =>
    "invalid template kind: \"" ++ text ++
      "\" (expected [A-Za-z][A-Za-z0-9]*, at most 63 characters)"
  | .constraintName text =>
    "invalid constraint name: \"" ++ text ++ "\" (expected lowercase alphanumerics, '-' or '.')"
  | .targetName text =>
    "invalid target name: \"" ++ text ++
      "\" (expected lowercase alphanumerics, '.' or '-', not a Rego keyword)"
  | .shortName text =>
    "invalid short name: \"" ++ text ++ "\" (expected lowercase alphanumerics or '-')"

/-- The words of the rule language that cannot name a part of a package path. -/
def keywords : List String :=
  ["as", "contains", "data", "default", "else", "every", "false", "if", "import", "in", "input",
   "not", "null", "package", "some", "true", "with"]

/-- The greatest number of bytes of a kind or a short name. -/
def maxKindSize : Nat := 63

/-- The greatest number of bytes of a constraint's or a target's name. -/
def maxNameSize : Nat := 253

/-- Whether a character is a lower-case letter or a digit. -/
def isLowerOrDigit (c : Char) : Bool := c.isLower || c.isDigit

/-! ### Template kinds -/

namespace TemplateKind

/-- Whether a text is a letter followed by letters and digits, of at most 63 bytes,
and no keyword. -/
def accepts (text : String) : Bool :=
  match text.toList with
  | [] => false
  | c :: rest =>
    c.isAlpha && rest.all Char.isAlphanum && text.utf8ByteSize ≤ maxKindSize &&
      !keywords.contains text

end TemplateKind

/-- The name of a template, and of the constraints that use it. -/
structure TemplateKind where
  /-- The name itself. -/
  text : String
  /-- The name has the form of a kind. -/
  accepted : TemplateKind.accepts text = true
deriving DecidableEq

namespace TemplateKind

/-- The kind with a given text. -/
def ofString (text : String) : Except IdentifierError TemplateKind :=
  if h : accepts text = true then .ok ⟨text, h⟩ else .error (.templateKind text)

theorem ext_text {a b : TemplateKind} (h : a.text = b.text) : a = b := by
  cases a
  cases b
  simp_all

instance : Ord TemplateKind := ⟨compareOn text⟩

instance : Std.TransOrd TemplateKind := inferInstanceAs (Std.TransCmp (compareOn text))

instance : Std.LawfulEqOrd TemplateKind where
  compare_self {a} := (Std.ReflCmp.compare_self : compareOn text a a = .eq)
  eq_of_compare h := ext_text (Std.LawfulEqOrd.eq_of_compare h)

end TemplateKind

/-! ### Constraint names -/

namespace ConstraintName

/-- Whether a text is made of lower-case letters, digits, hyphens and dots, begins and ends with a
letter or digit, and has at most 253 bytes. -/
def accepts (text : String) : Bool :=
  let cs := text.toList
  text.utf8ByteSize ≤ maxNameSize &&
    cs.all (fun c => isLowerOrDigit c || c == '-' || c == '.') &&
    cs.head?.any isLowerOrDigit && cs.getLast?.any isLowerOrDigit

end ConstraintName

/-- The name of a constraint, unique among the constraints of its kind. -/
structure ConstraintName where
  /-- The name itself. -/
  text : String
  /-- The name has the form of a constraint name. -/
  accepted : ConstraintName.accepts text = true
deriving DecidableEq

namespace ConstraintName

/-- The constraint name with a given text. -/
def ofString (text : String) : Except IdentifierError ConstraintName :=
  if h : accepts text = true then .ok ⟨text, h⟩ else .error (.constraintName text)

theorem ext_text {a b : ConstraintName} (h : a.text = b.text) : a = b := by
  cases a
  cases b
  simp_all

instance : Ord ConstraintName := ⟨compareOn text⟩

instance : Std.TransOrd ConstraintName := inferInstanceAs (Std.TransCmp (compareOn text))

instance : Std.LawfulEqOrd ConstraintName where
  compare_self {a} := (Std.ReflCmp.compare_self : compareOn text a a = .eq)
  eq_of_compare h := ext_text (Std.LawfulEqOrd.eq_of_compare h)

end ConstraintName

/-! ### Target names -/

namespace TargetName

/-- The form of a target name inside a package path: dots and hyphens become underscores. -/
def identOf (text : String) : String :=
  String.ofList (text.toList.map fun c => if c == '.' || c == '-' then '_' else c)

/-- Whether a text is a lower-case letter followed by lower-case letters, digits, dots and hyphens,
of at most 253 bytes, whose form in a package path is no keyword. -/
def accepts (text : String) : Bool :=
  match text.toList with
  | [] => false
  | c :: rest =>
    c.isLower && rest.all (fun c => isLowerOrDigit c || c == '.' || c == '-') &&
      text.utf8ByteSize ≤ maxNameSize && !keywords.contains (identOf text)

end TargetName

/-- The name of a target. -/
structure TargetName where
  /-- The name itself. -/
  text : String
  /-- The name has the form of a target name. -/
  accepted : TargetName.accepts text = true
deriving DecidableEq

namespace TargetName

/-- The target name with a given text. -/
def ofString (text : String) : Except IdentifierError TargetName :=
  if h : accepts text = true then .ok ⟨text, h⟩ else .error (.targetName text)

/-- The form of the name inside a package path. -/
def ident (name : TargetName) : String := identOf name.text

theorem ext_text {a b : TargetName} (h : a.text = b.text) : a = b := by
  cases a
  cases b
  simp_all

instance : Ord TargetName := ⟨compareOn text⟩

instance : Std.TransOrd TargetName := inferInstanceAs (Std.TransCmp (compareOn text))

instance : Std.LawfulEqOrd TargetName where
  compare_self {a} := (Std.ReflCmp.compare_self : compareOn text a a = .eq)
  eq_of_compare h := ext_text (Std.LawfulEqOrd.eq_of_compare h)

end TargetName

/-! ### Constraint keys -/

/-- What identifies a constraint: its kind and its name. -/
structure ConstraintKey where
  kind : TemplateKind
  name : ConstraintName
deriving DecidableEq

namespace ConstraintKey

/-- The kind and the name with a slash between them. -/
def text (key : ConstraintKey) : String := key.kind.text ++ "/" ++ key.name.text

instance : Ord ConstraintKey := ⟨compareLex (compareOn kind) (compareOn name)⟩

instance : Std.TransOrd ConstraintKey :=
  inferInstanceAs (Std.TransCmp (compareLex (compareOn kind) (compareOn name)))

instance : Std.LawfulEqOrd ConstraintKey where
  compare_self {a} :=
    (Std.ReflCmp.compare_self : compareLex (compareOn kind) (compareOn name) a a = .eq)
  eq_of_compare {a b} h := by
    have h' : (compare a.kind b.kind).then (compare a.name b.name) = .eq := h
    obtain ⟨hk, hn⟩ := Ordering.then_eq_eq.1 h'
    cases a
    cases b
    simp_all

end ConstraintKey

/-! ### Short names -/

/-- Whether a text is a lower-case letter followed by lower-case letters, digits and hyphens, of at
most 63 bytes. -/
def isShortName (text : String) : Bool :=
  match text.toList with
  | [] => false
  | c :: rest =>
    c.isLower && rest.all (fun c => isLowerOrDigit c || c == '-') &&
      text.utf8ByteSize ≤ maxKindSize

/-- Refuse a text that is no short name. -/
def checkShortName (text : String) : Except IdentifierError Unit :=
  if isShortName text then .ok () else .error (.shortName text)

end PolicyEngine
