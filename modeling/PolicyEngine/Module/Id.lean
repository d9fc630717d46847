import PolicyEngine.Identifier
import PolicyEngine.RuleText.Package

/-!
# Module identifiers

A module is identified by its package path. The module that a template compiles to for a target
stands at `templates.<target>.<Kind>`, and its libraries beneath it at
`templates.<target>.<Kind>.lib.<name>`. These identifiers stay the same when a template is replaced.

## Main definitions

* `PolicyEngine.ModuleId`, `PolicyEngine.ModuleId.forTemplate`, `PolicyEngine.ModuleId.lib`.
* `PolicyEngine.ModuleId.isWithin`, `PolicyEngine.ModuleId.covers` — the nesting of modules.
-/

namespace PolicyEngine

/-- The package path of a module. -/
structure ModuleId where
  path : String
deriving DecidableEq, Repr, Inhabited

namespace ModuleId

theorem ext_path {a b : ModuleId} (h : a.path = b.path) : a = b := by
  cases a
  cases b
  simp_all

instance : Ord ModuleId := ⟨compareOn path⟩

instance : Std.TransOrd ModuleId := inferInstanceAs (Std.TransCmp (compareOn path))

instance : Std.LawfulEqOrd ModuleId where
  compare_self {a} := (Std.ReflCmp.compare_self : compareOn path a a = .eq)
  eq_of_compare h := ext_path (Std.LawfulEqOrd.eq_of_compare h)

/-- The identifier with a given path, which has to be a dotted path of identifiers. -/
def ofPath? (path : String) : Option ModuleId :=
  if RuleText.isDottedPath path then some ⟨path⟩ else none

/-- The module that a template of a kind compiles to for a target. -/
def forTemplate (target : TargetName) (kind : TemplateKind) : ModuleId :=
  ⟨"templates." ++ target.ident ++ "." ++ kind.text⟩

/-- A library beneath a module. The name is what follows `lib.` in the package of the library. -/
def lib (id : ModuleId) (name : String) : ModuleId :=
  ⟨id.path ++ ".lib." ++ name⟩

/-- Whether a module is nested strictly beneath another: its path goes on with a dot where the path
of the other ends. -/
def isWithin (id parent : ModuleId) : Bool :=
  (parent.path.toList ++ ['.']).isPrefixOf id.path.toList

/-- Whether a module is another one or has it nested beneath it. -/
def covers (id other : ModuleId) : Bool :=
  id == other || other.isWithin id

end ModuleId

end PolicyEngine
