import PolicyEngine.Json.Pointer
import PolicyEngine.Json.Printer
import PolicyEngine.Schema.Document

/-!
# Checking values against schemas

A value is checked against a schema by walking both together. The walk goes on after a fault, so its
result lists every fault of the value: first those of a node itself, then those of its members in
their order.

## Main definitions

* `PolicyEngine.Schema.Violation` — a place of a value and what is wrong there.
* `PolicyEngine.Schema.violations` — everything that is wrong with a value.
* `PolicyEngine.Schema.accepts` — whether nothing is.
-/

namespace PolicyEngine.Schema

/-- What is wrong with a value. -/
inductive Violation.Fault where
  /-- The value is null and the node does not allow it. -/
  | null
  /-- The value is none of the listed ones. -/
  | notAllowed (value : Json)
  /-- The value has another type than the node. -/
  | wrongType (expected : String) (found : Json)
  /-- A required member is absent. -/
  | missingProperty (name : String)
  /-- A member is not declared. -/
  | unknownField

/-- A place of a value and what is wrong there. -/
structure Violation where
  path : Pointer
  fault : Violation.Fault

/-- The wording of a fault. -/
def Violation.Fault.message : Violation.Fault → String
  | null => "must not be null"
  | notAllowed value => value.render ++ " is not one of the allowed values"
  | wrongType expected found => "expected " ++ expected ++ ", found " ++ found.typeName
  | missingProperty name => "missing required property " ++ Text.quoted name
  | unknownField => "unknown field"

/-- How a fault of a value is shown to readers. -/
def Violation.display (v : Violation) : String :=
  showPath v.path ++ ": " ++ v.fault.message

/-- How the number of faults is shown to readers. -/
def Violation.summary (found : List Violation) : String :=
  toString found.length ++ " validation error(s)"

/-- A check of a value at a place. -/
abbrev Check := Pointer → Json → List Violation

/-- The check of null, which looks at nothing but the root node. -/
def checkNull (s : Schema) (path : Pointer) : List Violation :=
  match s with
  | .any _ => []
  | s => if s.notes.nullable then [] else [⟨path, .null⟩]

/-- The check of the listed values. -/
def checkAllowed (notes : Annotations) : Check := fun path value =>
  match notes.allowed with
  | none => []
  | some allowed => if allowed.any (· == value) then [] else [⟨path, .notAllowed value⟩]

/-- Check array elements one after another, counted from a given position. -/
def checkElements (check : Check) (path : Pointer) : Nat → List Json → List Violation
  | _, [] => []
  | i, v :: rest => check (path ++ [toString i]) v ++ checkElements check path (i + 1) rest

/-- The required names that are absent from an object. -/
def checkRequired (required : List String) (path : Pointer) (members : List (String × Json)) :
    List Violation :=
  (required.filter fun name => !Assoc.contains name members).map fun name =>
    ⟨path, .missingProperty name⟩

/-- Check each member by the check of its declared property, or else by that of
undeclared members. -/
def checkMembers (declared : List (String × Check)) (undeclared : Check) (path : Pointer)
    (members : List (String × Json)) : List Violation :=
  members.flatMap fun (name, value) =>
    ((Assoc.get? name declared).getD undeclared) (path ++ [name]) value

mutual

/-- What is wrong with a value at a place, other than being null. -/
def check : Schema → Check
  | .object notes properties required unknown => fun path value =>
    checkAllowed notes path value ++
      match value with
      | .obj members =>
        checkRequired required path members ++
          checkMembers (checkProperties properties) (checkUnknown unknown) path members
      | found => [⟨path, .wrongType "object" found⟩]
  | .array notes items => fun path value =>
    checkAllowed notes path value ++
      match value with
      | .arr elements => checkElements (checkItems items) path 0 elements
      | found => [⟨path, .wrongType "array" found⟩]
  | .scalar notes type => fun path value =>
    checkAllowed notes path value ++
      if type.holds value then [] else [⟨path, .wrongType type.name value⟩]
  | .any notes => checkAllowed notes

/-- The checks of declared properties. -/
def checkProperties : List (String × Schema) → List (String × Check)
  | [] => []
  | (name, s) :: rest =>
    (name, fun path value => if value.isNull then checkNull s path else check s path value) ::
      checkProperties rest

/-- The check of an undeclared member. -/
def checkUnknown : UnknownFields Schema → Check
  | .preserve => fun _ _ => []
  | .validate s => fun path value =>
    if value.isNull then checkNull s path else check s path value
  | .reject => fun path _ => [⟨path, .unknownField⟩]
  | .unset => fun path _ => [⟨path, .unknownField⟩]

/-- The check of an array element. -/
def checkItems : Option Schema → Check
  | none => fun _ _ => []
  | some s => fun path value => if value.isNull then checkNull s path else check s path value

end

/-- Everything that is wrong with a value found at a place. -/
def violationsAt (s : Schema) : Check := fun path value =>
  if value.isNull then checkNull s path else check s path value

/-- Everything that is wrong with a value. -/
def violations (s : Schema) (value : Json) : List Violation :=
  s.violationsAt [] value

/-- Whether nothing is wrong with a value. -/
def accepts (s : Schema) (value : Json) : Bool :=
  (s.violations value).isEmpty

end PolicyEngine.Schema
