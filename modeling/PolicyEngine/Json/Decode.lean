import PolicyEngine.Identifier
import PolicyEngine.Json.Printer
import PolicyEngine.Text.Quoted

/-!
# Decoding records

Typed values are read from JSON. A record is written as an object, whose unknown members are
ignored, or as an array of its fields in order. A field is required or has a default; in an array
only the last fields can be left out.

## Main definitions

* `PolicyEngine.DecodeError` — why a JSON value is not the value asked for.
* `PolicyEngine.Json.Field` — a field of a record.
* `PolicyEngine.Json.recordMembers` — the members of a record, in either form.
* `PolicyEngine.Json.Variants` — a choice between named cases.
-/

namespace PolicyEngine

/-- Why a JSON value is not the value asked for. -/
inductive DecodeError where
  /-- The value has another type. -/
  | wrongType (found : Json) (expected : String)
  /-- A count is negative. -/
  | negative (n : Int) (expected : String)
  /-- A required field is absent. -/
  | missingField (name : String)
  /-- An array ends before a required field. -/
  | tooShort (index : Nat) (record : String) (fields : Nat)
  /-- An array has more elements than the record has fields. -/
  | tooLong (length : Nat)
  /-- A case is none of the known ones. -/
  | unknownVariant (name : String) (known : List String)
  /-- An object that should name one case has no member, or several. -/
  | severalVariants
  /-- A text is not of the form of an identifier. -/
  | identifier (e : IdentifierError)

namespace DecodeError

/-- How messages show a value of the wrong type. -/
def describe : Json → String
  | .null => "null"
  | .bool b => "boolean `" ++ (if b then "true" else "false") ++ "`"
  | .num (.integer n) => "integer `" ++ toString n ++ "`"
  | .num (.double x) => "floating point `" ++ x.render ++ "`"
  | .str s => "string " ++ Text.quoted s
  | .arr _ => "sequence"
  | .obj _ => "map"

/-- How messages list the known cases. -/
def listKnown (names : List String) : String :=
  " or ".intercalate (names.map fun name => "`" ++ name ++ "`")

/-- The wording of a decoding error. -/
def message : DecodeError → String
  | wrongType found expected => "invalid type: " ++ describe found ++ ", expected " ++ expected
  | negative n expected =>
    "invalid value: integer `" ++ toString n ++ "`, expected " ++ expected
  | missingField name => "missing field `" ++ name ++ "`"
  | tooShort index record fields =>
    "invalid length " ++ toString index ++ ", expected struct " ++ record ++ " with " ++
      toString fields ++ " elements"
  | tooLong length =>
    "invalid length " ++ toString length ++ ", expected fewer elements in array"
  | unknownVariant name known =>
    "unknown variant `" ++ name ++ "`, expected " ++ listKnown known
  | severalVariants => "invalid value: map, expected map with a single key"
  | identifier e => e.message

end DecodeError

/-- The outcome of decoding. -/
abbrev Decoded (α : Type) := Except DecodeError α

namespace Json

/-! ### Simple values -/

/-- Read a string. -/
def decodeString : Json → Decoded String
  | .str s => .ok s
  | found => .error (.wrongType found "a string")

/-- Read a boolean. -/
def decodeBool : Json → Decoded Bool
  | .bool b => .ok b
  | found => .error (.wrongType found "a boolean")

/-- Read a count. -/
def decodeNat (expected : String) : Json → Decoded Nat
  | .num (.integer n) => if n < 0 then .error (.negative n expected) else .ok n.toNat
  | found => .error (.wrongType found expected)

/-- Read an array, element by element. -/
def decodeList (read : Json → Decoded α) : Json → Decoded (List α)
  | .arr elements => elements.mapM read
  | found => .error (.wrongType found "a sequence")

/-- Read any value as it is. -/
def decodeAny (v : Json) : Decoded Json := .ok v

/-- Read null as nothing. -/
def decodeOption (read : Json → Decoded α) : Json → Decoded (Option α)
  | .null => .ok none
  | v => (read v).map some

/-- Read an object as a map, key before value in the order of the keys. -/
def decodeMap [Ord κ] [Std.TransOrd κ] [Std.LawfulEqOrd κ]
    (readKey : String → Decoded κ) (read : Json → Decoded α) : Json → Decoded (SortedMap κ α)
  | .obj members =>
    (members.mapM fun (key, value) => do
      let k ← readKey key
      let x ← read value
      return (k, x)).map SortedMap.ofList
  | found => .error (.wrongType found "a map")

/-! ### Named cases -/

/-- The cases of a choice with their names. -/
abbrev Variants (α : Type) := List (String × α)

/-- The case with a given name. -/
def Variants.find (variants : Variants α) (name : String) : Decoded α :=
  match Assoc.get? name variants with
  | some x => .ok x
  | none => .error (.unknownVariant name (variants.map (·.1)))

/-- Read a case from its name, or from an object whose only member has that name and holds null. -/
def decodeVariant (variants : Variants α) : Json → Decoded α
  | .str name => variants.find name
  | .obj [(name, content)] => do
    let x ← variants.find name
    match content with
    | .null => return x
    | found => throw (.wrongType found "unit")
  | .obj _ => .error .severalVariants
  | found => .error (.wrongType found "string or map")

/-! ### Records -/

/-- A field of a record. -/
structure Field (α : Type) where
  /-- The name of the member that holds the field. -/
  name : String
  /-- How its value is read. -/
  read : Json → Decoded α
  /-- What the field is when it is left out, if it can be. -/
  default? : Option α

/-- A field that has to be present. -/
def required (name : String) (read : Json → Decoded α) : Field α := ⟨name, read, none⟩

/-- A field with a default. -/
def optional (name : String) (read : Json → Decoded α) (default : α) : Field α :=
  ⟨name, read, some default⟩

/-- A field without the type of its values. -/
structure Slot where
  name : String
  check : Json → Decoded Unit
  isOptional : Bool

/-- Forget the type of a field's values. -/
def Field.slot (f : Field α) : Slot :=
  ⟨f.name, fun v => (f.read v).map fun _ => (), f.default?.isSome⟩

/-- Check the members of an object in their order, each by the field of its name. -/
def checkMembers (slots : List Slot) (members : List (String × Json)) : Decoded Unit :=
  members.forM fun (name, value) =>
    match slots.find? (·.name == name) with
    | some slot => slot.check value
    | none => .ok ()

/-- Check the elements of an array against the fields from a given position on, and name them. -/
def nameElements (record : String) (count : Nat) :
    Nat → List Slot → List Json → Decoded (List (String × Json))
  | i, slot :: slots, value :: values => do
    slot.check value
    let rest ← nameElements record count (i + 1) slots values
    return (slot.name, value) :: rest
  | i, slot :: slots, [] =>
    if slot.isOptional then nameElements record count (i + 1) slots []
    else .error (.tooShort i record count)
  | _, [], [] => .ok []
  | i, [], values => .error (.tooLong (i + values.length))

/-- The members of a record. The first member that cannot be read decides the error, and only then
the first field that is absent. -/
def recordMembers (record : String) (slots : List Slot) :
    Json → Decoded (List (String × Json))
  | .obj members => do
    checkMembers slots members
    match slots.find? fun slot => !slot.isOptional && !Assoc.contains slot.name members with
    | some slot => throw (.missingField slot.name)
    | none => return members
  | .arr elements => nameElements record slots.length 0 slots elements
  | found => .error (.wrongType found ("struct " ++ record))

/-- The value of a field among the members of a record. -/
def Field.get (f : Field α) (members : List (String × Json)) : Decoded α :=
  match Assoc.get? f.name members, f.default? with
  | some value, _ => f.read value
  | none, some default => .ok default
  | none, none => .error (.missingField f.name)

end Json

/-! ### Identifiers -/

/-- Read an identifier from its text. -/
def decodeIdentifier (ofString : String → Except IdentifierError α) (text : String) : Decoded α :=
  (ofString text).mapError .identifier

/-- Read a template kind. -/
def TemplateKind.ofJson (v : Json) : Decoded TemplateKind :=
  v.decodeString >>= decodeIdentifier ofString

/-- Read a constraint name. -/
def ConstraintName.ofJson (v : Json) : Decoded ConstraintName :=
  v.decodeString >>= decodeIdentifier ofString

/-- Read a target name. -/
def TargetName.ofJson (v : Json) : Decoded TargetName :=
  v.decodeString >>= decodeIdentifier ofString

namespace ConstraintKey

/-- The field of the kind. -/
def kindField := Json.required "kind" TemplateKind.ofJson

/-- The field of the name. -/
def nameField := Json.required "name" ConstraintName.ofJson

/-- Read a constraint key. -/
def ofJson (v : Json) : Decoded ConstraintKey := do
  let r ← v.recordMembers "ConstraintKey" [kindField.slot, nameField.slot]
  return { kind := ← kindField.get r, name := ← nameField.get r }

/-- Write a constraint key. -/
def toJson (key : ConstraintKey) : Json :=
  .ofMembers [("kind", .str key.kind.text), ("name", .str key.name.text)]

end ConstraintKey

end PolicyEngine
