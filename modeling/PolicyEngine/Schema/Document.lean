import PolicyEngine.Json.Pointer
import PolicyEngine.Schema.Basic
import PolicyEngine.Text.Quoted

/-!
# Schema documents

The OpenAPI form of a schema, a JSON object with keywords such as `type`, `properties` and `items`.
Reading accepts any further keyword and ignores it; writing produces the keywords that reading
needs.

The reader of a document first attaches to every part of it what reading that part as a schema gives
(`PolicyEngine.Schema.Part`), by recursion on the document; the keywords of a node then only look up
the parts they name.

## Main definitions

* `PolicyEngine.Schema.Malformed` — a place of a document where it is no schema, and why.
* `PolicyEngine.Schema.ofJson` — the schema that a document describes.
* `PolicyEngine.Schema.toJson` — the document that describes a schema.
-/

namespace PolicyEngine.Schema

/-! ### Malformed documents -/

/-- Why a part of a document is no schema. -/
inductive Malformed.Reason where
  /-- A schema or sub-schema is no object. -/
  | notAnObject (found : Json)
  /-- A keyword holds a value of the wrong type. -/
  | keyword (name expected : String) (found : Json)
  /-- The type is none of the known ones. -/
  | unknownType (name : String)
  /-- A required property is named by something else than a string. -/
  | requiredName (found : Json)
  /-- Array elements are described one by one. -/
  | tupleItems

/-- A place of a document where it is no schema, and why. -/
structure Malformed where
  path : Pointer
  reason : Malformed.Reason

/-- The wording of a reason. -/
def Malformed.Reason.message : Malformed.Reason → String
  | notAnObject found => "expected an object, found " ++ found.typeName
  | keyword name expected found =>
    "`" ++ name ++ "` must be " ++ expected ++ ", found " ++ found.typeName
  | unknownType name => "unknown type " ++ Text.quoted name
  | requiredName found => "required property names must be strings, found " ++ found.typeName
  | tupleItems => "tuple-form `items` is not supported"

/-- How messages show the place of a fault. -/
def showPath (path : Pointer) : String :=
  if path.isEmpty then "<root>" else path.render

/-- The wording of the fault of a document. -/
def Malformed.message (m : Malformed) : String :=
  "malformed schema at " ++ showPath m.path ++ ": " ++ m.reason.message

/-! ### Reading -/

/-- The keyword under which object nodes leave undeclared members alone. -/
def preserveKeyword : String := "x-kubernetes-preserve-unknown-fields"

/-- A part of a document with what it means where a schema, or an object of schemas, is expected. -/
structure Part where
  /-- The part itself. -/
  value : Json
  /-- The part as a schema, given the place where it stands. -/
  schema : Pointer → Except Malformed Schema
  /-- The members of the part as schemas, given the place where it stands. -/
  members : Pointer → Except Malformed (List (String × Schema))

/-- The value of a keyword with a fixed type, when the keyword is present. -/
def keyword? (parts : List (String × Part)) (path : Pointer) (name expected : String)
    (read : Json → Option α) : Except Malformed (Option α) :=
  match Assoc.get? name parts with
  | none => .ok none
  | some part =>
    match read part.value with
    | some x => .ok (some x)
    | none => .error ⟨path ++ [name], .keyword name expected part.value⟩

/-- The truth value of a JSON boolean. -/
def bool? : Json → Option Bool
  | .bool b => some b
  | _ => none

/-- The names of required properties, counted from a given position. -/
def readRequired (path : Pointer) : Nat → List Json → Except Malformed (List String)
  | _, [] => .ok []
  | i, .str name :: rest => (readRequired path (i + 1) rest).map (name :: ·)
  | i, found :: _ => .error ⟨path ++ ["required", toString i], .requiredName found⟩

/-- What the keywords of an object node say about its undeclared members. -/
def readUnknown (parts : List (String × Part)) (path : Pointer) (preserve : Bool) :
    Except Malformed (UnknownFields Schema) :=
  if preserve then .ok .preserve
  else
    match Assoc.get? "additionalProperties" parts with
    | none => .ok .unset
    | some part =>
      let path := path ++ ["additionalProperties"]
      match part.value with
      | .bool true => .ok .preserve
      | .bool false => .ok .reject
      | .obj _ => (part.schema path).map .validate
      | found => .error ⟨path, .keyword "additionalProperties" "a boolean or a schema" found⟩

/-- The properties that an object node declares. -/
def readProperties (parts : List (String × Part)) (path : Pointer) :
    Except Malformed (List (String × Schema)) :=
  match Assoc.get? "properties" parts with
  | none => .ok []
  | some part =>
    let path := path ++ ["properties"]
    if part.value.isObject then part.members path
    else .error ⟨path, .keyword "properties" "an object" part.value⟩

/-- The elements that an array node describes. -/
def readItems (parts : List (String × Part)) (path : Pointer) :
    Except Malformed (Option Schema) :=
  match Assoc.get? "items" parts with
  | none => .ok none
  | some part =>
    let path := path ++ ["items"]
    match part.value with
    | .obj _ => (part.schema path).map some
    | .arr _ => .error ⟨path, .tupleItems⟩
    | found => .error ⟨path, .keyword "items" "a schema" found⟩

/-- Read an object node. -/
def readObject (parts : List (String × Part)) (path : Pointer) (preserve : Bool)
    (notes : Annotations) : Except Malformed Schema := do
  let properties ← readProperties parts path
  let names ← keyword? parts path "required" "an array" Json.elements?
  let required ← readRequired path 0 (names.getD [])
  let unknown ← readUnknown parts path preserve
  return .object notes properties required unknown

/-- Read an array node. -/
def readArray (parts : List (String × Part)) (path : Pointer) (notes : Annotations) :
    Except Malformed Schema :=
  (readItems parts path).map (.array notes)

/-- Read a node from its keywords. A node without a type is an object if it has `properties` or
`additionalProperties`, an array if it has `items`, and unrestricted otherwise. -/
def readNode (parts : List (String × Part)) (path : Pointer) : Except Malformed Schema := do
  let type ← keyword? parts path "type" "a string" Json.text?
  let preserve ← keyword? parts path preserveKeyword "a boolean" bool?
  let nullable ← keyword? parts path "nullable" "a boolean" bool?
  let description ← keyword? parts path "description" "a string" Json.text?
  let allowed ← keyword? parts path "enum" "an array" Json.elements?
  let notes : Annotations :=
    { nullable := nullable.getD false, allowed, description, explicitType := type.isSome }
  match type with
  | some "object" => readObject parts path (preserve.getD false) notes
  | some "array" => readArray parts path notes
  | some "string" => return .scalar notes .string
  | some "integer" => return .scalar notes .integer
  | some "number" => return .scalar notes .number
  | some "boolean" => return .scalar notes .boolean
  | some name => throw ⟨path ++ ["type"], .unknownType name⟩
  | none =>
    if Assoc.contains "properties" parts || Assoc.contains "additionalProperties" parts then
      readObject parts path (preserve.getD false) notes
    else if Assoc.contains "items" parts then readArray parts path notes
    else return .any notes

/-- Read every member as a schema, in order. -/
def readMembers : List (String × Part) → Pointer → Except Malformed (List (String × Schema))
  | [], _ => .ok []
  | (name, part) :: rest, path => do
    let s ← part.schema (path ++ [name])
    let others ← readMembers rest path
    return (name, s) :: others

mutual

/-- A part of a document with its meanings. -/
def part : Json → Part
  | .obj members =>
    { value := .obj members
      schema := readNode (parts members)
      members := readMembers (parts members) }
  | .arr elements =>
    { value := .arr elements
      schema := fun path => .error ⟨path, .notAnObject (.arr elements)⟩
      members := fun path => .error ⟨path, .notAnObject (.arr elements)⟩ }
  | found =>
    { value := found
      schema := fun path => .error ⟨path, .notAnObject found⟩
      members := fun path => .error ⟨path, .notAnObject found⟩ }

/-- The members of a part with their meanings. -/
def parts : List (String × Json) → List (String × Part)
  | [] => []
  | (name, value) :: rest => (name, part value) :: parts rest

end

/-- The schema that a document describes. -/
def ofJson (document : Json) : Except Malformed Schema :=
  (part document).schema []

/-! ### Writing -/

/-- The type a node states, unless it is unrestricted. -/
def typeName? : Schema → Option String
  | object .. => some "object"
  | array .. => some "array"
  | scalar _ type => some type.name
  | any _ => none

/-- The keywords that hold for nodes of every type. -/
def commonKeywords (s : Schema) : List (String × Json) :=
  (if s.notes.explicitType then (typeName? s).toList.map fun name => ("type", .str name) else []) ++
    s.notes.description.toList.map (fun text => ("description", .str text)) ++
    (if s.notes.nullable then [("nullable", .bool true)] else []) ++
    s.notes.allowed.toList.map (fun values => ("enum", .arr values))

mutual

/-- The document that describes a schema. -/
def toJson : Schema → Json
  | .object notes properties required unknown =>
    .ofMembers <| commonKeywords (.object notes properties required unknown) ++
      (if properties.isEmpty then [] else [("properties", .obj (propertiesToJson properties))]) ++
      (if required.isEmpty then [] else [("required", .arr (required.map .str))]) ++
      unknownToJson unknown
  | .array notes items => .ofMembers <| commonKeywords (.array notes items) ++ itemsToJson items
  | .scalar notes type => .ofMembers <| commonKeywords (.scalar notes type)
  | .any notes => .ofMembers <| commonKeywords (.any notes) ++ [(preserveKeyword, .bool true)]

/-- The documents of properties. -/
def propertiesToJson : List (String × Schema) → List (String × Json)
  | [] => []
  | (name, s) :: rest => (name, toJson s) :: propertiesToJson rest

/-- The keyword for undeclared members. -/
def unknownToJson : UnknownFields Schema → List (String × Json)
  | .preserve => [(preserveKeyword, .bool true)]
  | .validate s => [("additionalProperties", toJson s)]
  | .reject => []
  | .unset => []

/-- The keyword for array elements. -/
def itemsToJson : Option Schema → List (String × Json)
  | none => []
  | some s => [("items", toJson s)]

end

end PolicyEngine.Schema
