import PolicyEngine.Json.Printer

/-!
# Nesting of collections

A reader of JSON texts follows collections inside one another only to a certain depth. The column of
the first bracket beyond it says where such a reader stops.

## Main definitions

* `PolicyEngine.Json.tooDeepAt?` — where the compact text of a value is nested too deeply.
-/

namespace PolicyEngine.Json

/-- How many collections can be inside one another in a text that is read. -/
def maxDepth : Nat := 127

/-- The column of the first bracket of a text that opens a collection beyond the depth that can be
read, from a given column and depth on. Columns count bytes, and brackets inside quotes open
nothing. -/
def openingBeyond? (quoted : Bool) (depth column : Nat) : List Char → Option Nat
  | [] => none
  | '\\' :: c :: rest => openingBeyond? quoted depth (column + 1 + c.utf8Size) rest
  | c :: rest =>
    let next := column + c.utf8Size
    if c == '"' then openingBeyond? (!quoted) depth next rest
    else if quoted then openingBeyond? quoted depth next rest
    else if c == '[' || c == '\x7b' then
      if depth < maxDepth then openingBeyond? quoted (depth + 1) next rest else some column
    else if c == ']' || c == '\x7d' then openingBeyond? quoted (depth - 1) next rest
    else openingBeyond? quoted depth next rest

/-- The column at which the compact text of a value is nested too deeply, if it is. -/
def tooDeepAt? (v : Json) : Option Nat := openingBeyond? false 0 1 v.render.toList

end PolicyEngine.Json
