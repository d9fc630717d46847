/-!
# Blank characters

The characters of the Unicode property `White_Space`, and trimming at either end of a text.

## Main definitions

* `PolicyEngine.Text.isBlank` — whether a character is white space.
* `PolicyEngine.Text.trim` — a text without the blanks at its ends.

## Main results

* `PolicyEngine.Text.isBlank_of_isAsciiBlank` — the ASCII blanks are among them.
-/

namespace PolicyEngine.Text

/-- The code points of the Unicode property `White_Space`. -/
def blanks : List Nat :=
  [0x09, 0x0A, 0x0B, 0x0C, 0x0D, 0x20, 0x85, 0xA0, 0x1680,
   0x2000, 0x2001, 0x2002, 0x2003, 0x2004, 0x2005, 0x2006, 0x2007, 0x2008, 0x2009, 0x200A,
   0x2028, 0x2029, 0x202F, 0x205F, 0x3000]

/-- Whether a character is white space. -/
def isBlank (c : Char) : Bool := blanks.contains c.toNat

/-- Whether a character is an ASCII blank: space, tab, line feed, form feed or carriage return. -/
def isAsciiBlank (c : Char) : Bool := [0x09, 0x0A, 0x0C, 0x0D, 0x20].contains c.toNat

theorem isBlank_of_isAsciiBlank {c : Char} (h : isAsciiBlank c = true) : isBlank c = true := by
  simp only [isAsciiBlank, List.contains_iff_mem, List.mem_cons, List.not_mem_nil, or_false] at h
  simp only [isBlank, blanks, List.contains_iff_mem, List.mem_cons, List.not_mem_nil, or_false]
  omega

/-- The characters from the first that fails a test to the last that fails it. -/
def trimBy (p : Char → Bool) (cs : List Char) : List Char :=
  ((cs.dropWhile p).reverse.dropWhile p).reverse

/-- A text without the blanks at its ends. -/
def trim (s : String) : String :=
  String.ofList (trimBy isBlank s.toList)

end PolicyEngine.Text
