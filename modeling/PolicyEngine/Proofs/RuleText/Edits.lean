import Mathlib.Data.List.Basic
import PolicyEngine.Proofs.RuleText.Glyphs

/-!
# Edits of sources

An edit puts a text in the place of another, which stands at some byte of a source. Edits that lie
apart and in order are made in one pass: what stands between them is copied, and what they replace
is passed over. Where the texts that they remove and put in are code, the marks of all other
characters stay as they are. The same edits then turn the code view of a source into that of the
outcome, and the literals and comments of both are the same.

## Main definitions

* `PolicyEngine.RuleText.Edit`, `PolicyEngine.RuleText.splice` — a text with edits made.
* `PolicyEngine.RuleText.Fits` — the edits of a text lie apart and in order.
* `PolicyEngine.RuleText.Edited` — glyphs with edits of code made.
* `PolicyEngine.RuleText.literals` — the literals and comments of a source.

## Main results

* `PolicyEngine.RuleText.Edited.splice_bytes`, `PolicyEngine.RuleText.Edited.splice_codeView` — the
  outcome is the source with the edits made, and so is its code view.
* `PolicyEngine.RuleText.Edited.literals_eq` — literals and comments stay as they are.
-/

namespace PolicyEngine.RuleText

/-! ### Texts with edits made -/

/-- The bytes of a text. -/
def bytes (text : String) : List UInt8 := text.toUTF8.data.toList

/-- A text that stands at a byte, and another that is put in its place. -/
structure Edit where
  start : Nat
  old : String
  new : String

/-- The byte behind the text that an edit removes. -/
def Edit.stop (e : Edit) : Nat := e.start + e.old.utf8ByteSize

/-- Make edits from a byte on: copy what stands before each of them, and go on behind the text that
it removes. -/
def splice (text : List UInt8) : (cursor : Nat) → List Edit → List UInt8
  | cursor, [] => text.drop cursor
  | cursor, e :: rest =>
    (text.drop cursor).take (e.start - cursor) ++ (bytes e.new ++ splice text e.stop rest)

/-- From a byte on, edits lie apart and in order in a text, and each finds what it removes. -/
def Fits (text : List UInt8) : (cursor : Nat) → List Edit → Prop
  | _, [] => True
  | cursor, e :: rest =>
    cursor ≤ e.start ∧ bytes e.old <+: text.drop e.start ∧ Fits text e.stop rest

theorem bytes_ofList (cs : List Char) :
    bytes (String.ofList cs) = cs.flatMap String.utf8EncodeChar := by
  rw [bytes, String.toUTF8, String.toByteArray_ofList, List.utf8Encode,
    List.toList_data_toByteArray]

theorem length_bytes (text : String) : (bytes text).length = text.utf8ByteSize := rfl

/-! ### Edited glyphs -/

/-- From a byte on, edits turn glyphs into others. What they remove and put in is code, and the
other glyphs stay as they are. -/
inductive Edited : Nat → List Glyph → List Edit → List Glyph → Prop where
  | nil {n : Nat} : Edited n [] [] []
  | keep {n : Nat} {g : Glyph} {gs hs : List Glyph} {es : List Edit}
      (h : Edited (n + g.char.utf8Size) gs es hs) : Edited n (g :: gs) es (g :: hs)
  | edit {n : Nat} {old new : String} {gs hs : List Glyph} {es : List Edit} (hold : old ≠ "")
      (hnew : new ≠ "") (h : Edited (n + old.utf8ByteSize) gs es hs) :
      Edited n (plain old.toList ++ gs) (⟨n, old, new⟩ :: es) (plain new.toList ++ hs)

/-! ### Encoded glyphs -/

/-- A way to write glyphs as bytes, in which they keep their size and code stays as it is. -/
structure IsEncoding (f : Glyph → List UInt8) : Prop where
  length_eq : ∀ g, (f g).length = g.char.utf8Size
  code_eq : ∀ c, f ⟨c, true⟩ = String.utf8EncodeChar c

/-- Glyphs as they stand in the source. -/
def sourceBytes (g : Glyph) : List UInt8 := String.utf8EncodeChar g.char

/-- Glyphs as the code view shows them. -/
def shownBytes (g : Glyph) : List UInt8 := g.shown.flatMap String.utf8EncodeChar

theorem length_flatMap_utf8EncodeChar (cs : List Char) :
    (cs.flatMap String.utf8EncodeChar).length = byteCount cs := by
  induction cs with
  | nil => rfl
  | cons c rest ih =>
    rw [List.flatMap_cons, List.length_append, String.length_utf8EncodeChar, ih, byteCount]

theorem isEncoding_sourceBytes : IsEncoding sourceBytes :=
  ⟨fun g => String.length_utf8EncodeChar g.char, fun _ => rfl⟩

theorem isEncoding_shownBytes : IsEncoding shownBytes := by
  refine ⟨fun g => ?_, fun c => List.append_nil _⟩
  have hsize := byteCount_view [g]
  have hview : view [g] = g.shown := List.append_nil _
  rw [hview, size, size, Nat.add_zero] at hsize
  rw [shownBytes, length_flatMap_utf8EncodeChar, hsize]

theorem flatMap_sourceBytes (source : String) :
    (glyphs source).flatMap sourceBytes = bytes source := by
  have hchars : bytes source = bytes (String.ofList ((glyphs source).map Glyph.char)) := by
    rw [map_char_glyphs, String.ofList_toList]
  rw [hchars, bytes_ofList, List.flatMap_map]
  rfl

theorem flatMap_shownBytes (source : String) :
    (glyphs source).flatMap shownBytes = bytes (codeView source) := by
  rw [codeView, bytes_ofList, view, List.flatMap_assoc]
  rfl

namespace IsEncoding

variable {f : Glyph → List UInt8} (hf : IsEncoding f)

include hf

theorem length_flatMap (gs : List Glyph) : (gs.flatMap f).length = size gs := by
  induction gs with
  | nil => rfl
  | cons g rest ih => rw [List.flatMap_cons, List.length_append, hf.length_eq, ih, size]

theorem flatMap_plain (text : String) :
    (plain text.toList).flatMap f = bytes text := by
  have htext : bytes text = bytes (String.ofList text.toList) := by rw [String.ofList_toList]
  rw [htext, bytes_ofList, plain, List.flatMap_map]
  exact List.flatMap_congr fun c _ => hf.code_eq c

end IsEncoding

/-- The size of the glyphs of a text is that of the text. -/
theorem size_plain (text : String) : size (plain text.toList) = text.utf8ByteSize := by
  have hlength := congrArg List.length (isEncoding_sourceBytes.flatMap_plain text)
  rwa [isEncoding_sourceBytes.length_flatMap, length_bytes] at hlength

namespace Edited

variable {n : Nat} {gs hs : List Glyph} {es : List Edit} {f : Glyph → List UInt8}

/-- Glyphs stay as they are where there is no edit. -/
theorem refl (n : Nat) (gs : List Glyph) : Edited n gs [] gs := by
  induction gs generalizing n with
  | nil => exact .nil
  | cons g rest ih => exact .keep (ih _)

/-- Edits of two parts are edits of the whole. -/
theorem append (h : Edited n gs es hs) {gs' hs' : List Glyph} {es' : List Edit}
    (h' : Edited (n + size gs) gs' es' hs') : Edited n (gs ++ gs') (es ++ es') (hs ++ hs') := by
  induction h with
  | nil => exact h'
  | keep _ ih =>
    refine .keep (ih ?_)
    rwa [size, ← Nat.add_assoc] at h'
  | edit hold hnew _ ih =>
    rw [List.append_assoc, List.append_assoc]
    refine .edit hold hnew (ih ?_)
    rwa [size_append, size_plain, ← Nat.add_assoc] at h'

/-- Making the edits leads from the one bytes to the others. -/
theorem splice_eq (h : Edited n gs es hs) (hf : IsEncoding f) {pre : List UInt8}
    (hpre : pre.length = n) {cursor : Nat} (hcursor : cursor ≤ n) :
    splice (pre ++ gs.flatMap f) cursor es = pre.drop cursor ++ hs.flatMap f := by
  induction h generalizing pre cursor with
  | nil => rw [splice, List.flatMap_nil, List.append_nil, List.append_nil]
  | @keep n g gs hs es h ih =>
    have hlength : (pre ++ f g).length = n + g.char.utf8Size := by
      rw [List.length_append, hpre, hf.length_eq]
    have hrest := ih hlength (Nat.le_add_right_of_le hcursor)
    rw [List.drop_append_of_le_length (hpre ▸ hcursor)] at hrest
    rw [List.flatMap_cons, List.flatMap_cons, ← List.append_assoc, hrest, List.append_assoc]
  | @edit n old new gs hs es _ _ h ih =>
    have hlength : (pre ++ bytes old).length = n + old.utf8ByteSize := by
      rw [List.length_append, hpre, length_bytes]
    have hrest := ih hlength (Nat.le_refl _)
    rw [← hlength, List.drop_length, List.nil_append, hlength] at hrest
    have hcopied : ((pre ++ (bytes old ++ gs.flatMap f)).drop cursor).take (n - cursor) =
        pre.drop cursor := by
      rw [List.drop_append_of_le_length (hpre ▸ hcursor)]
      exact List.take_left' (by rw [List.length_drop, hpre])
    rw [List.flatMap_append, hf.flatMap_plain, List.flatMap_append, hf.flatMap_plain, splice,
      hcopied, ← List.append_assoc pre]
    exact congrArg (pre.drop cursor ++ ·) (congrArg (bytes new ++ ·) hrest)

/-- The edits lie apart and in order in the bytes. -/
theorem fits (h : Edited n gs es hs) (hf : IsEncoding f) {pre : List UInt8}
    (hpre : pre.length = n) {cursor : Nat} (hcursor : cursor ≤ n) :
    Fits (pre ++ gs.flatMap f) cursor es := by
  induction h generalizing pre cursor with
  | nil => trivial
  | @keep n g gs hs es h ih =>
    have hlength : (pre ++ f g).length = n + g.char.utf8Size := by
      rw [List.length_append, hpre, hf.length_eq]
    rw [List.flatMap_cons, ← List.append_assoc]
    exact ih hlength (Nat.le_add_right_of_le hcursor)
  | @edit n old new gs hs es _ _ h ih =>
    have hlength : (pre ++ bytes old).length = n + old.utf8ByteSize := by
      rw [List.length_append, hpre, length_bytes]
    rw [List.flatMap_append, hf.flatMap_plain]
    refine ⟨hcursor, ?_, ?_⟩
    · rw [List.drop_left' hpre]
      exact List.prefix_append _ _
    · rw [← List.append_assoc]
      exact ih hlength (Nat.le_refl _)

end Edited

/-! ### Literals and comments -/

/-- A run of characters, unless it is empty. -/
def closeRun (run : List Char) : List (List Char) := if run.isEmpty then [] else [run]

/-- The longest runs of characters that are not code, the first of which has begun already. -/
def literalsFrom : (run : List Char) → List Glyph → List (List Char)
  | run, [] => closeRun run
  | run, g :: rest =>
    if g.isCode then closeRun run ++ literalsFrom [] rest else literalsFrom (run ++ [g.char]) rest

/-- The literals and comments of a source, with the characters that delimit them. Those without code
between them are one. -/
def literals (source : String) : List String :=
  (literalsFrom [] (glyphs source)).map String.ofList

theorem literalsFrom_plain_append {cs : List Char} (hne : cs ≠ []) (run : List Char)
    (gs : List Glyph) :
    literalsFrom run (plain cs ++ gs) = closeRun run ++ literalsFrom [] gs := by
  induction cs generalizing run with
  | nil => exact absurd rfl hne
  | cons c cs ih =>
    change closeRun run ++ literalsFrom [] (plain cs ++ gs) = _
    rcases eq_or_ne cs [] with rfl | hcs
    · rfl
    · rw [ih hcs []]
      rfl

theorem toList_ne_nil {text : String} (h : text ≠ "") : text.toList ≠ [] :=
  fun hnil => h (String.toList_injective hnil)

/-! ### Sources -/

namespace Edited

theorem literalsFrom_eq {n : Nat} {gs hs : List Glyph} {es : List Edit} (h : Edited n gs es hs)
    (run : List Char) : literalsFrom run hs = literalsFrom run gs := by
  induction h generalizing run with
  | nil => rfl
  | keep _ ih =>
    rw [literalsFrom, literalsFrom]
    split
    · rw [ih]
    · exact ih _
  | edit hold hnew _ ih =>
    rw [literalsFrom_plain_append (toList_ne_nil hnew), ih,
      literalsFrom_plain_append (toList_ne_nil hold)]

variable {source out : String} {es : List Edit} (h : Edited 0 (glyphs source) es (glyphs out))

include h

/-- The outcome is the source with the edits made. -/
theorem splice_bytes : Fits (bytes source) 0 es ∧ splice (bytes source) 0 es = bytes out := by
  rw [← flatMap_sourceBytes, ← flatMap_sourceBytes]
  exact ⟨h.fits isEncoding_sourceBytes List.length_nil (Nat.le_refl 0),
    h.splice_eq isEncoding_sourceBytes List.length_nil (Nat.le_refl 0)⟩

/-- The code view of the outcome is that of the source with the edits made. -/
theorem splice_codeView : Fits (bytes (codeView source)) 0 es ∧
    splice (bytes (codeView source)) 0 es = bytes (codeView out) := by
  rw [← flatMap_shownBytes, ← flatMap_shownBytes]
  exact ⟨h.fits isEncoding_shownBytes List.length_nil (Nat.le_refl 0),
    h.splice_eq isEncoding_shownBytes List.length_nil (Nat.le_refl 0)⟩

/-- Literals and comments stay as they are. -/
theorem literals_eq : literals out = literals source := by
  rw [literals, literals, h.literalsFrom_eq]

end Edited

end PolicyEngine.RuleText
