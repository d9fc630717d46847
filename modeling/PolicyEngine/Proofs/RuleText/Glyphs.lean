import PolicyEngine.RuleText.Package

/-!
# Glyphs of rule sources

The scan that marks the characters of a source can be taken apart anywhere: the marks of a part
depend on the part and on the context in which it begins. Characters of paths leave the context of
code as it is, so that such characters can be put into code, or taken out of it, with no effect on
the marks of others.

## Main definitions

* `PolicyEngine.RuleText.Context.after` — the context in which a part leaves the scan.
* `PolicyEngine.RuleText.plain` — characters of code as glyphs.
* `PolicyEngine.RuleText.isDelimiter` — the characters that begin a literal or a comment.
* `PolicyEngine.RuleText.isPathChar` — the characters of dotted paths.

## Main results

* `PolicyEngine.RuleText.glyphsFrom_append` — scanning parts one after another is scanning the
  whole.
* `PolicyEngine.RuleText.glyphsFrom_code` — characters that begin no literal stay code.
* `PolicyEngine.RuleText.glyphsFrom_code_of_path` — in code the characters of a path are code.
* `PolicyEngine.RuleText.Glyph.shown_eq_replicate` — a glyph is shown as its face, at least once.
-/

namespace PolicyEngine.RuleText

/-! ### Scanning part by part -/

/-- The context in which characters leave the scan. -/
def Context.after (context : Context) (cs : List Char) : Context := cs.foldl Context.next context

theorem Context.after_append (context : Context) (cs ds : List Char) :
    context.after (cs ++ ds) = (context.after cs).after ds :=
  List.foldl_append

theorem glyphsFrom_append (context : Context) (cs ds : List Char) :
    glyphsFrom context (cs ++ ds) = glyphsFrom context cs ++ glyphsFrom (context.after cs) ds := by
  induction cs generalizing context with
  | nil => rfl
  | cons c rest ih =>
    rw [List.cons_append, glyphsFrom, glyphsFrom, ih]
    rfl

theorem length_glyphsFrom (context : Context) (cs : List Char) :
    (glyphsFrom context cs).length = cs.length := by
  rw [← List.length_map (f := Glyph.char), map_char_glyphsFrom]

/-- The marks of a part of a text depend on the context in which it begins. -/
theorem glyphsFrom_of_eq_append {context : Context} {cs : List Char} {gs hs : List Glyph}
    (h : glyphsFrom context cs = gs ++ hs) :
    glyphsFrom context (gs.map Glyph.char) = gs ∧
      glyphsFrom (context.after (gs.map Glyph.char)) (hs.map Glyph.char) = hs := by
  have hcs : cs = gs.map Glyph.char ++ hs.map Glyph.char := by
    rw [← List.map_append, ← h, map_char_glyphsFrom]
  rw [hcs, glyphsFrom_append] at h
  refine List.append_inj h ?_
  rw [length_glyphsFrom, List.length_map]

/-! ### Characters that begin no literal -/

/-- Characters of code as glyphs. -/
def plain (cs : List Char) : List Glyph := cs.map (⟨·, true⟩)

/-- Whether a character begins a comment, a string or a raw string when it stands in code. -/
def isDelimiter (c : Char) : Bool := c == '#' || c == '"' || c == rawQuote

section Delimiters

variable {c : Char} {cs : List Char}

theorem isDelimiter_iff : isDelimiter c = true ↔ c = '#' ∨ c = '"' ∨ c = rawQuote := by
  simp only [isDelimiter, Bool.or_eq_true, beq_iff_eq, or_assoc]

theorem isDelimiter_eq_false_iff : isDelimiter c = false ↔ c ≠ '#' ∧ c ≠ '"' ∧ c ≠ rawQuote := by
  rw [← Bool.not_eq_true, isDelimiter_iff, not_or, not_or]

theorem next_code (h : isDelimiter c = false) : Context.code.next c = .code := by
  obtain ⟨hhash, hquote, hraw⟩ := isDelimiter_eq_false_iff.1 h
  rw [Context.next, if_neg hhash, if_neg hquote, if_neg hraw]

theorem shows_code (c : Char) : Context.code.shows c = !isDelimiter c := by
  rw [Bool.eq_iff_iff, Context.shows, decide_eq_true_eq, Bool.not_eq_true',
    isDelimiter_eq_false_iff]

/-- What is code begins no literal. -/
theorem isDelimiter_of_shows {context : Context} (h : context.shows c = true) :
    isDelimiter c = false := by
  cases context with
  | code => simpa [shows_code] using h
  | comment =>
    obtain rfl : c = '\n' := by simpa [Context.shows] using h
    rfl
  | string => cases h
  | escape => cases h
  | raw => cases h

/-- A line end apart, characters are code in no other context than that of code. -/
theorem eq_code_of_shows_of_ne {context : Context} (h : context.shows c = true) (hc : c ≠ '\n') :
    context = .code := by
  cases context with
  | code => rfl
  | comment => exact absurd (of_decide_eq_true h) hc
  | string => cases h
  | escape => cases h
  | raw => cases h

theorem isDelimiter_of_mem_glyphsFrom {context : Context} {g : Glyph}
    (h : g ∈ glyphsFrom context cs) (hcode : g.isCode = true) : isDelimiter g.char = false := by
  induction cs generalizing context with
  | nil => cases h
  | cons c rest ih =>
    rcases List.mem_cons.1 h with rfl | hrest
    · exact isDelimiter_of_shows hcode
    · exact ih hrest

/-- Characters that begin no literal are code where they stand in code. -/
theorem glyphsFrom_code (h : ∀ c ∈ cs, isDelimiter c = false) : glyphsFrom .code cs = plain cs := by
  induction cs with
  | nil => rfl
  | cons c rest ih =>
    have hc := h c List.mem_cons_self
    have hrest := ih fun d hd => h d (List.mem_cons_of_mem _ hd)
    rw [glyphsFrom, shows_code, hc, next_code hc, hrest]
    rfl

theorem after_code (h : ∀ c ∈ cs, isDelimiter c = false) : Context.code.after cs = .code := by
  induction cs with
  | nil => rfl
  | cons c rest ih =>
    rw [Context.after, List.foldl_cons, next_code (h c List.mem_cons_self)]
    exact ih fun d hd => h d (List.mem_cons_of_mem _ hd)

end Delimiters

/-! ### Characters of paths -/

/-- Whether a character can stand in a dotted path. -/
def isPathChar (c : Char) : Bool := isIdentChar c || c == '.'

section Path

variable {c : Char} {context : Context}

theorem isPathChar_of_isIdentChar (h : isIdentChar c = true) : isPathChar c = true := by
  rw [isPathChar, h, Bool.true_or]

/-- An identifier is not empty and has nothing but identifier characters. -/
theorem isIdentChar_of_isIdentifier {cs : List Char} (h : isIdentifier cs = true) :
    cs ≠ [] ∧ ∀ c ∈ cs, isIdentChar c = true := by
  cases cs with
  | nil => cases h
  | cons c rest =>
    rw [isIdentifier, Bool.and_eq_true, List.all_eq_true] at h
    exact ⟨List.cons_ne_nil _ _, h.2⟩

theorem isPathChar_of_isBlank (h : Text.isBlank c = true) : isPathChar c = false := by
  have hblanks : ∀ n ∈ Text.blanks, isPathChar (Char.ofNat n) = false := by decide
  rw [← Char.ofNat_toNat c]
  exact hblanks c.toNat (List.contains_iff_mem.1 h)

/-- No character of a path begins a literal or a comment. -/
theorem isDelimiter_of_isPathChar (h : isPathChar c = true) : isDelimiter c = false := by
  refine Bool.eq_false_iff.2 fun hdelimiter => ?_
  rcases isDelimiter_iff.1 hdelimiter with rfl | rfl | rfl <;> exact absurd h (by decide)

/-- A character of a path is marked as code in no other context than that of code. -/
theorem eq_code_of_shows (h : isPathChar c = true) (hshows : context.shows c = true) :
    context = .code := by
  refine eq_code_of_shows_of_ne hshows ?_
  rintro rfl
  cases h

/-- In code the characters of a path are code. -/
theorem glyphsFrom_code_of_path {cs : List Char} (h : ∀ c ∈ cs, isPathChar c = true) :
    glyphsFrom .code cs = plain cs :=
  glyphsFrom_code fun c hc => isDelimiter_of_isPathChar (h c hc)

theorem after_code_of_path {cs : List Char} (h : ∀ c ∈ cs, isPathChar c = true) :
    Context.code.after cs = .code :=
  after_code fun c hc => isDelimiter_of_isPathChar (h c hc)

end Path

theorem map_char_plain (cs : List Char) : (plain cs).map Glyph.char = cs := by
  rw [plain, List.map_map]
  exact List.map_id cs

/-! ### What a search sees -/

/-- Whether a glyph can stand in an identifier of the code. -/
def Glyph.isWord (g : Glyph) : Bool := g.isCode && isIdentChar g.char

namespace Glyph

variable {g : Glyph}

/-- A glyph is shown as its face, once or more often. -/
theorem shown_eq_replicate (g : Glyph) : ∃ n, g.shown = List.replicate (n + 1) g.face := by
  rw [shown, face]
  split
  · exact ⟨0, rfl⟩
  · split
    · exact ⟨0, rfl⟩
    · obtain ⟨n, hn⟩ := Nat.exists_eq_succ_of_ne_zero (Nat.ne_of_gt g.char.utf8Size_pos)
      exact ⟨n, by rw [hn]⟩

theorem face_of_isCode (h : g.isCode = true) : g.face = g.char := by
  rw [face, if_pos h]

/-- What is not code shows as a line end or a space. -/
theorem face_of_not_isCode (h : g.isCode = false) : g.face = '\n' ∨ g.face = ' ' := by
  rw [face, if_neg (Bool.eq_false_iff.1 h)]
  split
  · exact .inl rfl
  · exact .inr rfl

theorem isWord_iff : g.isWord = true ↔ isIdentChar g.face = true := by
  rw [isWord, Bool.and_eq_true]
  cases hcode : g.isCode with
  | true => simp [face_of_isCode hcode]
  | false => rcases face_of_not_isCode hcode with hface | hface <;> simp [hface] <;> decide

/-- A face that can stand in a path is that of a character of code. -/
theorem eq_of_isPathChar (h : isPathChar g.face = true) : g = ⟨g.face, true⟩ := by
  cases hcode : g.isCode with
  | true =>
    obtain ⟨c, isCode⟩ := g
    obtain rfl : isCode = true := hcode
    rfl
  | false =>
    rcases face_of_not_isCode hcode with hface | hface <;> rw [hface] at h <;>
      exact absurd h (by decide)

end Glyph

/-- The view of glyphs begins no literal if no code among them does. -/
theorem isDelimiter_of_mem_view {gs : List Glyph}
    (h : ∀ g ∈ gs, g.isCode = true → isDelimiter g.char = false) {c : Char} (hc : c ∈ view gs) :
    isDelimiter c = false := by
  obtain ⟨g, hg, hshown⟩ := List.mem_flatMap.1 hc
  obtain ⟨n, hn⟩ := g.shown_eq_replicate
  rw [hn] at hshown
  rw [List.eq_of_mem_replicate hshown]
  cases hcode : g.isCode with
  | true =>
    rw [Glyph.face_of_isCode hcode]
    exact h g hg hcode
  | false => rcases Glyph.face_of_not_isCode hcode with hface | hface <;> rw [hface] <;> rfl

theorem view_append (gs hs : List Glyph) : view (gs ++ hs) = view gs ++ view hs :=
  List.flatMap_append

/-- Nothing in the code view begins a literal. -/
theorem isDelimiter_of_mem_codeView {source : String} {c : Char}
    (hc : c ∈ (codeView source).toList) : isDelimiter c = false := by
  rw [codeView, String.toList_ofList] at hc
  exact isDelimiter_of_mem_view (fun _ hg => isDelimiter_of_mem_glyphsFrom hg) hc

theorem view_plain (cs : List Char) : view (plain cs) = cs := by
  induction cs with
  | nil => rfl
  | cons c rest ih =>
    change c :: view (plain rest) = c :: rest
    rw [ih]

/-- The number of bytes of characters. -/
def byteCount : List Char → Nat
  | [] => 0
  | c :: rest => c.utf8Size + byteCount rest

theorem byteCount_append (cs ds : List Char) :
    byteCount (cs ++ ds) = byteCount cs + byteCount ds := by
  induction cs with
  | nil => simp [byteCount]
  | cons c rest ih => rw [List.cons_append, byteCount, byteCount, ih, Nat.add_assoc]

theorem byteCount_replicate (n : Nat) (c : Char) :
    byteCount (List.replicate n c) = n * c.utf8Size := by
  induction n with
  | zero => simp [byteCount]
  | succ n ih => rw [List.replicate_succ, byteCount, ih, Nat.succ_mul, Nat.add_comm]

/-- The code view keeps the number of bytes. -/
theorem byteCount_view (gs : List Glyph) : byteCount (view gs) = size gs := by
  induction gs with
  | nil => rfl
  | cons g rest ih =>
    have hshown : byteCount g.shown = g.char.utf8Size := by
      rw [Glyph.shown]
      split
      · simp [byteCount]
      · split
        · rename_i hline
          rw [hline]
          rfl
        · rw [byteCount_replicate]
          exact Nat.mul_one _
    have hview : view (g :: rest) = g.shown ++ view rest := List.flatMap_cons
    rw [hview, byteCount_append, hshown, ih, size]

theorem size_append (gs hs : List Glyph) : size (gs ++ hs) = size gs + size hs := by
  induction gs with
  | nil => simp [size]
  | cons g rest ih => rw [List.cons_append, size, size, ih, Nat.add_assoc]

end PolicyEngine.RuleText
