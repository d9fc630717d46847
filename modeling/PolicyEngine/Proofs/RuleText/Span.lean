import Mathlib.Data.String.Basic
import PolicyEngine.Proofs.RuleText.Package

/-!
# Where a package is declared

A package declaration names a range of bytes, which is found in the code view and used to cut the
source. The range begins and ends between characters in both texts, and in the code view it holds
the declared path. In the source it does so if no literal stands in it. A literal within the path is
blank in the code view, and the declaration then has blanks where the source has the literal.

## Main definitions

* `PolicyEngine.RuleText.IsSpan` — a range of bytes that begins and ends between characters.
* `PolicyEngine.RuleText.slice` — the text of a range.

## Main results

* `PolicyEngine.RuleText.glyphsFrom_code_of_line`, `PolicyEngine.RuleText.path_eq_plain` — what
  begins and ends with code on one line is code, unless a literal stands in it.
* `PolicyEngine.RuleText.slice_findPackage?` — the text at the declaration's range.
* `PolicyEngine.RuleText.exists_slice_ne` — a declaration with a literal in its path.
-/

namespace PolicyEngine.RuleText

/-! ### Ranges of bytes -/

/-- A range of bytes of a text that is not empty, and begins and ends between characters. -/
structure IsSpan (text : String) (start stop : Nat) : Prop where
  lt : start < stop
  start_isValid : String.Pos.Raw.IsValid text ⟨start⟩
  stop_isValid : String.Pos.Raw.IsValid text ⟨stop⟩

/-- The text from one byte up to another. -/
def slice (text : String) (start stop : Nat) : String :=
  String.Pos.Raw.extract text ⟨start⟩ ⟨stop⟩

theorem byteCount_eq_utf8Len (cs : List Char) : byteCount cs = String.utf8Len cs := by
  induction cs with
  | nil => rfl
  | cons c rest ih => rw [byteCount, String.utf8Len_cons, ih, Nat.add_comm]

section Parts

variable {text : String} {before path after : List Char}

/-- A part of a text that is not empty is a range of its bytes. -/
theorem isSpan_of_toList (h : text.toList = before ++ path ++ after) (hne : path ≠ []) :
    IsSpan text (byteCount before) (byteCount before + byteCount path) := by
  have htext : text = String.ofList (before ++ path ++ after) := by rw [← h, String.ofList_toList]
  refine ⟨?_, ?_, ?_⟩
  · have hpos : byteCount path ≠ 0 := by
      rw [byteCount_eq_utf8Len]
      exact fun hzero => hne (String.utf8Len_eq_zero.1 hzero)
    omega
  · refine String.Pos.Raw.isValid_iff_exists_append.2
      ⟨String.ofList before, String.ofList (path ++ after), ?_, ?_⟩
    · rw [htext, List.append_assoc, String.ofList_append]
    · rw [String.rawEndPos_ofList, byteCount_eq_utf8Len]
  · refine String.Pos.Raw.isValid_iff_exists_append.2
      ⟨String.ofList (before ++ path), String.ofList after, ?_, ?_⟩
    · rw [htext, String.ofList_append]
    · rw [String.rawEndPos_ofList, ← byteCount_append, byteCount_eq_utf8Len]

/-- The text of the range is the part. -/
theorem slice_of_toList (h : text.toList = before ++ path ++ after) :
    slice text (byteCount before) (byteCount before + byteCount path) = String.ofList path := by
  have htext : text = String.ofList (before ++ path ++ after) := by rw [← h, String.ofList_toList]
  rw [slice, htext, byteCount_eq_utf8Len, byteCount_eq_utf8Len]
  exact String.extract_of_valid before path after

end Parts

theorem size_eq_byteCount (gs : List Glyph) : size gs = byteCount (gs.map Glyph.char) := by
  induction gs with
  | nil => rfl
  | cons g rest ih => rw [size, List.map_cons, byteCount, ih]

theorem view_ne_nil {gs : List Glyph} (hne : gs ≠ []) : view gs ≠ [] := by
  obtain ⟨g, rest, rfl⟩ := List.exists_cons_of_ne_nil hne
  obtain ⟨n, hn⟩ := g.shown_eq_replicate
  rw [view, List.flatMap_cons, hn, List.replicate_succ]
  exact List.cons_ne_nil _ _

namespace PackageSplit

variable {source : String} {split : PackageSplit}

theorem Cuts.toList_eq (h : split.Cuts (glyphs source)) :
    source.toList = split.before.map Glyph.char ++ split.path.map Glyph.char ++
      split.after.map Glyph.char := by
  rw [← map_char_glyphs, h.eq, List.map_append, List.map_append, List.append_assoc]

theorem Cuts.toList_codeView_eq (h : split.Cuts (glyphs source)) :
    (codeView source).toList = view split.before ++ view split.path ++ view split.after := by
  rw [codeView, String.toList_ofList, h.eq, view_append, view_append, List.append_assoc]

/-- A declaration is a range of bytes, in the source and in its code view. -/
theorem Cuts.isSpan_decl (h : split.Cuts (glyphs source)) (hne : split.path ≠ []) :
    IsSpan source split.decl.start split.decl.stop ∧
      IsSpan (codeView source) split.decl.start split.decl.stop := by
  rw [decl]
  constructor
  · rw [size_eq_byteCount, size_eq_byteCount]
    exact isSpan_of_toList h.toList_eq fun hnil => hne (List.map_eq_nil_iff.1 hnil)
  · rw [← byteCount_view, ← byteCount_view]
    exact isSpan_of_toList h.toList_codeView_eq (view_ne_nil hne)

/-- The range holds the characters at which the source is cut, and in the code view what they show
as. -/
theorem Cuts.slice_decl (h : split.Cuts (glyphs source)) :
    slice source split.decl.start split.decl.stop = String.ofList (split.path.map Glyph.char) ∧
      slice (codeView source) split.decl.start split.decl.stop = split.decl.path := by
  rw [decl]
  constructor
  · rw [size_eq_byteCount, size_eq_byteCount]
    exact slice_of_toList h.toList_eq
  · rw [← byteCount_view, ← byteCount_view]
    exact slice_of_toList h.toList_codeView_eq

end PackageSplit

/-! ### Literals within a line -/

/-- What does not show as a blank is code. -/
theorem Glyph.isCode_of_not_isBlank {g : Glyph} (h : g.isBlank = false) : g.isCode = true := by
  by_contra hcode
  rw [Glyph.isBlank] at h
  rcases Glyph.face_of_not_isCode (Bool.not_eq_true _ ▸ hcode) with hface | hface <;>
    rw [hface] at h <;> cases h

/-- A comment goes on to the end of the line. -/
theorem not_isCode_of_mem_comment {cs : List Char} (h : '\n' ∉ cs) :
    ∀ g ∈ glyphsFrom .comment cs, g.isCode = false := by
  induction cs with
  | nil => exact List.forall_mem_nil _
  | cons c rest ih =>
    have hc : c ≠ '\n' := fun hc => h (hc ▸ List.mem_cons_self)
    rw [glyphsFrom, Context.next, if_neg hc]
    exact List.forall_mem_cons.2
      ⟨decide_eq_false hc, ih fun hrest => h (List.mem_cons_of_mem _ hrest)⟩

/-- On one line, only code goes on with a character that is code. -/
theorem eq_code_of_head?_glyphsFrom {context : Context} {cs : List Char} (hne : cs ≠ [])
    (hline : '\n' ∉ cs) (hhead : ∀ g ∈ (glyphsFrom context cs).head?, g.isCode = true) :
    context = .code := by
  obtain ⟨c, rest, rfl⟩ := List.exists_cons_of_ne_nil hne
  refine eq_code_of_shows_of_ne (hhead ⟨c, context.shows c⟩ rfl) ?_
  rintro rfl
  exact hline List.mem_cons_self

/-- On one line, what begins in code and ends with code is code, unless a literal stands in it. -/
theorem glyphsFrom_code_of_line {cs : List Char} (hline : '\n' ∉ cs) (hquote : '"' ∉ cs)
    (hraw : rawQuote ∉ cs) (hlast : ∀ g ∈ (glyphsFrom .code cs).getLast?, g.isCode = true) :
    glyphsFrom .code cs = plain cs := by
  induction cs with
  | nil => rfl
  | cons c rest ih =>
    have hrest : ∀ {d}, d ∉ c :: rest → d ∉ rest := fun hd hmem => hd (List.mem_cons_of_mem _ hmem)
    by_cases hhash : c = '#'
    · -- A comment begins here, and the line ends in it.
      exfalso
      subst hhash
      have hnone : ∀ g ∈ glyphsFrom .code ('#' :: rest), g.isCode = false :=
        List.forall_mem_cons.2 ⟨rfl, not_isCode_of_mem_comment (hrest hline)⟩
      have hne : glyphsFrom .code ('#' :: rest) ≠ [] := List.cons_ne_nil _ _
      have hcode := hlast _ (List.getLast?_eq_some_getLast hne)
      rw [hnone _ (List.getLast_mem hne)] at hcode
      cases hcode
    · have hc : isDelimiter c = false := by
        refine isDelimiter_eq_false_iff.2 ⟨hhash, ?_, ?_⟩
        · rintro rfl
          exact hquote List.mem_cons_self
        · rintro rfl
          exact hraw List.mem_cons_self
      have htail := ih (hrest hline) (hrest hquote) (hrest hraw) fun g hg => hlast g (by
        rw [glyphsFrom, next_code hc, List.getLast?_cons, Option.mem_def.1 hg]
        rfl)
      rw [glyphsFrom, shows_code, hc, next_code hc, htail]
      rfl

/-- A declared path is code, unless a literal stands in it. -/
theorem path_eq_plain {source : String} {split : PackageSplit}
    (h : splitAtPackage? source = some split) (hquote : '"' ∉ split.path.map Glyph.char)
    (hraw : rawQuote ∉ split.path.map Glyph.char) :
    split.path = plain (split.path.map Glyph.char) := by
  obtain ⟨earlier, line, cut, hcut, hface, -, hpath⟩ := exists_isDeclaration_of_splitLines? h
  have hne := hcut.path_ne_nil
  have hhead := fun g hg => Glyph.isCode_of_not_isBlank (hcut.path_head g hg)
  have hlast := fun g hg => Glyph.isCode_of_not_isBlank (hcut.path_last g hg)
  rw [← hpath] at hface hne hhead hlast
  obtain ⟨-, hrest⟩ := glyphsFrom_of_eq_append (cuts_of_splitAtPackage? h).eq
  obtain ⟨hmarks, -⟩ := glyphsFrom_of_eq_append hrest
  rw [← hmarks] at hhead hlast
  set cs := split.path.map Glyph.char
  have hend : '\n' ∉ cs := by
    intro hmem
    obtain ⟨g, hg, hchar⟩ := List.mem_map.1 hmem
    refine hface g (List.mem_append_right _ hg) ?_
    rw [Glyph.face, hchar]
    split <;> rfl
  -- The path begins in code and ends with code, since blanks stand at neither of its ends.
  have hcsNe : cs ≠ [] := fun hnil => hne (List.map_eq_nil_iff.1 hnil)
  have hcode := eq_code_of_head?_glyphsFrom hcsNe hend hhead
  rw [hcode] at hmarks hlast
  rw [← hmarks]
  exact glyphsFrom_code_of_line hend hquote hraw hlast

/-- **Where a package is declared.** The range of a declaration begins and ends between characters,
in the source and in the code view, and in the code view it holds the declared path. In the source
it holds the declared path if and only if it holds no quote, of a string or of a raw string. So it
does whenever the path is a dotted one. -/
theorem slice_findPackage? {source : String} {decl : PackageDecl}
    (h : findPackage? source = some decl) :
    IsSpan source decl.start decl.stop ∧ IsSpan (codeView source) decl.start decl.stop ∧
      slice (codeView source) decl.start decl.stop = decl.path ∧
      (slice source decl.start decl.stop = decl.path ↔
        '"' ∉ (slice source decl.start decl.stop).toList ∧
          rawQuote ∉ (slice source decl.start decl.stop).toList) ∧
      (isDottedPath decl.path = true → slice source decl.start decl.stop = decl.path) := by
  rw [findPackage?_eq_map] at h
  obtain ⟨split, hsplit, rfl⟩ := Option.map_eq_some_iff.1 h
  have hcuts := cuts_of_splitAtPackage? hsplit
  obtain ⟨earlier, line, cut, hcut, -, -, hpath⟩ := exists_isDeclaration_of_splitLines? hsplit
  obtain ⟨hspan, hspanView⟩ := hcuts.isSpan_decl (hpath ▸ hcut.path_ne_nil)
  obtain ⟨hslice, hsliceView⟩ := hcuts.slice_decl
  have hpathText : split.decl.path.toList = view split.path := String.toList_ofList
  have hplain : ∀ cs, split.path = plain cs →
      slice source split.decl.start split.decl.stop = split.decl.path := by
    intro cs hcs
    rw [hslice, PackageSplit.decl, PackageSplit.pathText, hcs, map_char_plain, view_plain]
  refine ⟨hspan, hspanView, hsliceView, ⟨fun heq => ?_, ?_⟩,
    fun hdotted => hplain _ (plain_pathText hdotted)⟩
  · have hview : ∀ c ∈ view split.path, isDelimiter c = false := by
      intro c hc
      have hmem : c ∈ (codeView source).toList := by
        rw [hcuts.toList_codeView_eq]
        exact List.mem_append_left _ (List.mem_append_right _ hc)
      exact isDelimiter_of_mem_codeView hmem
    rw [heq, hpathText]
    exact ⟨fun hmem => absurd (hview _ hmem) (by decide),
      fun hmem => absurd (hview _ hmem) (by decide)⟩
  · rintro ⟨hquote, hraw⟩
    rw [hslice, String.toList_ofList] at hquote hraw
    exact hplain _ (path_eq_plain hsplit hquote hraw)

/-- A source with a comment, wide blanks, a literal in the path and a comment behind it. -/
def indexed : String := "# é\n  package\t\u3000desks[\x60é\x60]\u2003# end\n"

/-- The range of its declaration begins behind the wide blank, and holds the literal. -/
theorem slice_findPackage?_indexed :
    findPackage? indexed = some ⟨"desks[    ]", 18, 29⟩ ∧
      IsSpan indexed 18 29 ∧ IsSpan (codeView indexed) 18 29 ∧
      slice (codeView indexed) 18 29 = "desks[    ]" ∧
      (slice indexed 18 29 = "desks[    ]" ↔
        '"' ∉ (slice indexed 18 29).toList ∧ rawQuote ∉ (slice indexed 18 29).toList) ∧
      (isDottedPath "desks[    ]" = true → slice indexed 18 29 = "desks[    ]") := by
  have h : findPackage? indexed = some ⟨"desks[    ]", 18, 29⟩ := by decide +kernel
  exact ⟨h, slice_findPackage? h⟩

/-- A declaration may differ from what stands in its range: a string in the path is blank in the
declared path. -/
theorem exists_slice_ne : ∃ (source : String) (decl : PackageDecl),
    source = "package a[\"b\"]" ∧ findPackage? source = some decl ∧
      slice source decl.start decl.stop = "a[\"b\"]" ∧ decl.path = "a[   ]" ∧
      slice source decl.start decl.stop ≠ decl.path := by
  refine ⟨_, ⟨"a[   ]", 8, 14⟩, rfl, ?_, ?_, rfl, ?_⟩ <;> decide +kernel

end PolicyEngine.RuleText
