import PolicyEngine.Proofs.RuleText.Package
import PolicyEngine.Proofs.RuleText.Redirect

/-!
# Sources that can be moved

A source that is cut at its package can be moved if each reference before and behind the declared
path is allowed. These are its references outside of the declared path: what stands around the path
begins and ends with a blank, and so no token of the source crosses a cut. A main source has to
declare a dotted path, and a library one beneath `lib`.

## Main definitions

* `PolicyEngine.RuleText.PackageSplit.tokens` — the tokens of a source that is cut at its package.
* `PolicyEngine.RuleText.ReferencesAllowed` — the references of a source outside of its package.

## Main results

* `PolicyEngine.RuleText.referencesAllowed_iff` — the references outside of the declared path.
* `PolicyEngine.RuleText.exists_relocateSplit_iff` — when a source that is cut can be moved.
* `PolicyEngine.RuleText.exists_relocateMain_iff`, `PolicyEngine.RuleText.exists_relocateLib_iff`.
-/

namespace PolicyEngine.RuleText

/-! ### The ends of cut glyphs -/

/-- Glyphs that end in no identifier character have a mark as their last token. -/
theorem getLast?_tokens {gs : List Glyph} {g : Glyph} (h : gs.getLast? = some g)
    (hg : g.isWord = false) : (tokens gs).getLast? = some (.mark g) := by
  induction gs with
  | nil => cases h
  | cons a rest ih =>
    rw [tokens]
    cases rest with
    | nil =>
      obtain rfl : a = g := Option.some.inj h
      have hmark : ¬(a.isCode && isIdentChar a.char) = true := Bool.eq_false_iff.1 hg
      rw [if_neg hmark]
      rfl
    | cons b rest =>
      have hlast := ih h
      split
      · split
        · rename_i cs others hcut
          rw [hcut] at hlast
          cases others with
          | nil => cases hlast
          | cons t others => exact hlast
        · rw [List.getLast?_cons, hlast]
          rfl
      · rw [List.getLast?_cons, hlast]
        rfl

/-- Glyphs that begin with no identifier character begin with no word. -/
theorem apart_head?_tokens {gs : List Glyph} (h : ∀ g ∈ gs.head?, g.isWord = false) :
    ∀ t ∈ (tokens gs).head?, t.isWord = false := by
  cases gs with
  | nil => intro t ht; cases ht
  | cons g rest =>
    have hmark : ¬(g.isCode && isIdentChar g.char) = true := Bool.eq_false_iff.1 (h g rfl)
    rw [tokens, if_neg hmark]
    intro t ht
    rw [← Option.some.inj ht]
    rfl

theorem isWord_of_isBlank {g : Glyph} (h : g.isBlank = true) : g.isWord = false := by
  refine Bool.eq_false_iff.2 fun hword => ?_
  have hpath := isPathChar_of_isIdentChar (Glyph.isWord_iff.1 hword)
  rw [isPathChar_of_isBlank h] at hpath
  cases hpath

/-! ### Sources cut at their package -/

/-- The tokens of a source that is cut at its package. -/
def PackageSplit.tokens (split : PackageSplit) : List Token :=
  RuleText.tokens split.before ++ (RuleText.tokens split.path ++ RuleText.tokens split.after)

namespace PackageSplit.Cuts

variable {split : PackageSplit} {gs : List Glyph}

theorem flatMap_glyphs (h : split.Cuts gs) : split.tokens.flatMap Token.glyphs = gs := by
  rw [PackageSplit.tokens, List.flatMap_append, List.flatMap_append, flatMap_glyphs_tokens,
    flatMap_glyphs_tokens, flatMap_glyphs_tokens, ← h.eq]

/-- What stands before the path ends in a blank. -/
theorem getLast?_tokens_before (h : split.Cuts gs) :
    ∃ g, (RuleText.tokens split.before).getLast? = some (.mark g) ∧ g.isBlank = true := by
  obtain ⟨g, hg, hblank⟩ := h.before_blank
  exact ⟨g, getLast?_tokens hg (isWord_of_isBlank hblank), hblank⟩

theorem apart_before (h : split.Cuts gs) :
    ∀ t ∈ (RuleText.tokens split.before).getLast?, t.isWord = false := by
  obtain ⟨g, hg, -⟩ := h.getLast?_tokens_before
  intro t ht
  rw [hg] at ht
  rw [← Option.some.inj ht]
  rfl

theorem apart_after (h : split.Cuts gs) :
    ∀ t ∈ (RuleText.tokens split.after).head?, t.isWord = false :=
  apart_head?_tokens fun g hg => isWord_of_isBlank (h.after_blank g hg)

theorem isCut (h : split.Cuts gs) : IsCut split.tokens := by
  refine (isCut_tokens _).append ?_ (.inl h.apart_before)
  exact (isCut_tokens _).append (isCut_tokens _) (.inr h.apart_after)

end PackageSplit.Cuts

/-! ### When a source can be moved -/

/-- Each reference of a source outside of its declared path goes on with `inventory` or `lib`. -/
def ReferencesAllowed (source : String) (decl : PackageDecl) : Prop :=
  ∀ before after, IsReference (codeView source).toList before after →
    ¬(decl.start ≤ byteCount before ∧ byteCount before < decl.stop) →
      Continues after "inventory" ∨ Continues after "lib"

theorem relocateSplit_eq_ok_iff {split : PackageSplit} {package root : ModuleId} {out : String} :
    relocateSplit split package root = .ok out ↔
      ∃ before after, redirect root false (tokens split.before) = .ok before ∧
        redirect root false (tokens split.after) = .ok after ∧
        String.ofList (before ++ package.path.toList ++ after) = out := by
  constructor
  · intro h
    rw [relocateSplit, Outcome.bind_eq_ok] at h
    obtain ⟨before, hbefore, h⟩ := h
    obtain ⟨after, hafter, h⟩ := Outcome.bind_eq_ok.1 h
    exact ⟨before, after, hbefore, hafter, Except.ok.inj h⟩
  · rintro ⟨before, after, hbefore, hafter, rfl⟩
    rw [relocateSplit, hbefore, hafter]
    rfl

/-- A source that is cut can be moved if the references of both parts are allowed. -/
theorem exists_relocateSplit_iff {split : PackageSplit} {package root : ModuleId} :
    (∃ out, relocateSplit split package root = .ok out) ↔
      References IsAllowed false (tokens split.before) ∧
        References IsAllowed false (tokens split.after) := by
  rw [← exists_redirect_iff root, ← exists_redirect_iff root]
  simp only [relocateSplit_eq_ok_iff]
  constructor
  · rintro ⟨out, before, after, hbefore, hafter, -⟩
    exact ⟨⟨before, hbefore⟩, after, hafter⟩
  · rintro ⟨⟨before, hbefore⟩, after, hafter⟩
    exact ⟨_, before, after, hbefore, hafter, rfl⟩

theorem IsCut.isAllowed_iff {ts : List Token} (h : IsCut ts) :
    Continues (ts.flatMap Token.shown) "inventory" ∨ Continues (ts.flatMap Token.shown) "lib" ↔
      IsAllowed ts := by
  rw [h.continues_iff (by decide), h.continues_iff (by decide), IsAllowed,
    exists_or]

/-- What stands behind a reference is allowed whether or not more follows a blank at its end. -/
theorem isAllowed_of_append {t₁ t₂ us : List Token} {g : Glyph}
    (hlast : (t₁ ++ .word dataWord :: t₂).getLast? = some (.mark g)) (hg : g.isBlank = true)
    (h : IsAllowed (t₂ ++ us)) : IsAllowed t₂ := by
  have hdot : Token.mark g ≠ .dot := by
    intro heq
    rw [Token.mark.inj heq] at hg
    exact absurd hg (by decide)
  obtain ⟨rest, hrest⟩ := h
  cases t₂ with
  | nil =>
    rw [List.getLast?_append] at hlast
    cases hlast
  | cons a t₂ =>
    cases t₂ with
    | nil =>
      rw [List.getLast?_append] at hlast
      have ha : a = .mark g := Option.some.inj hlast
      rcases hrest with heq | heq
      · exact absurd (ha.symm.trans (List.cons.inj heq).1) hdot
      · exact absurd (ha.symm.trans (List.cons.inj heq).1) hdot
    | cons b t₂ =>
      rcases hrest with heq | heq
      · obtain ⟨rfl, htail⟩ := List.cons.inj heq
        obtain ⟨rfl, -⟩ := List.cons.inj htail
        exact ⟨t₂, .inl rfl⟩
      · obtain ⟨rfl, htail⟩ := List.cons.inj heq
        obtain ⟨rfl, -⟩ := List.cons.inj htail
        exact ⟨t₂, .inr rfl⟩

theorem IsAllowed.append {ts : List Token} (h : IsAllowed ts) (us : List Token) :
    IsAllowed (ts ++ us) := by
  obtain ⟨rest, rfl | rfl⟩ := h
  · exact ⟨rest ++ us, .inl rfl⟩
  · exact ⟨rest ++ us, .inr rfl⟩

/-- An element of two lists together is one of the first or of the second. -/
theorem eq_of_append_eq_append_cons {as bs cs ds : List Token} {t : Token}
    (h : as ++ bs = cs ++ t :: ds) :
    (∃ es, as = cs ++ t :: es ∧ ds = es ++ bs) ∨ ∃ es, cs = as ++ es ∧ bs = es ++ t :: ds := by
  rcases List.append_eq_append_iff.1 h with ⟨es, rfl, hbs⟩ | ⟨es, rfl, hds⟩
  · exact .inr ⟨es, rfl, hbs⟩
  · cases es with
    | nil => exact .inr ⟨[], by simp, hds.symm⟩
    | cons e es =>
      obtain ⟨rfl, rfl⟩ := List.cons.inj hds
      exact .inl ⟨es, rfl, rfl⟩

/-- The place of a reference in bytes. -/
theorem byteCount_shown (ts : List Token) :
    byteCount (ts.flatMap Token.shown) = size (ts.flatMap Token.glyphs) := by
  rw [← view_flatMap_glyphs, byteCount_view]

/-- The size of glyphs that are cut at a reference. -/
theorem size_of_tokens_eq {gs : List Glyph} {t₁ t₂ : List Token}
    (h : tokens gs = t₁ ++ .word dataWord :: t₂) :
    size gs = size (t₁.flatMap Token.glyphs) + (4 + size (t₂.flatMap Token.glyphs)) := by
  rw [← flatMap_glyphs_tokens gs, h, List.flatMap_append, List.flatMap_cons, size_append,
    size_append]
  rfl

section Allowed

variable {source : String} {split : PackageSplit}

theorem toList_codeView (hcuts : split.Cuts (glyphs source)) :
    (codeView source).toList = split.tokens.flatMap Token.shown := by
  rw [codeView, String.toList_ofList, ← view_flatMap_glyphs, hcuts.flatMap_glyphs]

/-- A reference before the declared path is outside of it. -/
theorem references_before (hcuts : split.Cuts (glyphs source))
    (h : ReferencesAllowed source split.decl) :
    References IsAllowed false (tokens split.before) := by
  intro t₁ t₂ heq hdot
  have htokens : split.tokens =
      t₁ ++ .word dataWord :: (t₂ ++ (tokens split.path ++ tokens split.after)) := by
    rw [PackageSplit.tokens, heq, List.append_assoc]
    rfl
  have hcut := hcuts.isCut
  rw [htokens] at hcut
  have hallowed := h _ _ (by
    rw [toList_codeView hcuts, htokens]
    exact hcut.isReference_iff.2 ⟨t₁, _, rfl, hdot, rfl, rfl⟩) (by
    rintro ⟨hstart, -⟩
    have hsize := size_of_tokens_eq heq
    rw [byteCount_shown] at hstart
    change size split.before ≤ _ at hstart
    omega)
  obtain ⟨g, hg, hblank⟩ := hcuts.getLast?_tokens_before
  rw [heq] at hg
  exact isAllowed_of_append hg hblank (hcut.of_append_cons.isAllowed_iff.1 hallowed)

/-- A reference behind the declared path is outside of it. -/
theorem references_after (hcuts : split.Cuts (glyphs source))
    (h : ReferencesAllowed source split.decl) :
    References IsAllowed false (tokens split.after) := by
  intro t₁ t₂ heq hdot
  have hne : t₁ ≠ [] := by
    rintro rfl
    have hapart := hcuts.apart_after
    rw [heq] at hapart
    cases hapart _ rfl
  have htokens : split.tokens =
      (tokens split.before ++ (tokens split.path ++ t₁)) ++ .word dataWord :: t₂ := by
    rw [PackageSplit.tokens, heq]
    simp only [List.append_assoc]
  have hcut := hcuts.isCut
  rw [htokens] at hcut
  have hallowed := h _ _ (by
    rw [toList_codeView hcuts, htokens]
    refine hcut.isReference_iff.2 ⟨_, t₂, rfl, ?_, rfl, rfl⟩
    rw [dotBefore_append, dotBefore_append, dotBefore_eq hne _ false]
    exact hdot) (by
    rintro ⟨-, hstop⟩
    rw [byteCount_shown, List.flatMap_append, List.flatMap_append, flatMap_glyphs_tokens,
      flatMap_glyphs_tokens, size_append, size_append] at hstop
    change _ < size split.before + size split.path at hstop
    omega)
  exact hcut.of_append_cons.isAllowed_iff.1 hallowed

/-- The references outside of the declared path are those before and behind it. -/
theorem referencesAllowed_iff (hcuts : split.Cuts (glyphs source)) :
    ReferencesAllowed source split.decl ↔
      References IsAllowed false (tokens split.before) ∧
        References IsAllowed false (tokens split.after) := by
  refine ⟨fun h => ⟨references_before hcuts h, references_after hcuts h⟩, ?_⟩
  rintro ⟨hbefore, hafter⟩ before after href hout
  have hcut := hcuts.isCut
  rw [toList_codeView hcuts] at href
  obtain ⟨t₁, t₂, heq, hdot, rfl, rfl⟩ := hcut.isReference_iff.1 href
  rw [heq] at hcut
  refine hcut.of_append_cons.isAllowed_iff.2 ?_
  rw [PackageSplit.tokens] at heq
  rcases eq_of_append_eq_append_cons heq with ⟨es, hes, rfl⟩ | ⟨es, rfl, hes⟩
  · exact (hbefore t₁ es hes hdot).append _
  · rcases eq_of_append_eq_append_cons hes with ⟨fs, hfs, rfl⟩ | ⟨fs, rfl, hfs⟩
    · -- A reference inside of the declared path.
      refine absurd ?_ hout
      have hsize := size_of_tokens_eq hfs
      rw [byteCount_shown, List.flatMap_append, flatMap_glyphs_tokens, size_append]
      change size split.before ≤ _ ∧ _ < size split.before + size split.path
      omega
    · refine hafter fs t₂ hfs ?_
      cases fs with
      | nil => rfl
      | cons f fs =>
        rw [dotBefore_append, dotBefore_append] at hdot
        exact hdot

end Allowed

/-! ### Main sources and libraries -/

theorem declaredPackage_eq_ok_iff {source : String} {split : PackageSplit} :
    declaredPackage source = .ok split ↔
      splitAtPackage? source = some split ∧ isDottedPath split.pathText = true := by
  rw [declaredPackage]
  split
  · rename_i hnone
    simp [hnone]
  · rename_i found hfound
    rw [hfound]
    split
    · rename_i hpath
      constructor
      · intro h
        rw [← Except.ok.inj h]
        exact ⟨rfl, hpath⟩
      · rintro ⟨hsplit, -⟩
        rw [Option.some.inj hsplit]
    · rename_i hpath
      constructor
      · intro h
        cases h
      · rintro ⟨hsplit, hsplitPath⟩
        rw [Option.some.inj hsplit] at hpath
        exact absurd hsplitPath hpath

theorem relocateMain_eq_ok_iff {source out : String} {module : ModuleId} :
    relocateMain source module = .ok out ↔ ∃ split, declaredPackage source = .ok split ∧
      relocateSplit split module module = .ok out := by
  rw [relocateMain, Outcome.bind_eq_ok]

theorem relocateLib_eq_ok_iff {source : String} {module : ModuleId} {moved : ModuleId × String} :
    relocateLib source module = .ok moved ↔ ∃ split name out, declaredPackage source = .ok split ∧
      libraryName? split.pathText = some name ∧
      relocateSplit split (module.lib name) module = .ok out ∧ (module.lib name, out) = moved := by
  rw [relocateLib, Outcome.bind_eq_ok]
  refine exists_congr fun split => ⟨?_, ?_⟩
  · rintro ⟨hsplit, h⟩
    split at h
    · cases h
    · rename_i name hname
      obtain ⟨out, hout, h⟩ := Outcome.bind_eq_ok.1 h
      exact ⟨name, out, hsplit, hname, hout, Except.ok.inj h⟩
  · rintro ⟨name, out, hsplit, hname, hout, rfl⟩
    refine ⟨hsplit, ?_⟩
    rw [hname]
    exact Outcome.bind_eq_ok.2 ⟨out, hout, rfl⟩

/-- A dotted path names a library if it begins with `lib.`. -/
theorem exists_libraryName?_iff {path : String} (h : isDottedPath path = true) :
    (∃ name, libraryName? path = some name) ↔ "lib.".toList <+: path.toList := by
  rw [libraryName?]
  constructor
  · rintro ⟨name, hname⟩
    split at hname
    · rename_i hlib
      exact List.isPrefixOf_iff_prefix.1 (Bool.and_eq_true_iff.1 hlib).1
    · cases hname
  · rintro ⟨rest, hrest⟩
    have hne : rest ≠ [] := by
      rintro rfl
      rw [isDottedPath, ← hrest] at h
      exact absurd h (by decide)
    have hlong : 4 < path.toList.length := by
      rw [← hrest, List.length_append]
      exact Nat.lt_add_of_pos_right (List.length_pos_of_ne_nil hne)
    have hbegins : "lib.".toList.isPrefixOf path.toList = true :=
      List.isPrefixOf_iff_prefix.2 ⟨rest, hrest⟩
    exact ⟨_, if_pos (Bool.and_eq_true_iff.2 ⟨hbegins, decide_eq_true hlong⟩)⟩

theorem mem_of_libraryName? {path name : String} (h : libraryName? path = some name) :
    ∀ c ∈ name.toList, c ∈ path.toList := by
  rw [libraryName?] at h
  split at h
  · rw [← Option.some.inj h, String.toList_ofList]
    exact fun c hc => List.mem_of_mem_drop hc
  · cases h

theorem cuts_of_declaredPackage {source : String} {split : PackageSplit}
    (h : declaredPackage source = .ok split) :
    split.Cuts (glyphs source) ∧ isDottedPath split.pathText = true := by
  obtain ⟨hsplit, hpath⟩ := declaredPackage_eq_ok_iff.1 h
  exact ⟨cuts_of_splitAtPackage? hsplit, hpath⟩

/-- A dotted path is declared where a source is cut. -/
theorem exists_declaredPackage_iff {source : String} {P : PackageDecl → Prop} :
    (∃ split, declaredPackage source = .ok split ∧ P split.decl) ↔
      ∃ decl, findPackage? source = some decl ∧ isDottedPath decl.path = true ∧ P decl := by
  rw [findPackage?_eq_map]
  constructor
  · rintro ⟨split, hsplit, hP⟩
    obtain ⟨hcut, hpath⟩ := declaredPackage_eq_ok_iff.1 hsplit
    exact ⟨split.decl, by rw [hcut, Option.map_some], hpath, hP⟩
  · rintro ⟨decl, hdecl, hpath, hP⟩
    obtain ⟨split, hcut, rfl⟩ := Option.map_eq_some_iff.1 hdecl
    exact ⟨split, declaredPackage_eq_ok_iff.2 ⟨hcut, hpath⟩, hP⟩

/-- A main source can be moved if it declares a dotted path and its references are allowed. -/
theorem exists_relocateMain_iff {source : String} {module : ModuleId} :
    (∃ out, relocateMain source module = .ok out) ↔
      ∃ decl, findPackage? source = some decl ∧ isDottedPath decl.path = true ∧
        ReferencesAllowed source decl := by
  rw [← exists_declaredPackage_iff]
  simp only [relocateMain_eq_ok_iff]
  rw [exists_comm]
  refine exists_congr fun split => ?_
  rw [exists_and_left]
  refine and_congr_right fun hsplit => ?_
  rw [exists_relocateSplit_iff, referencesAllowed_iff (cuts_of_declaredPackage hsplit).1]

/-- A library can be moved if besides this its package stands beneath `lib`. -/
theorem exists_relocateLib_iff {source : String} {module : ModuleId} :
    (∃ moved, relocateLib source module = .ok moved) ↔
      ∃ decl, findPackage? source = some decl ∧ isDottedPath decl.path = true ∧
        "lib.".toList <+: decl.path.toList ∧ ReferencesAllowed source decl := by
  rw [← exists_declaredPackage_iff]
  simp only [relocateLib_eq_ok_iff]
  constructor
  · rintro ⟨moved, split, name, out, hsplit, hname, hout, -⟩
    obtain ⟨hcuts, hpath⟩ := cuts_of_declaredPackage hsplit
    refine ⟨split, hsplit, (exists_libraryName?_iff hpath).1 ⟨name, hname⟩, ?_⟩
    exact (referencesAllowed_iff hcuts).2 (exists_relocateSplit_iff.1 ⟨out, hout⟩)
  · rintro ⟨split, hsplit, hlib, hrefs⟩
    obtain ⟨hcuts, hpath⟩ := cuts_of_declaredPackage hsplit
    obtain ⟨name, hname⟩ := (exists_libraryName?_iff hpath).2 hlib
    obtain ⟨out, hout⟩ := exists_relocateSplit_iff.2 ((referencesAllowed_iff hcuts).1 hrefs)
    exact ⟨_, split, name, out, hsplit, hname, hout, rfl⟩

end PolicyEngine.RuleText
