import Mathlib.Data.List.Chain
import Mathlib.Data.List.TakeWhile
import PolicyEngine.Proofs.RuleText.Glyphs

/-!
# Sources cut at their package

A source that declares a package is cut before and behind the declared path. The parts make up the
whole, and the path stands between blanks: before it there is one always, and behind it unless the
source ends there. If the path is a dotted one, all of it is code.

## Main definitions

* `PolicyEngine.RuleText.PackageSplit.Cuts` — a cut between blanks.
* `PolicyEngine.RuleText.PackageSplit.IsDeclaration` — a line cut at the path that it declares.
* `PolicyEngine.RuleText.PackageSplit.decl` — the declaration at which a source is cut.

## Main results

* `PolicyEngine.RuleText.flatten_lines`, `PolicyEngine.RuleText.isChain_lines` — lines lose nothing,
  and all but the last end in a line end.
* `PolicyEngine.RuleText.lines_induction` — induction on the lines of a text.
* `PolicyEngine.RuleText.splitLine?_eq_some_iff` — when a line declares a path.
* `PolicyEngine.RuleText.exists_isDeclaration_of_splitLines?` — a text is cut in one of its lines.
* `PolicyEngine.RuleText.cuts_of_splitAtPackage?` — a source is cut between blanks.
* `PolicyEngine.RuleText.eq_plain_of_view` — what shows as a path is code.
-/

namespace PolicyEngine.RuleText

/-! ### Dotted paths -/

theorem mem_joinPieces {separator c : Char} {ps : List (List Char)}
    (h : c ∈ Text.joinPieces separator ps) : c = separator ∨ ∃ p ∈ ps, c ∈ p := by
  induction ps with
  | nil => cases h
  | cons p rest ih =>
    cases rest with
    | nil => exact .inr ⟨p, List.mem_singleton_self p, h⟩
    | cons q qs =>
      rw [Text.joinPieces.eq_3 _ _ _ (List.cons_ne_nil _ _)] at h
      rcases List.mem_append.1 h with hp | hrest
      · exact .inr ⟨p, List.mem_cons_self, hp⟩
      · rcases List.mem_cons.1 hrest with rfl | hrest
        · exact .inl rfl
        · rcases ih hrest with hsep | ⟨r, hr, hc⟩
          · exact .inl hsep
          · exact .inr ⟨r, List.mem_cons_of_mem _ hr, hc⟩

theorem isPathChar_of_isDottedPath {path : String} (h : isDottedPath path = true) :
    ∀ c ∈ path.toList, isPathChar c = true := by
  intro c hc
  rw [← Text.joinPieces_pieces '.' path.toList] at hc
  rcases mem_joinPieces hc with rfl | ⟨p, hp, hcp⟩
  · rfl
  · have hident := (isIdentChar_of_isIdentifier (List.all_eq_true.1 h p hp)).2 c hcp
    exact isPathChar_of_isIdentChar hident

/-- Glyphs that show as a path are code. -/
theorem eq_plain_of_view {gs : List Glyph} (h : ∀ c ∈ view gs, isPathChar c = true) :
    gs = plain (view gs) := by
  induction gs with
  | nil => rfl
  | cons g rest ih =>
    obtain ⟨n, hn⟩ := g.shown_eq_replicate
    have hface : isPathChar g.face = true := by
      refine h _ (List.mem_flatMap.2 ⟨g, List.mem_cons_self, ?_⟩)
      rw [hn]
      exact List.mem_cons_self
    have hg := Glyph.eq_of_isPathChar hface
    have hrest := ih fun c hc => h c (List.mem_append_right _ hc)
    have hview : view (g :: rest) = g.face :: view rest := by
      rw [hg]
      rfl
    rw [hview, plain, List.map_cons, ← hg]
    exact congrArg (g :: ·) hrest

/-- Glyphs whose faces are the characters of a path are code. -/
theorem eq_plain_of_map_face {gs : List Glyph} {cs : List Char} (h : gs.map Glyph.face = cs)
    (hcs : ∀ c ∈ cs, isPathChar c = true) : gs = plain cs := by
  induction gs generalizing cs with
  | nil =>
    rw [← h]
    rfl
  | cons g rest ih =>
    rw [← h] at hcs ⊢
    have hg := Glyph.eq_of_isPathChar (hcs g.face List.mem_cons_self)
    have hrest := ih rfl fun c hc => hcs c (List.mem_cons_of_mem _ hc)
    rw [List.map_cons, plain, List.map_cons, ← hg]
    exact congrArg (g :: ·) hrest

/-! ### Lines -/

theorem flatten_lines (gs : List Glyph) : (lines gs).flatten = gs := by
  induction gs with
  | nil => rfl
  | cons g rest ih =>
    rw [lines]
    split
    · rw [List.flatten_cons, ih]
      rfl
    · split
      · rename_i hnil
        rw [hnil] at ih
        rw [← ih]
        rfl
      · rename_i line others hlines
        rw [hlines] at ih
        rw [← ih]
        rfl

/-- Every line but the last ends in a line end. -/
theorem isChain_lines (gs : List Glyph) :
    (lines gs).IsChain fun line _ => ∃ g, line.getLast? = some g ∧ g.face = '\n' := by
  induction gs with
  | nil => exact .nil
  | cons g rest ih =>
    rw [lines]
    split
    · rename_i hend
      cases hlines : lines rest with
      | nil => exact .singleton _
      | cons line others =>
        rw [hlines] at ih
        exact .cons_cons ⟨g, rfl, hend⟩ ih
    · split
      · exact .singleton _
      · rename_i line others hlines
        rw [hlines] at ih
        cases ih with
        | singleton => exact .singleton _
        | cons_cons hlast hothers =>
          obtain ⟨e, he, hface⟩ := hlast
          refine .cons_cons ⟨e, ?_, hface⟩ hothers
          rw [List.getLast?_cons, he]
          rfl

section Lines

variable {l : List Glyph} {e : Glyph}

theorem lines_append_lineEnd (hl : ∀ g ∈ l, g.face ≠ '\n') (he : e.face = '\n')
    (gs : List Glyph) : lines (l ++ e :: gs) = (l ++ [e]) :: lines gs := by
  induction l with
  | nil => rw [List.nil_append, lines, if_pos he, List.nil_append]
  | cons g rest ih =>
    rw [List.cons_append, lines, if_neg (hl g List.mem_cons_self),
      ih fun g' hg' => hl g' (List.mem_cons_of_mem _ hg')]
    rfl

theorem lines_eq_singleton (hl : ∀ g ∈ l, g.face ≠ '\n') (hne : l ≠ []) : lines l = [l] := by
  induction l with
  | nil => exact absurd rfl hne
  | cons g rest ih =>
    rw [lines, if_neg (hl g List.mem_cons_self)]
    rcases eq_or_ne rest [] with rfl | hrest
    · rfl
    · rw [ih (fun g' hg' => hl g' (List.mem_cons_of_mem _ hg')) hrest]

/-- Induction on the lines of a text, from the last one. -/
theorem lines_induction {P : List Glyph → Prop} (last : ∀ l, (∀ g ∈ l, g.face ≠ '\n') → P l)
    (line : ∀ l e gs, (∀ g ∈ l, g.face ≠ '\n') → e.face = '\n' → P gs → P (l ++ e :: gs))
    (gs : List Glyph) : P gs := by
  suffices h : ∀ gs l : List Glyph, (∀ g ∈ l, g.face ≠ '\n') → P (l ++ gs) from
    h gs [] (List.forall_mem_nil _)
  intro gs
  induction gs with
  | nil =>
    intro l hl
    rw [List.append_nil]
    exact last l hl
  | cons g rest ih =>
    intro l hl
    by_cases hg : g.face = '\n'
    · exact line l g rest hl hg (ih [] (List.forall_mem_nil _))
    · have hnext := ih (l ++ [g]) (List.forall_mem_append.2 ⟨hl, List.forall_mem_singleton.2 hg⟩)
      rwa [List.append_assoc] at hnext

end Lines

/-! ### Cuts between blanks -/

/-- A cut of glyphs before and behind a path that stands between blanks. -/
structure PackageSplit.Cuts (split : PackageSplit) (gs : List Glyph) : Prop where
  eq : gs = split.before ++ (split.path ++ split.after)
  before_blank : ∃ g, split.before.getLast? = some g ∧ g.isBlank = true
  after_blank : ∀ g ∈ split.after.head?, g.isBlank = true

/-- The first glyphs that pass a test end where one fails it. -/
theorem span_append {p : Glyph → Bool} {as : List Glyph} (has : ∀ g ∈ as, p g = true)
    (bs : List Glyph) (hbs : ∀ g ∈ bs.head?, p g = false) :
    (as ++ bs).takeWhile p = as ∧ (as ++ bs).dropWhile p = bs := by
  rw [List.takeWhile_append_of_pos has, List.dropWhile_append_of_pos has]
  cases bs with
  | nil => exact ⟨List.append_nil as, rfl⟩
  | cons b bs =>
    have hb : ¬p b = true := Bool.eq_false_iff.1 (hbs b rfl)
    rw [List.takeWhile_cons_of_neg hb, List.dropWhile_cons_of_neg hb, List.append_nil]
    exact ⟨rfl, rfl⟩

theorem eq_false_of_mem_head?_dropWhile {p : Glyph → Bool} {gs : List Glyph} :
    ∀ g ∈ (gs.dropWhile p).head?, p g = false := by
  intro g hg
  have h := List.head?_dropWhile_not p gs
  rw [Option.mem_def.1 hg] at h
  simpa using h

/-- Cutting the trailing glyphs that pass a test off loses nothing. -/
theorem reverse_dropWhile_append (p : Glyph → Bool) (gs : List Glyph) :
    (gs.reverse.dropWhile p).reverse ++ (gs.reverse.takeWhile p).reverse = gs := by
  rw [← List.reverse_append, List.takeWhile_append_dropWhile, List.reverse_reverse]

/-! ### Lines that declare a path -/

/-- The word that begins a declaration, as glyphs. -/
def keyword : List Glyph := plain "package".toList

theorem dropWord?_eq_some_iff {gs rest : List Glyph} :
    dropWord? "package".toList gs = some rest ↔ gs = keyword ++ rest := by
  rw [dropWord?]
  constructor
  · intro h
    split at h
    · rename_i hface
      have hkeyword : gs.take "package".toList.length = keyword :=
        eq_plain_of_map_face hface
          (List.all_eq_true.1 (by decide : "package".toList.all isPathChar = true))
      rw [← Option.some.inj h, ← hkeyword, List.take_append_drop]
    · cases h
  · rintro rfl
    have hlength : "package".toList.length = keyword.length := by decide
    rw [hlength, List.take_left, List.drop_left]
    exact if_pos (by decide)

/-- A line cut into indentation, keyword and blanks, the path that it declares, and the blanks
behind the path. -/
structure PackageSplit.IsDeclaration (split : PackageSplit) (line : List Glyph) : Prop where
  eq : line = split.before ++ (split.path ++ split.after)
  exists_lead : ∃ indent lead, split.before = indent ++ (keyword ++ lead) ∧
    (∀ g ∈ indent, g.isBlank = true) ∧ (∀ g ∈ lead, g.isBlank = true) ∧
    ∃ b ∈ lead.head?, Text.isAsciiBlank b.face = true
  path_ne_nil : split.path ≠ []
  path_head : ∀ g ∈ split.path.head?, g.isBlank = false
  path_last : ∀ g ∈ split.path.getLast?, g.isBlank = false
  after_blank : ∀ g ∈ split.after, g.isBlank = true

/-- What begins with no blank is a path and the blanks behind it. -/
theorem isBlank_trimmed (gs : List Glyph) (hhead : ∀ g ∈ gs.head?, g.isBlank = false) :
    let path := (gs.reverse.dropWhile Glyph.isBlank).reverse
    let trailing := (gs.reverse.takeWhile Glyph.isBlank).reverse
    (∀ g ∈ path.head?, g.isBlank = false) ∧ (∀ g ∈ path.getLast?, g.isBlank = false) ∧
      ∀ g ∈ trailing, g.isBlank = true := by
  refine ⟨fun g hg => hhead g ?_, fun g hg => ?_, fun g hg => ?_⟩
  · rw [← reverse_dropWhile_append Glyph.isBlank gs, List.head?_append, Option.mem_def.1 hg]
    rfl
  · rw [List.getLast?_reverse] at hg
    exact eq_false_of_mem_head?_dropWhile g hg
  · exact List.mem_takeWhile_imp (List.mem_reverse.1 hg)

theorem take_keyword_append (rest : List Glyph) :
    (keyword ++ rest).take "package".length = keyword := by
  have hlength : "package".length = keyword.length := by decide
  rw [hlength, List.take_left]

theorem PackageSplit.isDeclaration_of_splitLine? {line : List Glyph} {split : PackageSplit}
    (h : splitLine? line = some split) : split.IsDeclaration line := by
  rw [splitLine?] at h
  obtain ⟨rest, hrest, h⟩ := Option.bind_eq_some_iff.1 h
  rw [dropWord?_eq_some_iff] at hrest
  dsimp only at h
  split at h
  · cases h
  · rename_i hlead
    split at h
    · cases h
    · rename_i hpath
      rw [Bool.not_eq_true', Bool.not_eq_false, Option.any_eq_true] at hlead
      obtain ⟨b, hb, hascii⟩ := hlead
      have hkeyword : (line.dropWhile Glyph.isBlank).take "package".length = keyword := by
        rw [hrest, take_keyword_append]
      obtain ⟨hhead, hlast, hafter⟩ := isBlank_trimmed (rest.dropWhile Glyph.isBlank)
        eq_false_of_mem_head?_dropWhile
      obtain rfl := Option.some.inj h
      refine ⟨?_, ⟨line.takeWhile Glyph.isBlank, rest.takeWhile Glyph.isBlank, ?_, ?_, ?_, ?_⟩,
        fun hnil => hpath (List.isEmpty_iff.2 hnil), hhead, hlast, hafter⟩
      · dsimp only
        rw [reverse_dropWhile_append, hkeyword, List.append_assoc, List.append_assoc,
          List.takeWhile_append_dropWhile, ← hrest, List.takeWhile_append_dropWhile]
      · rw [hkeyword, List.append_assoc]
      · exact fun g => List.mem_takeWhile_imp
      · exact fun g => List.mem_takeWhile_imp
      · obtain ⟨others, rfl⟩ := List.head?_eq_some_iff.1 hb
        have hblank : b.isBlank = true := Text.isBlank_of_isAsciiBlank hascii
        rw [List.takeWhile_cons_of_pos hblank]
        exact ⟨b, rfl, hascii⟩

/-- A declaration is found: indentation, blanks and trailing blanks each go on as long as they
can. -/
theorem PackageSplit.IsDeclaration.splitLine?_eq {line : List Glyph} {split : PackageSplit}
    (h : split.IsDeclaration line) : splitLine? line = some split := by
  obtain ⟨before, path, after⟩ := split
  obtain ⟨rfl, ⟨indent, lead, rfl, hindent, hlead, b, hb, hascii⟩, hne, hhead, hlast, hafter⟩ := h
  dsimp only at hne hhead hlast hafter ⊢
  let rest := lead ++ (path ++ after)
  have hline : indent ++ (keyword ++ lead) ++ (path ++ after) = indent ++ (keyword ++ rest) := by
    simp only [rest, List.append_assoc]
  obtain ⟨hindent', hrest⟩ := span_append hindent (keyword ++ rest) fun g hg => by
    rw [← Option.some.inj hg]
    decide
  obtain ⟨hlead', htail⟩ := span_append hlead (path ++ after) fun g hg => hhead g (by
    rwa [List.head?_append_of_ne_nil _ hne] at hg)
  have hreverse : ∀ g ∈ after.reverse, g.isBlank = true :=
    fun g hg => hafter g (List.mem_reverse.1 hg)
  obtain ⟨hafter', hpath⟩ := span_append hreverse path.reverse fun g hg => hlast g (by
    rwa [List.head?_reverse] at hg)
  have hword : dropWord? "package".toList (keyword ++ rest) = some rest :=
    dropWord?_eq_some_iff.2 rfl
  have hfirst : (rest.head?.any fun g => Text.isAsciiBlank g.face) = true := by
    rw [List.head?_append, Option.mem_def.1 hb]
    exact hascii
  rw [hline, splitLine?, hindent', hrest, hword, Option.bind_eq_bind, Option.bind_some]
  dsimp only
  rw [hfirst, hlead', htail, List.reverse_append, hafter', hpath, take_keyword_append,
    List.reverse_reverse, List.reverse_reverse, List.append_assoc]
  simp [hne]

/-- A line is cut where it declares a path. -/
theorem splitLine?_eq_some_iff {line : List Glyph} {split : PackageSplit} :
    splitLine? line = some split ↔ split.IsDeclaration line :=
  ⟨PackageSplit.isDeclaration_of_splitLine?, PackageSplit.IsDeclaration.splitLine?_eq⟩

/-- A line is cut between blanks, and if it ends in a blank there is something behind the path. -/
theorem cuts_of_splitLine? {line : List Glyph} {split : PackageSplit}
    (h : splitLine? line = some split) :
    split.Cuts line ∧ ∀ g, line.getLast? = some g → g.isBlank = true → split.after ≠ [] := by
  obtain ⟨heq, ⟨indent, lead, hbefore, -, hlead, b, hb, -⟩, hne, -, hlast, hafter⟩ :=
    splitLine?_eq_some_iff.1 h
  have hleadNe : lead ≠ [] := by
    rintro rfl
    cases hb
  refine ⟨⟨heq, ⟨lead.getLast hleadNe, ?_, hlead _ (List.getLast_mem hleadNe)⟩,
    fun g hg => hafter g (List.mem_of_mem_head? hg)⟩, fun g hg hblank hnil => ?_⟩
  · rw [hbefore, List.getLast?_append, List.getLast?_append,
      List.getLast?_eq_some_getLast hleadNe, Option.some_or, Option.some_or]
  · rw [heq, hnil, List.append_nil, List.getLast?_append_of_ne_nil _ hne] at hg
    rw [hlast g hg] at hblank
    cases hblank

/-- No line end stands in a declared path or before it, if the line has none but at its end. -/
theorem PackageSplit.IsDeclaration.face_ne_lineEnd {cut : PackageSplit} {line : List Glyph}
    (h : cut.IsDeclaration line) (hline : ∀ g ∈ line.dropLast, g.face ≠ '\n') :
    ∀ g ∈ cut.before ++ cut.path, g.face ≠ '\n' := by
  obtain ⟨init, last, hpath⟩ := (List.eq_nil_or_concat cut.path).resolve_left h.path_ne_nil
  rw [List.concat_eq_append] at hpath
  have hdrop : line.dropLast = cut.before ++ init ++ (last :: cut.after).dropLast := by
    rw [← List.dropLast_append_of_ne_nil (List.cons_ne_nil _ _), h.eq, hpath]
    simp
  intro g hg
  rw [hpath, ← List.append_assoc, List.mem_append, List.mem_singleton] at hg
  rcases hg with hfront | rfl
  · refine hline g ?_
    rw [hdrop]
    exact List.mem_append_left _ hfront
  · -- The path ends in a character that shows.
    intro hface
    have hblank := h.path_last g (by rw [hpath]; exact List.getLast?_concat)
    rw [Glyph.isBlank, hface] at hblank
    cases hblank

/-- A text is cut in one of its lines, at the path that the line declares. No line end stands before
the path in this line, and none in the path. -/
theorem exists_isDeclaration_of_splitLines? {gs : List Glyph} {split : PackageSplit}
    (h : splitLines? (lines gs) = some split) :
    ∃ (earlier line : List Glyph) (cut : PackageSplit), cut.IsDeclaration line ∧
      (∀ g ∈ cut.before ++ cut.path, g.face ≠ '\n') ∧ split.before = earlier ++ cut.before ∧
      split.path = cut.path := by
  induction gs using lines_induction generalizing split with
  | last l hl =>
    rcases eq_or_ne l [] with rfl | hne
    · cases h
    rw [lines_eq_singleton hl hne, splitLines?] at h
    split at h
    · rename_i cut hcut
      rw [splitLine?_eq_some_iff] at hcut
      obtain rfl := Option.some.inj h
      have hline : ∀ g ∈ l.dropLast, g.face ≠ '\n' :=
        fun g hg => hl g ((List.dropLast_sublist l).mem hg)
      exact ⟨[], l, cut, hcut, hcut.face_ne_lineEnd hline, rfl, rfl⟩
    · cases h
  | line l e gs hl he ih =>
    rw [lines_append_lineEnd hl he, splitLines?] at h
    split at h
    · rename_i cut hcut
      rw [splitLine?_eq_some_iff] at hcut
      obtain rfl := Option.some.inj h
      have hline : ∀ g ∈ (l ++ [e]).dropLast, g.face ≠ '\n' := by rwa [List.dropLast_concat]
      exact ⟨[], l ++ [e], cut, hcut, hcut.face_ne_lineEnd hline, rfl, rfl⟩
    · obtain ⟨later, hlater, rfl⟩ := Option.map_eq_some_iff.1 h
      obtain ⟨earlier, line, cut, hcut, hface, hbefore, hpath⟩ := ih hlater
      refine ⟨l ++ [e] ++ earlier, line, cut, hcut, hface, ?_, hpath⟩
      dsimp only
      rw [hbefore, List.append_assoc (l ++ [e])]

/-- Lines of which all but the last end in a line end are cut between blanks. -/
theorem cuts_of_splitLines? {ls : List (List Glyph)} {split : PackageSplit}
    (hls : ls.IsChain fun line _ => ∃ g, line.getLast? = some g ∧ g.face = '\n')
    (h : splitLines? ls = some split) : split.Cuts ls.flatten := by
  induction ls generalizing split with
  | nil => cases h
  | cons line rest ih =>
    rw [splitLines?] at h
    split at h
    · rename_i cut hcut
      obtain ⟨hcuts, hafter⟩ := cuts_of_splitLine? hcut
      obtain rfl := Option.some.inj h
      refine ⟨?_, hcuts.before_blank, fun g hg => ?_⟩
      · dsimp only
        rw [List.flatten_cons, hcuts.eq]
        simp only [List.append_assoc]
      · cases rest with
        | nil =>
          rw [List.flatten_nil, List.append_nil] at hg
          exact hcuts.after_blank g hg
        | cons next others =>
          cases hls with
          | cons_cons hlast _ =>
            obtain ⟨e, he, hface⟩ := hlast
            have hne := hafter e he (by rw [Glyph.isBlank, hface]; decide)
            obtain ⟨a, as, has⟩ := List.exists_cons_of_ne_nil hne
            refine hcuts.after_blank g ?_
            rw [has] at hg ⊢
            exact hg
    · obtain ⟨cut, hcut, rfl⟩ := Option.map_eq_some_iff.1 h
      have hcuts := ih hls.of_cons hcut
      obtain ⟨g, hg, hblank⟩ := hcuts.before_blank
      refine ⟨?_, ⟨g, ?_, hblank⟩, hcuts.after_blank⟩
      · dsimp only
        rw [List.flatten_cons, hcuts.eq]
        simp only [List.append_assoc]
      · dsimp only
        rw [List.getLast?_append, hg, Option.some_or]

/-- A source that declares a package is cut between blanks. -/
theorem cuts_of_splitAtPackage? {source : String} {split : PackageSplit}
    (h : splitAtPackage? source = some split) : split.Cuts (glyphs source) := by
  have hcuts := cuts_of_splitLines? (isChain_lines (glyphs source)) h
  rwa [flatten_lines] at hcuts

theorem plain_pathText {split : PackageSplit} (h : isDottedPath split.pathText = true) :
    split.path = plain split.pathText.toList := by
  have hchars := isPathChar_of_isDottedPath h
  rw [PackageSplit.pathText, String.toList_ofList] at hchars ⊢
  exact eq_plain_of_view hchars

theorem toList_ne_nil_of_isDottedPath {path : String} (h : isDottedPath path = true) :
    path.toList ≠ [] := by
  intro hnil
  rw [isDottedPath, hnil] at h
  cases h

/-- The declaration at which a source is cut. -/
def PackageSplit.decl (split : PackageSplit) : PackageDecl where
  path := split.pathText
  start := size split.before
  stop := size split.before + size split.path

/-- A declaration is found where a source is cut. -/
theorem findPackage?_eq_map (source : String) :
    findPackage? source = (splitAtPackage? source).map PackageSplit.decl :=
  rfl

end PolicyEngine.RuleText
