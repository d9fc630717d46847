import PolicyEngine.Proofs.RuleText.Isolation

/-!
# The package of a moved source

A source that is moved declares the package that is written in place of its own. Its references are
redirected line by line, and no line begins or ceases to declare a package by it: what stands before
a declared path is blanks and a keyword, and holds no reference. So the first line that declares a
package is the one that did so before, and what it declares now is the new path.

## Main results

* `PolicyEngine.RuleText.IsCut.tokens_eq` — tokens that are well cut are those of their glyphs.
* `PolicyEngine.RuleText.Moves.exists_of_append_mark` — tokens are moved line by line.
* `PolicyEngine.RuleText.Moves.splitLine?_eq_none` — a line that declares no path declares none when
  it is moved.
* `PolicyEngine.RuleText.path_findPackage?_relocateMain`,
  `PolicyEngine.RuleText.path_findPackage?_relocateLib` — the package of a moved source.
-/

namespace PolicyEngine.RuleText

/-! ### Tokens of glyphs -/

/-- A run of identifier characters is a word if it ends where another token begins. -/
theorem tokens_plain_append {w : List Char} (hne : w ≠ []) (hw : ∀ c ∈ w, isIdentChar c = true)
    {gs : List Glyph} (hgs : ∀ t ∈ (tokens gs).head?, t.isWord = false) :
    tokens (plain w ++ gs) = .word w :: tokens gs := by
  induction w with
  | nil => exact absurd rfl hne
  | cons c w ih =>
    have hc : ((⟨c, true⟩ : Glyph).isCode && isIdentChar c) = true := hw c List.mem_cons_self
    change tokens (⟨c, true⟩ :: (plain w ++ gs)) = _
    rw [tokens, if_pos hc]
    rcases eq_or_ne w [] with rfl | hne'
    · have hnil : plain [] ++ gs = gs := rfl
      rw [hnil]
      split
      · rename_i cs others heq
        rw [heq] at hgs
        cases hgs _ rfl
      · rfl
    · rw [ih hne' fun d hd => hw d (List.mem_cons_of_mem _ hd)]

/-- Tokens that are well cut are those of their glyphs. -/
theorem IsCut.tokens_eq {ts : List Token} (h : IsCut ts) :
    tokens (ts.flatMap Token.glyphs) = ts := by
  induction h with
  | nil => rfl
  | @cons t rest ht hapart hrest ih =>
    rw [List.flatMap_cons]
    cases t with
    | word w =>
      rw [← ih] at hapart
      rw [Token.glyphs, tokens_plain_append ht.1 ht.2 (hapart rfl), ih]
    | mark g =>
      have hg : ¬(g.isCode && isIdentChar g.char) = true := Bool.eq_false_iff.1 ht
      change tokens (g :: rest.flatMap Token.glyphs) = _
      rw [tokens, if_neg hg, ih]

/-- Tokens are cut at a glyph that can stand in no identifier. -/
theorem tokens_append_mark {e : Glyph} (he : e.isWord = false) (gs hs : List Glyph) :
    tokens (gs ++ e :: hs) = tokens gs ++ .mark e :: tokens hs := by
  have hcut : IsCut (tokens gs ++ .mark e :: tokens hs) := by
    refine (isCut_tokens gs).append (.cons he (fun h => by cases h) (isCut_tokens hs)) (.inr ?_)
    intro t ht
    rw [← Option.some.inj ht]
    rfl
  have hglyphs : (tokens gs ++ .mark e :: tokens hs).flatMap Token.glyphs = gs ++ e :: hs := by
    rw [List.flatMap_append, List.flatMap_cons, flatMap_glyphs_tokens, flatMap_glyphs_tokens]
    rfl
  rw [← hglyphs, hcut.tokens_eq]

/-- Glyphs that can stand in no identifier are marks. -/
theorem tokens_append_of_marks {ms : List Glyph} (hms : ∀ g ∈ ms, g.isWord = false)
    (gs : List Glyph) : tokens (ms ++ gs) = ms.map .mark ++ tokens gs := by
  induction ms with
  | nil => rfl
  | cons m ms ih =>
    have hm := tokens_append_mark (hms m List.mem_cons_self) [] (ms ++ gs)
    rw [List.cons_append]
    refine hm.trans ?_
    rw [ih fun g hg => hms g (List.mem_cons_of_mem _ hg)]
    rfl

theorem flatMap_glyphs_marks (ms : List Glyph) : (ms.map Token.mark).flatMap Token.glyphs = ms := by
  induction ms with
  | nil => rfl
  | cons m ms ih =>
    rw [List.map_cons, List.flatMap_cons, ih]
    rfl

/-! ### Parts of moved tokens -/

/-- A mark that is no dot is none of the tokens of a reference. -/
theorem exists_of_append_eq_reference {t₁ t₂ ts : List Token} {e : Glyph} {segment : List Char}
    (he : Token.mark e ≠ .dot)
    (h : t₁ ++ .mark e :: t₂ = .word dataWord :: .dot :: .word segment :: ts) :
    ∃ t₁', t₁ = .word dataWord :: .dot :: .word segment :: t₁' ∧ t₁' ++ .mark e :: t₂ = ts := by
  cases t₁ with
  | nil => cases h
  | cons a t₁ =>
    obtain ⟨rfl, hdot⟩ := List.cons.inj h
    cases t₁ with
    | nil => exact absurd (List.cons.inj hdot).1 he
    | cons b t₁ =>
      obtain ⟨rfl, hsegment⟩ := List.cons.inj hdot
      cases t₁ with
      | nil => cases hsegment
      | cons c t₁ =>
        obtain ⟨rfl, hrest⟩ := List.cons.inj hsegment
        exact ⟨t₁, rfl, hrest⟩

namespace Moves

variable {root : ModuleId} {afterDot : Bool} {pre ts us : List Token}

/-- Tokens are moved part by part. -/
theorem append (h : Moves root afterDot ts us) {ts' us' : List Token}
    (h' : Moves root (dotBefore afterDot ts) ts' us') :
    Moves root afterDot (ts ++ ts') (us ++ us') := by
  induction h with
  | nil => exact h'
  | keep ht _ ih => exact .keep ht (ih h')
  | inventory _ ih => exact .inventory (ih h')
  | library _ ih =>
    rw [List.append_assoc]
    exact .library (ih h')

/-- What holds no reference is moved nowhere. -/
theorem exists_of_append_left (hpre : ∀ t ∈ pre, t ≠ .word dataWord)
    (h : Moves root afterDot (pre ++ ts) us) :
    ∃ us', us = pre ++ us' ∧ Moves root (dotBefore afterDot pre) ts us' := by
  induction pre generalizing afterDot us with
  | nil => exact ⟨us, rfl, h⟩
  | cons t pre ih =>
    have hne := hpre t List.mem_cons_self
    generalize hin : t :: pre ++ ts = source at h
    cases h with
    | nil => cases hin
    | keep ht h =>
      obtain ⟨rfl, rfl⟩ := List.cons.inj hin
      obtain ⟨us', rfl, hus'⟩ := ih (fun u hu => hpre u (List.mem_cons_of_mem _ hu)) h
      exact ⟨us', rfl, hus'⟩
    | inventory h => exact absurd (List.cons.inj hin).1 hne
    | library h => exact absurd (List.cons.inj hin).1 hne

/-- What holds no reference has come from nowhere else. -/
theorem exists_of_append_right (hpre : ∀ t ∈ pre, t ≠ .word dataWord)
    (h : Moves root afterDot ts (pre ++ us)) :
    ∃ ts', ts = pre ++ ts' ∧ Moves root (dotBefore afterDot pre) ts' us := by
  induction pre generalizing afterDot ts with
  | nil => exact ⟨ts, rfl, h⟩
  | cons t pre ih =>
    have hne := hpre t List.mem_cons_self
    generalize hout : t :: pre ++ us = out at h
    cases h with
    | nil => cases hout
    | keep ht h =>
      obtain ⟨rfl, rfl⟩ := List.cons.inj hout
      obtain ⟨ts', rfl, hts'⟩ := ih (fun u hu => hpre u (List.mem_cons_of_mem _ hu)) h
      exact ⟨ts', rfl, hts'⟩
    | inventory h => exact absurd (List.cons.inj hout).1 hne
    | library h =>
      obtain ⟨t₂, heq, -⟩ := libTokens_eq root
      rw [heq] at hout
      exact absurd (List.cons.inj hout).1 hne

/-- Tokens are moved apart at a mark that is no dot. -/
theorem exists_of_append_mark {e : Glyph} (he : (Token.mark e).isDot = false)
    {t₁ t₂ : List Token} (h : Moves root afterDot (t₁ ++ .mark e :: t₂) us) :
    ∃ u₁ u₂, us = u₁ ++ .mark e :: u₂ ∧ Moves root afterDot t₁ u₁ ∧ Moves root false t₂ u₂ := by
  have hdot : Token.mark e ≠ .dot := fun heq => by
    rw [heq] at he
    cases he
  generalize hin : t₁ ++ .mark e :: t₂ = source at h
  induction h generalizing t₁ with
  | nil => exact absurd hin (by simp)
  | @keep _ t ts us ht h ih =>
    cases t₁ with
    | nil =>
      obtain ⟨rfl, rfl⟩ := List.cons.inj hin
      rw [he] at h
      exact ⟨[], us, rfl, .nil, h⟩
    | cons u t₁ =>
      obtain ⟨rfl, hrest⟩ := List.cons.inj hin
      obtain ⟨u₁, u₂, rfl, hu₁, hu₂⟩ := ih hrest
      exact ⟨u :: u₁, u₂, rfl, .keep ht hu₁, hu₂⟩
  | @inventory ts us h ih =>
    obtain ⟨t₁', rfl, hrest⟩ := exists_of_append_eq_reference hdot hin
    obtain ⟨u₁, u₂, rfl, hu₁, hu₂⟩ := ih hrest
    exact ⟨_, u₂, rfl, .inventory hu₁, hu₂⟩
  | @library ts us h ih =>
    obtain ⟨t₁', rfl, hrest⟩ := exists_of_append_eq_reference hdot hin
    obtain ⟨u₁, u₂, rfl, hu₁, hu₂⟩ := ih hrest
    exact ⟨libTokens root ++ u₁, u₂, (List.append_assoc _ _ _).symm, .library hu₁, hu₂⟩

/-- A glyph of moved tokens is one of the tokens or stands in a path. -/
theorem mem_glyphs (hroot : ∀ c ∈ root.path.toList, isPathChar c = true)
    (h : Moves root afterDot ts us) {g : Glyph} (hg : g ∈ us.flatMap Token.glyphs) :
    g ∈ ts.flatMap Token.glyphs ∨ isPathChar g.face = true := by
  induction h with
  | nil => exact .inl hg
  | keep _ h ih =>
    rw [List.flatMap_cons, List.mem_append] at hg ⊢
    rcases hg with hg | hg
    · exact .inl (.inl hg)
    · exact (ih hg).imp_left .inr
  | @inventory ts us h ih =>
    let reference : List Token := [.word dataWord, .dot, .word "inventory".toList]
    change g ∈ (reference ++ us).flatMap Token.glyphs at hg
    change g ∈ (reference ++ ts).flatMap Token.glyphs ∨ _
    rw [List.flatMap_append, List.mem_append] at hg ⊢
    rcases hg with hg | hg
    · exact .inl (.inl hg)
    · exact (ih hg).imp_left .inr
  | @library ts us h ih =>
    let reference : List Token := [.word dataWord, .dot, .word "lib".toList]
    change g ∈ (reference ++ ts).flatMap Token.glyphs ∨ _
    rw [List.flatMap_append, List.mem_append] at hg ⊢
    rcases hg with hg | hg
    · rw [libTokens, flatMap_glyphs_tokens] at hg
      obtain ⟨c, hc, rfl⟩ := List.mem_map.1 hg
      exact .inr (isPathChar_libReference hroot c hc)
    · exact (ih hg).imp_left .inr

/-- Moved tokens begin with the glyph with which the tokens do. -/
theorem head?_glyphs (hts : IsCut ts) (h : Moves root afterDot ts us) :
    (us.flatMap Token.glyphs).head? = (ts.flatMap Token.glyphs).head? := by
  cases h with
  | nil => rfl
  | @keep _ t ts us _ h =>
    have hne : t.glyphs ≠ [] := by
      cases hts with
      | cons ht _ _ =>
        cases t with
        | word w => exact mt List.map_eq_nil_iff.1 ht.1
        | mark g => exact List.cons_ne_nil _ _
    rw [List.flatMap_cons, List.flatMap_cons, List.head?_append_of_ne_nil _ hne,
      List.head?_append_of_ne_nil _ hne]
  | inventory h => rfl
  | library h =>
    have hreference : libReference root = 'd' :: ("ata." ++ root.path ++ ".lib").toList := by
      rw [libReference]
      simp
    rw [List.flatMap_append, libTokens, flatMap_glyphs_tokens, hreference]
    rfl

end Moves

/-! ### Moved lines -/

theorem isWord_of_isBlank_of_mem {ms : List Glyph} (h : ∀ g ∈ ms, g.isBlank = true) :
    ∀ g ∈ ms, g.isWord = false :=
  fun g hg => isWord_of_isBlank (h g hg)

/-- The tokens of what stands before a declared path. -/
def leadTokens (indent lead : List Glyph) : List Token :=
  indent.map .mark ++ .word "package".toList :: lead.map .mark

section Lead

variable {indent lead : List Glyph}

theorem ne_dataWord_of_mem_leadTokens : ∀ t ∈ leadTokens indent lead, t ≠ .word dataWord := by
  intro t ht
  rw [leadTokens, List.mem_append, List.mem_cons] at ht
  rcases ht with ht | rfl | ht
  · obtain ⟨g, -, rfl⟩ := List.mem_map.1 ht
    exact Token.noConfusion
  · exact fun h => absurd (Token.word.inj h) (by decide)
  · obtain ⟨g, -, rfl⟩ := List.mem_map.1 ht
    exact Token.noConfusion

theorem flatMap_glyphs_leadTokens :
    (leadTokens indent lead).flatMap Token.glyphs = indent ++ (keyword ++ lead) := by
  rw [leadTokens, List.flatMap_append, List.flatMap_cons, flatMap_glyphs_marks,
    flatMap_glyphs_marks]
  rfl

/-- The tokens of a line begin with those of what stands before the path it declares. -/
theorem tokens_lead_append (hindent : ∀ g ∈ indent, g.isBlank = true)
    (hlead : ∀ g ∈ lead, g.isBlank = true) (hne : lead ≠ []) (gs : List Glyph) :
    tokens (indent ++ (keyword ++ lead) ++ gs) = leadTokens indent lead ++ tokens gs := by
  have hword : tokens (lead ++ gs) = lead.map .mark ++ tokens gs :=
    tokens_append_of_marks (isWord_of_isBlank_of_mem hlead) gs
  have hapart : ∀ t ∈ (tokens (lead ++ gs)).head?, t.isWord = false := by
    obtain ⟨b, others, rfl⟩ := List.exists_cons_of_ne_nil hne
    intro t ht
    rw [hword] at ht
    rw [← Option.some.inj ht]
    rfl
  have hkeyword : tokens (keyword ++ (lead ++ gs)) =
      .word "package".toList :: tokens (lead ++ gs) :=
    tokens_plain_append (by decide)
      (List.all_eq_true.1 (by decide : "package".toList.all isIdentChar = true)) hapart
  rw [List.append_assoc, List.append_assoc,
    tokens_append_of_marks (isWord_of_isBlank_of_mem hindent), hkeyword, hword, leadTokens,
    List.append_assoc]
  rfl

/-- A line declares a path if behind the keyword and blanks something else begins. -/
theorem exists_isDeclaration {tail : List Glyph} (hindent : ∀ g ∈ indent, g.isBlank = true)
    (hlead : ∀ g ∈ lead, g.isBlank = true)
    (hfirst : ∃ b ∈ lead.head?, Text.isAsciiBlank b.face = true)
    (htail : ∃ g, tail.head? = some g ∧ g.isBlank = false) :
    ∃ split : PackageSplit, split.IsDeclaration (indent ++ (keyword ++ lead) ++ tail) := by
  obtain ⟨g, hg, hblank⟩ := htail
  obtain ⟨hhead, hlast, hafter⟩ := isBlank_trimmed tail fun g' hg' => by
    rw [hg] at hg'
    rwa [← Option.some.inj hg']
  let path := (tail.reverse.dropWhile Glyph.isBlank).reverse
  let trailing := (tail.reverse.takeWhile Glyph.isBlank).reverse
  have heq : path ++ trailing = tail := reverse_dropWhile_append Glyph.isBlank tail
  have hne : path ≠ [] := by
    intro hnil
    have hmem : g ∈ trailing := by
      rw [hnil, List.nil_append] at heq
      rw [heq]
      exact List.mem_of_mem_head? hg
    rw [hafter g hmem] at hblank
    cases hblank
  refine ⟨⟨indent ++ (keyword ++ lead), path, trailing⟩, ?_,
    ⟨indent, lead, rfl, hindent, hlead, hfirst⟩, hne, hhead, hlast, hafter⟩
  rw [heq]

end Lead

/-- A line that declares no path declares none when it is moved. -/
theorem Moves.splitLine?_eq_none {root : ModuleId} {ts us : List Token} (hts : IsCut ts)
    (h : Moves root false ts us) (hnone : splitLine? (ts.flatMap Token.glyphs) = none) :
    splitLine? (us.flatMap Token.glyphs) = none := by
  cases hsome : splitLine? (us.flatMap Token.glyphs) with
  | none => rfl
  | some split =>
    obtain ⟨heq, ⟨indent, lead, hbefore, hindent, hlead, b, hb, hascii⟩, hne, hhead, -, -⟩ :=
      splitLine?_eq_some_iff.1 hsome
    have hleadNe : lead ≠ [] := by
      rintro rfl
      cases hb
    have hus : us = leadTokens indent lead ++ tokens (split.path ++ split.after) := by
      rw [← (h.isCut hts).tokens_eq, heq, hbefore, tokens_lead_append hindent hlead hleadNe]
    -- What stands before the path holds no reference, and behind it both lines begin alike.
    rw [hus] at h
    obtain ⟨ts', rfl, hts'⟩ := h.exists_of_append_right ne_dataWord_of_mem_leadTokens
    have hfirst := hts'.head?_glyphs hts.of_append_right
    obtain ⟨g, gs, hpath⟩ := List.exists_cons_of_ne_nil hne
    rw [flatMap_glyphs_tokens, List.head?_append_of_ne_nil _ hne, hpath] at hfirst
    obtain ⟨split', hsplit'⟩ := exists_isDeclaration hindent hlead ⟨b, hb, hascii⟩
      ⟨g, hfirst.symm, hhead g (by rw [hpath]; rfl)⟩
    rw [← flatMap_glyphs_leadTokens, ← List.flatMap_append] at hsplit'
    rw [splitLine?_eq_some_iff.2 hsplit'] at hnone
    cases hnone

namespace PackageSplit.IsDeclaration

variable {root : ModuleId} {split : PackageSplit} {line : List Glyph}

/-- What stands before a declared path is not moved. -/
theorem glyphs_before (h : split.IsDeclaration line) {us : List Token}
    (hus : Moves root false (RuleText.tokens split.before) us) :
    us.flatMap Token.glyphs = split.before := by
  obtain ⟨indent, lead, hbefore, hindent, hlead, b, hb, -⟩ := h.exists_lead
  have hleadNe : lead ≠ [] := by
    rintro rfl
    cases hb
  have htokens : RuleText.tokens split.before = leadTokens indent lead ++ [] := by
    have hlead' := tokens_lead_append hindent hlead hleadNe []
    rwa [List.append_nil, ← hbefore] at hlead'
  rw [htokens] at hus
  obtain ⟨us', rfl, hus'⟩ := hus.exists_of_append_left ne_dataWord_of_mem_leadTokens
  rw [hus'.eq_nil, List.append_nil, flatMap_glyphs_leadTokens, hbefore]

/-- The blanks behind a declared path are not moved, and nothing comes behind them that was not
there. -/
theorem glyphs_after (h : split.IsDeclaration line) {gs : List Glyph} {ws : List Token}
    (hws : Moves root false (RuleText.tokens (split.after ++ gs)) ws) :
    ∃ rest, ws.flatMap Token.glyphs = split.after ++ rest ∧ (gs = [] → rest = []) := by
  rw [tokens_append_of_marks (isWord_of_isBlank_of_mem h.after_blank)] at hws
  obtain ⟨ws', rfl, hws'⟩ := hws.exists_of_append_left fun t ht => by
    obtain ⟨g, -, rfl⟩ := List.mem_map.1 ht
    exact Token.noConfusion
  refine ⟨ws'.flatMap Token.glyphs, by rw [List.flatMap_append, flatMap_glyphs_marks], ?_⟩
  rintro rfl
  rw [hws'.eq_nil]
  rfl

/-- A line that declares a path declares another that is put in its place. -/
theorem replace (h : split.IsDeclaration line) {cs : List Char} (hne : cs ≠ [])
    (hcs : ∀ c ∈ cs, isPathChar c = true) :
    { split with path := plain cs }.IsDeclaration
      (split.before ++ (plain cs ++ split.after)) := by
  have hblank : ∀ g ∈ plain cs, g.isBlank = false := by
    intro g hg
    obtain ⟨c, hc, rfl⟩ := List.mem_map.1 hg
    refine Bool.eq_false_iff.2 fun hblank => ?_
    have hpath := isPathChar_of_isBlank hblank
    rw [Glyph.face_of_isCode rfl, hcs c hc] at hpath
    cases hpath
  exact ⟨rfl, h.exists_lead, mt List.map_eq_nil_iff.1 hne,
    fun g hg => hblank g (List.mem_of_mem_head? hg), fun g hg => hblank g (List.mem_of_getLast? hg),
    h.after_blank⟩

/-- A text that begins with a line that declares a path is cut there. -/
theorem splitLines?_eq (h : split.IsDeclaration line) (others : List (List Glyph)) :
    splitLines? (line :: others) = some { split with after := split.after ++ others.flatten } := by
  rw [splitLines?, splitLine?_eq_some_iff.2 h]

end PackageSplit.IsDeclaration

/-! ### Moved sources -/

section Moved

variable {root : ModuleId} {cs : List Char} {us ws : List Token}

/-- A text whose first line declares a path declares another that is put in its place. -/
theorem exists_splitLines?_of_isDeclaration {cut : PackageSplit} {line gs : List Glyph}
    (hcut : cut.IsDeclaration line) (hne : cs ≠ []) (hcs : ∀ c ∈ cs, isPathChar c = true)
    (hlines : ∀ rest, (gs = [] → rest = []) → ∃ others,
      lines (cut.before ++ (plain cs ++ (cut.after ++ rest))) =
        (cut.before ++ (plain cs ++ cut.after)) :: others)
    (hus : Moves root false (tokens cut.before) us)
    (hws : Moves root false (tokens (cut.after ++ gs)) ws) :
    ∃ split, splitLines? (lines (us.flatMap Token.glyphs ++
      (plain cs ++ ws.flatMap Token.glyphs))) = some split ∧ split.path = plain cs := by
  obtain ⟨rest, hrest, hnil⟩ := hcut.glyphs_after hws
  obtain ⟨others, hothers⟩ := hlines rest hnil
  rw [hcut.glyphs_before hus, hrest, hothers, (hcut.replace hne hcs).splitLines?_eq]
  exact ⟨_, rfl, rfl⟩

theorem face_ne_of_mem_plain (hcs : ∀ c ∈ cs, isPathChar c = true) :
    ∀ g ∈ plain cs, g.face ≠ '\n' := by
  intro g hg
  obtain ⟨c, hc, rfl⟩ := List.mem_map.1 hg
  rintro rfl
  exact absurd (hcs _ hc) (by decide)

/-- The last line of a text, if it declares a path, declares another that is put in its place. -/
theorem exists_splitLines?_of_last (hne : cs ≠ []) (hcs : ∀ c ∈ cs, isPathChar c = true)
    {l : List Glyph} (hl : ∀ g ∈ l, g.face ≠ '\n') {split : PackageSplit}
    (h : splitLines? (lines l) = some split) (hus : Moves root false (tokens split.before) us)
    (hws : Moves root false (tokens split.after) ws) :
    ∃ split', splitLines? (lines (us.flatMap Token.glyphs ++
      (plain cs ++ ws.flatMap Token.glyphs))) = some split' ∧ split'.path = plain cs := by
  rcases eq_or_ne l [] with rfl | hlne
  · cases h
  · rw [lines_eq_singleton hl hlne, splitLines?] at h
    split at h
    · rename_i cut hcut
      rw [splitLine?_eq_some_iff] at hcut
      obtain rfl := Option.some.inj h
      refine exists_splitLines?_of_isDeclaration hcut hne hcs (fun rest hrest => ?_) hus hws
      rw [hrest rfl, List.append_nil]
      rw [hcut.eq] at hl
      simp only [List.forall_mem_append] at hl
      have hmoved : ∀ g ∈ cut.before ++ (plain cs ++ cut.after), g.face ≠ '\n' := by
        simp only [List.forall_mem_append]
        exact ⟨hl.1, face_ne_of_mem_plain hcs, hl.2.2⟩
      refine ⟨[], lines_eq_singleton hmoved ?_⟩
      simp [plain, hne]
    · cases h

/-- A line that declares a path and ends declares another that is put in its place. -/
theorem exists_splitLines?_of_line (hne : cs ≠ []) (hcs : ∀ c ∈ cs, isPathChar c = true)
    {l gs : List Glyph} {e : Glyph} (hl : ∀ g ∈ l, g.face ≠ '\n') (he : e.face = '\n')
    {cut : PackageSplit} (hcut : cut.IsDeclaration (l ++ [e]))
    (hus : Moves root false (tokens cut.before) us)
    (hws : Moves root false (tokens (cut.after ++ gs)) ws) :
    ∃ split', splitLines? (lines (us.flatMap Token.glyphs ++
      (plain cs ++ ws.flatMap Token.glyphs))) = some split' ∧ split'.path = plain cs := by
  refine exists_splitLines?_of_isDeclaration hcut hne hcs (fun rest _ => ?_) hus hws
  have hblank : e.isBlank = true := by
    rw [Glyph.isBlank, he]
    decide
  have hafterNe : cut.after ≠ [] :=
    (cuts_of_splitLine? (splitLine?_eq_some_iff.2 hcut)).2 e List.getLast?_concat hblank
  obtain ⟨after, e', hafter⟩ := (List.eq_nil_or_concat cut.after).resolve_left hafterNe
  have heq := hcut.eq
  rw [List.concat_eq_append] at hafter
  rw [hafter, ← List.append_assoc, ← List.append_assoc] at heq
  obtain ⟨rfl, hlast⟩ := List.append_inj' heq rfl
  obtain rfl := (List.cons.inj hlast).1
  simp only [List.forall_mem_append] at hl
  have hmoved : ∀ g ∈ cut.before ++ (plain cs ++ after), g.face ≠ '\n' := by
    simp only [List.forall_mem_append]
    exact ⟨hl.1.1, face_ne_of_mem_plain hcs, hl.2⟩
  refine ⟨lines rest, ?_⟩
  have hline := lines_append_lineEnd hmoved he rest
  rw [hafter]
  simpa only [List.append_assoc, List.singleton_append] using hline

/-- A line that declares no path is moved before the others. -/
theorem exists_moves_of_line (hroot : ∀ c ∈ root.path.toList, isPathChar c = true)
    {l gs : List Glyph} {e : Glyph} (hl : ∀ g ∈ l, g.face ≠ '\n') (he : e.face = '\n')
    (hnone : splitLine? (l ++ [e]) = none) (hus : Moves root false (tokens (l ++ e :: gs)) us) :
    ∃ l' us', us.flatMap Token.glyphs = l' ++ e :: us'.flatMap Token.glyphs ∧
      (∀ g ∈ l', g.face ≠ '\n') ∧ splitLine? (l' ++ [e]) = none ∧
      Moves root false (tokens gs) us' := by
  have hword : e.isWord = false := isWord_of_isBlank (by
    rw [Glyph.isBlank, he]
    decide)
  have hdot : (Token.mark e).isDot = false := by
    rw [Token.isDot, he]
    decide
  rw [tokens_append_mark hword] at hus
  obtain ⟨u₁, u₂, rfl, hu₁, hu₂⟩ := hus.exists_of_append_mark hdot
  refine ⟨u₁.flatMap Token.glyphs, u₂, ?_, fun g hg => ?_, ?_, hu₂⟩
  · rw [List.flatMap_append, List.flatMap_cons]
    rfl
  · rcases hu₁.mem_glyphs hroot hg with hmem | hpath
    · rw [flatMap_glyphs_tokens] at hmem
      exact hl g hmem
    · intro hend
      rw [hend] at hpath
      exact absurd hpath (by decide)
  · have hline : Moves root false (tokens (l ++ [e])) (u₁ ++ [.mark e]) := by
      rw [tokens_append_mark hword]
      exact hu₁.append (.keep (fun h => Token.noConfusion h.1) .nil)
    have hmoved := hline.splitLine?_eq_none (isCut_tokens _) (by rwa [flatMap_glyphs_tokens])
    rwa [List.flatMap_append] at hmoved

/-- The first line of a moved text that declares a path is the one that did so before. -/
theorem exists_splitLines?_of_moves (hroot : ∀ c ∈ root.path.toList, isPathChar c = true)
    (hne : cs ≠ []) (hcs : ∀ c ∈ cs, isPathChar c = true) {gs : List Glyph} {split : PackageSplit}
    (h : splitLines? (lines gs) = some split) (hus : Moves root false (tokens split.before) us)
    (hws : Moves root false (tokens split.after) ws) :
    ∃ split', splitLines? (lines (us.flatMap Token.glyphs ++
      (plain cs ++ ws.flatMap Token.glyphs))) = some split' ∧ split'.path = plain cs := by
  induction gs using lines_induction generalizing split us with
  | last l hl => exact exists_splitLines?_of_last hne hcs hl h hus hws
  | line l e gs hl he ih =>
    rw [lines_append_lineEnd hl he, splitLines?] at h
    split at h
    · rename_i cut hcut
      obtain rfl := Option.some.inj h
      rw [flatten_lines] at hws
      exact exists_splitLines?_of_line hne hcs hl he (splitLine?_eq_some_iff.1 hcut) hus hws
    · rename_i hnone
      obtain ⟨split', hsplit', rfl⟩ := Option.map_eq_some_iff.1 h
      rw [List.append_assoc, List.singleton_append] at hus
      obtain ⟨l', us', hglyphs, hl', hnone', hus'⟩ := exists_moves_of_line hroot hl he hnone hus
      obtain ⟨moved, hmoved, hpath⟩ := ih hsplit' hus' hws
      refine ⟨{ moved with before := l' ++ [e] ++ moved.before }, ?_, hpath⟩
      rw [hglyphs, List.append_assoc, List.cons_append, lines_append_lineEnd hl' he, splitLines?,
        hnone', hmoved]
      rfl

end Moved

/-- A source that is moved declares the package that is written in place of its own. -/
theorem path_findPackage?_of_relocateSplit {source out : String} {split : PackageSplit}
    {package root : ModuleId} (hsplit : declaredPackage source = .ok split)
    (hne : package.path.toList ≠ []) (hpackage : ∀ c ∈ package.path.toList, isPathChar c = true)
    (hroot : ∀ c ∈ root.path.toList, isPathChar c = true)
    (h : relocateSplit split package root = .ok out) :
    (findPackage? out).map (·.path) = some package.path := by
  obtain ⟨hcut, hpath⟩ := declaredPackage_eq_ok_iff.1 hsplit
  obtain ⟨us, ws, hus, hws, hglyphs⟩ :=
    exists_moves_of_relocateSplit (cuts_of_splitAtPackage? hcut) hpath hpackage hroot h
  obtain ⟨moved, hmoved, hmovedPath⟩ :=
    exists_splitLines?_of_moves hroot hne hpackage hcut hus hws
  rw [findPackage?_eq_map, splitAtPackage?, hglyphs, hmoved, Option.map_some, Option.map_some]
  change some (String.ofList (view moved.path)) = some package.path
  rw [hmovedPath, view_plain, String.ofList_toList]

theorem toList_ne_nil_forTemplate (target : TargetName) (kind : TemplateKind) :
    (ModuleId.forTemplate target kind).path.toList ≠ [] := by
  rw [ModuleId.toList_path_forTemplate]
  exact List.cons_ne_nil _ _

/-- A main source that is moved into the module of a template declares this module. -/
theorem path_findPackage?_relocateMain {source out : String} {target : TargetName}
    {kind : TemplateKind} (h : relocateMain source (.forTemplate target kind) = .ok out) :
    (findPackage? out).map (·.path) = some (ModuleId.forTemplate target kind).path := by
  obtain ⟨split, hsplit, hout⟩ := relocateMain_eq_ok_iff.1 h
  have hchars : ∀ c ∈ (ModuleId.forTemplate target kind).path.toList, isPathChar c = true :=
    fun _ => ModuleId.isPathChar_of_mem_forTemplate
  exact path_findPackage?_of_relocateSplit hsplit (toList_ne_nil_forTemplate target kind) hchars
    hchars hout

/-- A library that is moved beneath the module of a template declares the module it is moved to. -/
theorem path_findPackage?_relocateLib {source out : String} {target : TargetName}
    {kind : TemplateKind} {id : ModuleId}
    (h : relocateLib source (.forTemplate target kind) = .ok (id, out)) :
    (findPackage? out).map (·.path) = some id.path := by
  obtain ⟨split, name, out', hsplit, hname, hout, hmoved⟩ := relocateLib_eq_ok_iff.1 h
  obtain ⟨rfl, rfl⟩ := Prod.mk.inj hmoved
  have hchars : ∀ c ∈ (ModuleId.forTemplate target kind).path.toList, isPathChar c = true :=
    fun _ => ModuleId.isPathChar_of_mem_forTemplate
  have hdeclared := isPathChar_of_isDottedPath (cuts_of_declaredPackage hsplit).2
  have hname' : ∀ c ∈ name.toList, isPathChar c = true :=
    fun c hc => hdeclared c (mem_of_libraryName? hname c hc)
  refine path_findPackage?_of_relocateSplit hsplit ?_
    (fun _ => ModuleId.isPathChar_of_mem_lib hchars hname') hchars hout
  rw [ModuleId.toList_path_lib]
  exact List.append_ne_nil_of_left_ne_nil (toList_ne_nil_forTemplate target kind) _

end PolicyEngine.RuleText
