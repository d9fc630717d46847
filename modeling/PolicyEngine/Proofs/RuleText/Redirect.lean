import Mathlib.Data.List.Basic
import PolicyEngine.Proofs.Outcome
import PolicyEngine.Proofs.RuleText.Reference

/-!
# Redirecting references

Redirecting the references of a source keeps every token but those of a reference to the libraries,
which give way to the tokens of the module's own. It succeeds if behind each reference a dot and the
word `inventory` or `lib` stand. What it keeps is marked as before, since a path may stand in code
wherever another does, and no word of what it puts in meets another word. So the references of the
outcome are those to the inventory and to the libraries of the module, and no others.

## Main definitions

* `PolicyEngine.RuleText.IsAllowed` — what may stand behind a reference.
* `PolicyEngine.RuleText.Moves` — tokens with their references redirected.

## Main results

* `PolicyEngine.RuleText.exists_redirect_iff` — when references can be redirected.
* `PolicyEngine.RuleText.exists_moves` — redirecting moves tokens.
* `PolicyEngine.RuleText.Moves.isCut`, `PolicyEngine.RuleText.Moves.isLexed` — moved tokens are well
  cut and marked as they are.
* `PolicyEngine.RuleText.Moves.references` — what stands behind the references of moved tokens.
-/

namespace PolicyEngine.RuleText

/-! ### When references can be redirected -/

/-- What may stand behind a reference: a dot and the word `inventory` or `lib`. -/
def IsAllowed (ts : List Token) : Prop :=
  ∃ rest, ts = .dot :: .word "inventory".toList :: rest ∨ ts = .dot :: .word "lib".toList :: rest

section References

variable {P : List Token → Prop} {afterDot : Bool} {ts : List Token}

/-- A reference is followed by no further one before its first identifier has ended. -/
theorem references_reference {segment : List Char} (hsegment : segment ≠ dataWord) :
    References P afterDot (.word dataWord :: .dot :: .word segment :: ts) ↔
      (afterDot = false → P (.dot :: .word segment :: ts)) ∧ References P false ts := by
  rw [references_cons, references_cons, references_cons]
  constructor
  · rintro ⟨hfirst, -, -, hrest⟩
    exact ⟨hfirst rfl, hrest⟩
  · rintro ⟨hfirst, hrest⟩
    refine ⟨fun _ => hfirst, fun h => ?_, fun h => ?_, hrest⟩
    · cases h
    · exact absurd (Token.word.inj h) hsegment

/-- What is no reference makes no difference. -/
theorem references_keep {t : Token} (ht : ¬(t = .word dataWord ∧ afterDot = false)) :
    References P afterDot (t :: ts) ↔ References P t.isDot ts := by
  rw [references_cons]
  exact and_iff_right fun hword hdot => absurd ⟨hword, hdot⟩ ht

theorem not_references_of_not_isAllowed (h : ¬IsAllowed ts) :
    ¬References IsAllowed false (.word dataWord :: ts) :=
  fun hrefs => h ((references_cons.1 hrefs).1 rfl rfl)

end References

/-- References can be redirected if behind each of them something allowed stands. -/
theorem exists_redirect_iff (root : ModuleId) {afterDot : Bool} {ts : List Token} :
    (∃ out, redirect root afterDot ts = .ok out) ↔ References IsAllowed afterDot ts := by
  fun_induction redirect root afterDot ts with
  | case1 => exact ⟨fun _ => references_nil, fun _ => ⟨[], rfl⟩⟩
  | case2 afterDot g rest ih =>
    rw [Outcome.exists_map_eq_ok, ih, references_keep]
    rintro ⟨hword, -⟩
    cases hword
  | case3 afterDot w hword g others hdot ih =>
    obtain ⟨rfl, rfl⟩ := hword
    rw [Token.isDot_iff.1 hdot, Outcome.exists_map_eq_ok, ih, references_reference (by decide)]
    exact (and_iff_right fun _ => ⟨others, .inl rfl⟩).symm
  | case4 afterDot w hword g others hdot _ ih =>
    obtain ⟨rfl, rfl⟩ := hword
    rw [Token.isDot_iff.1 hdot, Outcome.exists_map_eq_ok, ih, references_reference (by decide)]
    exact (and_iff_right fun _ => ⟨others, .inr rfl⟩).symm
  | case5 afterDot w hword g segment others hdot hinventory hlib =>
    obtain ⟨rfl, rfl⟩ := hword
    refine iff_of_false (fun ⟨_, h⟩ => by cases h) (not_references_of_not_isAllowed ?_)
    rintro ⟨rest, heq | heq⟩
    · exact hinventory (Token.word.inj (List.cons.inj (List.cons.inj heq).2).1)
    · exact hlib (Token.word.inj (List.cons.inj (List.cons.inj heq).2).1)
  | case6 afterDot w hword g segment others hdot =>
    obtain ⟨rfl, rfl⟩ := hword
    refine iff_of_false (fun ⟨_, h⟩ => by cases h) (not_references_of_not_isAllowed ?_)
    rintro ⟨rest, heq | heq⟩ <;> exact hdot (Token.isDot_iff.2 (List.cons.inj heq).1)
  | case7 afterDot w hword g rest hrest =>
    obtain ⟨rfl, rfl⟩ := hword
    refine iff_of_false (fun ⟨_, h⟩ => by cases h) (not_references_of_not_isAllowed ?_)
    rintro ⟨others, heq | heq⟩ <;> exact hrest _ _ (List.cons.inj heq).2
  | case8 afterDot w rest hword _ hrest =>
    obtain ⟨rfl, rfl⟩ := hword
    refine iff_of_false (fun ⟨_, h⟩ => by cases h) (not_references_of_not_isAllowed ?_)
    rintro ⟨others, heq | heq⟩ <;> exact hrest _ _ heq
  | case9 afterDot w rest hword ih =>
    rw [Outcome.exists_map_eq_ok, ih, references_keep]
    · rfl
    · rintro ⟨heq, hdot⟩
      exact hword ⟨Token.word.inj heq, hdot⟩

/-! ### Moved tokens -/

/-- The tokens of a reference to the libraries of a module. -/
def libTokens (root : ModuleId) : List Token := tokens (plain (libReference root))

/-- Tokens with their references redirected to a module. The flag tells whether a dot
precedes them. -/
inductive Moves (root : ModuleId) : Bool → List Token → List Token → Prop where
  | nil {afterDot : Bool} : Moves root afterDot [] []
  | keep {afterDot : Bool} {t : Token} {ts us : List Token}
      (ht : ¬(t = .word dataWord ∧ afterDot = false)) (h : Moves root t.isDot ts us) :
      Moves root afterDot (t :: ts) (t :: us)
  | inventory {ts us : List Token} (h : Moves root false ts us) :
      Moves root false (.word dataWord :: .dot :: .word "inventory".toList :: ts)
        (.word dataWord :: .dot :: .word "inventory".toList :: us)
  | library {ts us : List Token} (h : Moves root false ts us) :
      Moves root false (.word dataWord :: .dot :: .word "lib".toList :: ts) (libTokens root ++ us)

theorem flatMap_chars_libTokens (root : ModuleId) :
    (libTokens root).flatMap Token.chars = libReference root := by
  rw [libTokens, flatMap_chars_tokens, map_char_plain]

/-- Redirecting the references of tokens moves them. -/
theorem exists_moves {root : ModuleId} {afterDot : Bool} {ts : List Token} {out : List Char}
    (h : redirect root afterDot ts = .ok out) :
    ∃ us, Moves root afterDot ts us ∧ us.flatMap Token.chars = out := by
  fun_induction redirect root afterDot ts generalizing out with
  | case1 =>
    rw [← Except.ok.inj h]
    exact ⟨[], .nil, rfl⟩
  | case2 afterDot g rest ih =>
    obtain ⟨tail, htail, rfl⟩ := Outcome.map_eq_ok.1 h
    obtain ⟨us, hus, rfl⟩ := ih htail
    refine ⟨.mark g :: us, .keep ?_ hus, rfl⟩
    rintro ⟨hword, -⟩
    cases hword
  | case3 afterDot w hword g others hdot ih =>
    obtain ⟨rfl, rfl⟩ := hword
    obtain ⟨tail, htail, rfl⟩ := Outcome.map_eq_ok.1 h
    obtain ⟨us, hus, rfl⟩ := ih htail
    obtain rfl := Token.mark.inj (Token.isDot_iff.1 hdot)
    refine ⟨_, .inventory hus, ?_⟩
    simp [Token.chars, Token.dot]
  | case4 afterDot w hword g others hdot _ ih =>
    obtain ⟨rfl, rfl⟩ := hword
    obtain ⟨tail, htail, rfl⟩ := Outcome.map_eq_ok.1 h
    obtain ⟨us, hus, rfl⟩ := ih htail
    rw [Token.isDot_iff.1 hdot]
    refine ⟨_, .library hus, ?_⟩
    rw [List.flatMap_append, flatMap_chars_libTokens]
  | case5 => cases h
  | case6 => cases h
  | case7 => cases h
  | case8 => cases h
  | case9 afterDot w rest hword ih =>
    obtain ⟨tail, htail, rfl⟩ := Outcome.map_eq_ok.1 h
    obtain ⟨us, hus, rfl⟩ := ih htail
    refine ⟨.word w :: us, .keep ?_ hus, rfl⟩
    rintro ⟨heq, hdot⟩
    exact hword ⟨Token.word.inj heq, hdot⟩

/-! ### Well cut and marked as they are -/

/-- Tokens whose glyphs are marked as the scan marks their characters in a context. -/
def IsLexed (context : Context) (ts : List Token) : Prop :=
  glyphsFrom context (ts.flatMap Token.chars) = ts.flatMap Token.glyphs

theorem isLexed_append {context : Context} {ts us : List Token} :
    IsLexed context (ts ++ us) ↔
      IsLexed context ts ∧ IsLexed (context.after (ts.flatMap Token.chars)) us := by
  rw [IsLexed, List.flatMap_append, List.flatMap_append, glyphsFrom_append]
  constructor
  · intro h
    rw [← glyphsFrom_append] at h
    obtain ⟨hts, hus⟩ := glyphsFrom_of_eq_append h
    rw [map_char_flatMap_glyphs] at hts
    rw [map_char_flatMap_glyphs, map_char_flatMap_glyphs] at hus
    exact ⟨hts, hus⟩
  · rintro ⟨hts, hus⟩
    rw [hts, hus]

theorem after_flatMap_append (context : Context) (ts us : List Token) :
    context.after ((ts ++ us).flatMap Token.chars) =
      (context.after (ts.flatMap Token.chars)).after (us.flatMap Token.chars) := by
  rw [List.flatMap_append, Context.after_append]

/-- The tokens of a path are marked as code in code. -/
theorem isLexed_code_of_path {cs : List Char} (h : ∀ c ∈ cs, isPathChar c = true) :
    IsLexed .code (tokens (plain cs)) := by
  rw [IsLexed, flatMap_chars_tokens, flatMap_glyphs_tokens, map_char_plain,
    glyphsFrom_code_of_path h]

/-- Tokens that begin with a character of a path in code can be marked in no other context. -/
theorem IsLexed.eq_code {context : Context} {ts : List Token} {c : Char} {gs : List Glyph}
    (h : IsLexed context ts) (hts : ts.flatMap Token.glyphs = ⟨c, true⟩ :: gs)
    (hc : isPathChar c = true) : context = .code := by
  rw [IsLexed, ← map_char_flatMap_glyphs, hts, List.map_cons, glyphsFrom] at h
  exact eq_code_of_shows hc (congrArg Glyph.isCode (List.cons.inj h).1)

namespace Moves

variable {root : ModuleId} {afterDot : Bool} {ts us : List Token}

theorem ne_nil (h : Moves root afterDot ts us) (hts : ts ≠ []) : us ≠ [] := by
  cases h with
  | nil => exact absurd rfl hts
  | keep ht h => exact List.cons_ne_nil _ _
  | inventory h => exact List.cons_ne_nil _ _
  | library h =>
    intro hnil
    have hchars := flatMap_chars_libTokens root
    rw [(List.append_eq_nil_iff.1 hnil).1] at hchars
    simp [libReference] at hchars

theorem eq_nil (h : Moves root afterDot [] us) : us = [] := by
  cases h with
  | nil => rfl

/-- Moved tokens begin with no word if the tokens do. -/
theorem apart_head? (h : Moves root afterDot ts us) (hts : ∀ t ∈ ts.head?, t.isWord = false) :
    ∀ u ∈ us.head?, u.isWord = false := by
  cases h with
  | nil => exact hts
  | keep ht h => exact hts
  | inventory h => cases hts _ rfl
  | library h => cases hts _ rfl

/-- How moved tokens end does not depend on what stands before them. -/
theorem apart_getLast?_append (h : Moves root afterDot ts us) (hne : ts ≠ [])
    (ih : (∀ t ∈ ts.getLast?, t.isWord = false) → ∀ u ∈ us.getLast?, u.isWord = false)
    (ts' us' : List Token) (hts : ∀ t ∈ (ts' ++ ts).getLast?, t.isWord = false) :
    ∀ u ∈ (us' ++ us).getLast?, u.isWord = false := by
  rw [List.getLast?_append_of_ne_nil _ hne] at hts
  rw [List.getLast?_append_of_ne_nil _ (h.ne_nil hne)]
  exact ih hts

/-- Moved tokens end in no word if the tokens do. -/
theorem apart_getLast? (h : Moves root afterDot ts us) (hts : ∀ t ∈ ts.getLast?, t.isWord = false) :
    ∀ u ∈ us.getLast?, u.isWord = false := by
  induction h with
  | nil => exact hts
  | @keep _ t ts us ht h ih =>
    rcases eq_or_ne ts [] with rfl | hne
    · rw [h.eq_nil]
      exact hts
    · exact h.apart_getLast?_append hne ih [t] [t] hts
  | @inventory ts us h ih =>
    rcases eq_or_ne ts [] with rfl | hne
    · cases hts _ rfl
    · let reference : List Token := [.word dataWord, .dot, .word "inventory".toList]
      exact h.apart_getLast?_append hne ih reference reference hts
  | @library ts us h ih =>
    rcases eq_or_ne ts [] with rfl | hne
    · cases hts _ rfl
    · exact h.apart_getLast?_append hne ih [.word dataWord, .dot, .word "lib".toList] _ hts

/-- Moved tokens are well cut if the tokens are. -/
theorem isCut (h : Moves root afterDot ts us) (hts : IsCut ts) : IsCut us := by
  induction h with
  | nil => exact hts
  | keep _ h ih =>
    cases hts with
    | cons ht hapart hrest => exact .cons ht (fun hword => h.apart_head? (hapart hword)) (ih hrest)
  | inventory h ih =>
    cases hts with
    | cons hdata hapart hrest =>
      cases hrest with
      | cons hdot hapart' hrest =>
        cases hrest with
        | cons hword hapart'' hrest =>
          have hhead := h.apart_head? (hapart'' rfl)
          exact .cons hdata hapart (.cons hdot hapart' (.cons hword (fun _ => hhead) (ih hrest)))
  | library h ih =>
    cases hts with
    | cons _ _ hrest =>
      cases hrest with
      | cons _ _ hrest =>
        cases hrest with
        | cons _ hapart hrest =>
          exact (isCut_tokens _).append (ih hrest) (.inr (h.apart_head? (hapart rfl)))

theorem isPathChar_libReference (hroot : ∀ c ∈ root.path.toList, isPathChar c = true) :
    ∀ c ∈ libReference root, isPathChar c = true := by
  intro c hc
  rw [libReference, String.toList_append, String.toList_append] at hc
  rcases List.mem_append.1 hc with hc | hc
  · rcases List.mem_append.1 hc with hc | hc
    · exact List.all_eq_true.1 (by decide : "data.".toList.all isPathChar = true) c hc
    · exact hroot c hc
  · exact List.all_eq_true.1 (by decide : ".lib".toList.all isPathChar = true) c hc

/-- Moved tokens are marked as they are, and leave the scan in the context in which the
tokens do. -/
theorem isLexed (hroot : ∀ c ∈ root.path.toList, isPathChar c = true)
    (h : Moves root afterDot ts us) {context : Context} (hts : IsLexed context ts) :
    IsLexed context us ∧
      context.after (us.flatMap Token.chars) = context.after (ts.flatMap Token.chars) := by
  induction h generalizing context with
  | nil => exact ⟨hts, rfl⟩
  | @keep _ t ts us _ h ih =>
    obtain ⟨hfirst, hrest⟩ := isLexed_append.1 (show IsLexed context ([t] ++ ts) from hts)
    obtain ⟨hmoved, hafter⟩ := ih hrest
    refine ⟨isLexed_append.2 ⟨hfirst, hmoved⟩, ?_⟩
    change context.after (([t] ++ us).flatMap Token.chars) =
      context.after (([t] ++ ts).flatMap Token.chars)
    rw [after_flatMap_append, after_flatMap_append, hafter]
  | @inventory ts us h ih =>
    let reference : List Token := [.word dataWord, .dot, .word "inventory".toList]
    obtain ⟨hfirst, hrest⟩ := isLexed_append.1 (show IsLexed context (reference ++ ts) from hts)
    obtain ⟨hmoved, hafter⟩ := ih hrest
    refine ⟨isLexed_append.2 ⟨hfirst, hmoved⟩, ?_⟩
    change context.after ((reference ++ us).flatMap Token.chars) =
      context.after ((reference ++ ts).flatMap Token.chars)
    rw [after_flatMap_append, after_flatMap_append, hafter]
  | @library ts us h ih =>
    let reference : List Token := [.word dataWord, .dot, .word "lib".toList]
    obtain rfl := hts.eq_code rfl (by decide)
    obtain ⟨-, hrest⟩ := isLexed_append.1 (show IsLexed .code (reference ++ ts) from hts)
    have hreference : Context.code.after (reference.flatMap Token.chars) = .code :=
      after_code_of_path (List.all_eq_true.1 (by decide : "data.lib".toList.all isPathChar = true))
    have hpath := isPathChar_libReference hroot
    have hlib : Context.code.after ((libTokens root).flatMap Token.chars) = .code := by
      rw [flatMap_chars_libTokens]
      exact after_code_of_path hpath
    rw [hreference] at hrest
    obtain ⟨hmoved, hafter⟩ := ih hrest
    refine ⟨isLexed_append.2 ⟨isLexed_code_of_path hpath, by rwa [hlib]⟩, ?_⟩
    change _ = Context.code.after ((reference ++ ts).flatMap Token.chars)
    rw [after_flatMap_append, after_flatMap_append, hlib, hreference, hafter]

end Moves

/-! ### References of moved tokens -/

section Libraries

variable {root : ModuleId}

/-- The word of a reference to the libraries of a module, and what stands behind it. -/
theorem libTokens_eq (root : ModuleId) :
    ∃ t₂, libTokens root = .word dataWord :: t₂ ∧
      t₂.flatMap Token.shown = '.' :: (root.path ++ ".lib").toList := by
  have hchars : libReference root = dataWord ++ '.' :: (root.path ++ ".lib").toList := by
    rw [libReference]
    simp [dataWord]
  rw [libTokens, hchars]
  exact tokens_plain_of_dot (by decide) _

/-- Behind a reference to the libraries of a module no word begins. -/
theorem apart_of_libTokens {vs : List Token} (h : IsCut (libTokens root ++ vs)) :
    ∀ v ∈ vs.head?, v.isWord = false := by
  have hshown : ((libTokens root).flatMap Token.shown).getLast? = some 'b' := by
    rw [libTokens, ← view_flatMap_glyphs, flatMap_glyphs_tokens, view_plain, libReference,
      String.toList_append, List.getLast?_append]
    rfl
  obtain ⟨t, ht, hmem⟩ := h.of_append_left.exists_of_mem_getLast? hshown
  have hword : t.isWord = true :=
    (h.of_append_left.isProper t (List.mem_of_getLast? ht)).isIdentChar_of_mem hmem ▸ by decide
  cases t with
  | mark g => cases hword
  | word w =>
    obtain ⟨init, hinit⟩ := List.getLast?_eq_some_iff.1 ht
    rw [hinit, List.append_assoc] at h
    exact h.of_append_right.head_of_cons

/-- How a text goes on behind a reference that was redirected to a module. -/
def IsRedirected (root : ModuleId) (text : List Char) : Prop :=
  Continues text "inventory" ∨ Continues text (root.path ++ ".lib")

end Libraries

/-- The references of moved tokens are those to the inventory and to the libraries of the module. -/
theorem Moves.references {root : ModuleId} {afterDot : Bool} {ts us : List Token}
    (hroot : ∀ c ∈ root.path.toList, isPathChar c = true)
    (h : Moves root afterDot ts us) {vs : List Token} (hcut : IsCut (us ++ vs)) :
    References (fun t => IsRedirected root ((t ++ vs).flatMap Token.shown)) afterDot us := by
  induction h with
  | nil => exact references_nil
  | @keep _ t ts us ht h ih =>
    have hrest : IsCut ([t] ++ (us ++ vs)) := hcut
    exact (references_keep ht).2 (ih hrest.of_append_right)
  | @inventory ts us h ih =>
    have hdata : IsCut ([.word dataWord] ++ (.dot :: .word "inventory".toList :: (us ++ vs))) :=
      hcut
    have hrest : IsCut ([.word dataWord, .dot, .word "inventory".toList] ++ (us ++ vs)) := hcut
    refine (references_reference (by decide)).2 ⟨fun _ => .inl ?_, ih hrest.of_append_right⟩
    exact (hdata.of_append_right.continues_iff (by decide)).2 ⟨us ++ vs, rfl⟩
  | @library ts us h ih =>
    rw [List.append_assoc] at hcut
    refine references_append.2 ⟨?_, (ih hcut.of_append_right).of_false⟩
    refine references_path (isPathChar_libReference hroot) fun t₂ heq => .inr ?_
    obtain ⟨t₂', heq', hshown⟩ := libTokens_eq root
    obtain rfl : t₂' = t₂ := (List.cons.inj (heq'.symm.trans heq)).2
    refine ⟨(us ++ vs).flatMap Token.shown, ?_, ?_⟩
    · rw [List.append_assoc, List.flatMap_append, hshown]
      rfl
    · exact hcut.of_append_right.isIdentChar_of_mem_head? (apart_of_libTokens hcut)

end PolicyEngine.RuleText
