import PolicyEngine.Proofs.RuleText.Tokens

/-!
# References to the data document

In the code view a reference to the data document is the whole word `data` with no dot before it.
What it refers to is told by how the view goes on: with a dot and a path. Both can be read off the
tokens of a source, where a reference is a word that follows no dot.

## Main definitions

* `PolicyEngine.RuleText.IsReference` — a text cut before and behind the word of a reference.
* `PolicyEngine.RuleText.Continues` — a text goes on with a dot and a path.
* `PolicyEngine.RuleText.References` — what holds behind each reference of a list of tokens.

## Main results

* `PolicyEngine.RuleText.IsCut.isReference_iff` — references in the view are references in the
  tokens.
* `PolicyEngine.RuleText.IsCut.continues_iff` — going on with an identifier, in the tokens.
* `PolicyEngine.RuleText.references_path` — in a path nothing but its first word can be a reference.
-/

namespace PolicyEngine.RuleText

/-! ### References in a text -/

/-- A reference to the data document in a text, between what stands before and behind its word. -/
structure IsReference (text before after : List Char) : Prop where
  eq : text = before ++ (dataWord ++ after)
  starts : ∀ c ∈ before.getLast?, isIdentChar c = false ∧ c ≠ '.'
  ends : ∀ c ∈ after.head?, isIdentChar c = false

/-- A text goes on with a dot and a path, whose last identifier ends where the path does. -/
def Continues (text : List Char) (path : String) : Prop :=
  ∃ rest, text = '.' :: (path.toList ++ rest) ∧ ∀ c ∈ rest.head?, isIdentChar c = false

/-! ### References among tokens -/

/-- The mark of a dot. -/
def Token.dot : Token := .mark ⟨'.', true⟩

theorem Token.isDot_iff {t : Token} : t.isDot = true ↔ t = dot := by
  constructor
  · intro h
    cases t with
    | word cs => cases h
    | mark g =>
      have hface : g.face = '.' := beq_iff_eq.1 h
      have hg := Glyph.eq_of_isPathChar (g := g) (by rw [hface]; decide)
      rw [hg, hface, dot]
  · rintro rfl
    rfl

/-- Whether a dot stands last, and if there is no token, whether one stands before. -/
def dotBefore (afterDot : Bool) (ts : List Token) : Bool := ts.foldl (fun _ t => t.isDot) afterDot

theorem dotBefore_append (afterDot : Bool) (ts us : List Token) :
    dotBefore afterDot (ts ++ us) = dotBefore (dotBefore afterDot ts) us :=
  List.foldl_append

/-- Only an empty list asks what stands before. -/
theorem dotBefore_eq {ts : List Token} (hne : ts ≠ []) (afterDot afterDot' : Bool) :
    dotBefore afterDot ts = dotBefore afterDot' ts := by
  cases ts with
  | nil => exact absurd rfl hne
  | cons t rest => rfl

theorem dotBefore_of_getLast? {ts : List Token} {t : Token} (h : ts.getLast? = some t)
    (afterDot : Bool) : dotBefore afterDot ts = t.isDot := by
  obtain ⟨init, rfl⟩ := List.getLast?_eq_some_iff.1 h
  rw [dotBefore_append]
  rfl

/-- A property of what stands behind each reference of a list of tokens. -/
def References (P : List Token → Prop) (afterDot : Bool) (ts : List Token) : Prop :=
  ∀ t₁ t₂, ts = t₁ ++ .word dataWord :: t₂ → dotBefore afterDot t₁ = false → P t₂

section References

variable {P Q : List Token → Prop} {afterDot : Bool} {ts us : List Token}

theorem references_nil : References P afterDot [] := by
  intro t₁ t₂ h
  exact absurd h.symm (by simp)

theorem references_cons {t : Token} :
    References P afterDot (t :: ts) ↔
      (t = .word dataWord → afterDot = false → P ts) ∧ References P t.isDot ts := by
  constructor
  · intro h
    refine ⟨fun ht hdot => h [] ts (by rw [ht]; rfl) hdot, fun t₁ t₂ heq hdot => ?_⟩
    exact h (t :: t₁) t₂ (by rw [heq]; rfl) hdot
  · rintro ⟨hfirst, hrest⟩ t₁ t₂ heq hdot
    cases t₁ with
    | nil =>
      obtain ⟨ht, rfl⟩ := List.cons.inj heq
      exact hfirst ht hdot
    | cons u t₁ =>
      obtain ⟨rfl, rfl⟩ := List.cons.inj heq
      exact hrest t₁ t₂ rfl hdot

theorem references_append :
    References P afterDot (ts ++ us) ↔
      References (fun t => P (t ++ us)) afterDot ts ∧ References P (dotBefore afterDot ts) us := by
  induction ts generalizing afterDot with
  | nil => exact ⟨fun h => ⟨references_nil, h⟩, fun h => h.2⟩
  | cons t rest ih =>
    rw [List.cons_append, references_cons, references_cons, ih, and_assoc]
    rfl

/-- Behind a dot there are no more references than without one. -/
theorem References.of_false (h : References P false ts) : References P afterDot ts := by
  intro t₁ t₂ heq hdot
  refine h t₁ t₂ heq ?_
  cases t₁ with
  | nil => rfl
  | cons t t₁ => exact hdot

theorem References.imp (h : References P afterDot ts) (himp : ∀ t, P t → Q t) :
    References Q afterDot ts :=
  fun t₁ t₂ heq hdot => himp t₂ (h t₁ t₂ heq hdot)

end References

/-! ### From the text to the tokens -/

namespace IsCut

variable {ts : List Token} {before after : List Char}

/-- Where a well cut list is cut before a word, no word ends. -/
theorem apart_of_append_cons {t₁ t₂ : List Token} {w : List Char}
    (h : IsCut (t₁ ++ .word w :: t₂)) :
    ∀ t ∈ t₁.getLast?, t.isWord = false := by
  intro t ht
  obtain ⟨init, rfl⟩ := List.getLast?_eq_some_iff.1 ht
  rw [List.append_assoc] at h
  cases h.of_append_right with
  | cons _ hapart _ =>
    cases t with
    | mark g => rfl
    | word cs => cases hapart rfl _ rfl

/-- Where a well cut list is cut behind a word, no word begins. -/
theorem head_of_cons {t₂ : List Token} {w : List Char} (h : IsCut (.word w :: t₂)) :
    ∀ t ∈ t₂.head?, t.isWord = false := by
  cases h with
  | cons _ hapart _ => exact hapart rfl

/-- A well cut list ends in a dot if it shows one last. -/
theorem dotBefore_eq_false_iff (h : IsCut ts) :
    dotBefore false ts = false ↔ ∀ c ∈ (ts.flatMap Token.shown).getLast?, c ≠ '.' := by
  cases hlast : ts.getLast? with
  | none =>
    rw [List.getLast?_eq_none_iff.1 hlast]
    simp [dotBefore]
  | some t =>
    have ht := h.isProper t (List.mem_of_getLast? hlast)
    have hdot := ht.eq_dot_iff_of_mem (List.getLast_mem ht.shown_ne_nil)
    rw [dotBefore_of_getLast? hlast, h.getLast?_flatMap_shown hlast,
      List.getLast?_eq_some_getLast ht.shown_ne_nil]
    simp [hdot]

/-- References in the code view are references among the tokens. -/
theorem isReference_iff (h : IsCut ts) :
    IsReference (ts.flatMap Token.shown) before after ↔
      ∃ t₁ t₂, ts = t₁ ++ .word dataWord :: t₂ ∧ dotBefore false t₁ = false ∧
        t₁.flatMap Token.shown = before ∧ t₂.flatMap Token.shown = after := by
  constructor
  · rintro ⟨heq, hstarts, hends⟩
    obtain ⟨hne, hdata⟩ := isIdentChar_of_isIdentifier (by decide : isIdentifier dataWord = true)
    obtain ⟨t₁, t₂, rfl, rfl, rfl⟩ :=
      h.exists_word hne hdata heq (fun c hc => (hstarts c hc).1) hends
    have hdot := h.of_append_left.dotBefore_eq_false_iff.2 fun c hc => (hstarts c hc).2
    exact ⟨t₁, t₂, rfl, hdot, rfl, rfl⟩
  · rintro ⟨t₁, t₂, rfl, hdot, rfl, rfl⟩
    have hleft := h.of_append_left
    refine ⟨?_, fun c hc => ⟨?_, ?_⟩, ?_⟩
    · rw [List.flatMap_append, List.flatMap_cons, Token.shown_word]
    · exact hleft.isIdentChar_of_mem_getLast? h.apart_of_append_cons c hc
    · exact hleft.dotBefore_eq_false_iff.1 hdot c hc
    · exact h.of_append_cons.isIdentChar_of_mem_head? h.of_append_right.head_of_cons

/-- A well cut list that shows a dot and nothing else is one. -/
theorem eq_dot_of_shown (h : IsCut ts) (hshown : ts.flatMap Token.shown = ['.']) :
    ts = [Token.dot] := by
  cases h with
  | nil => cases hshown
  | @cons t rest ht _ hrest =>
    rw [List.flatMap_cons] at hshown
    rcases List.append_eq_cons_iff.1 hshown with ⟨hnil, -⟩ | ⟨others, hfirst, hothers⟩
    · exact absurd hnil ht.shown_ne_nil
    · have hrest' := hrest.eq_nil_of_shown (List.append_eq_nil_iff.1 hothers.symm).2
      have hdot := (ht.eq_dot_iff_of_mem (hfirst ▸ List.mem_cons_self)).1 rfl
      rw [hrest', Token.isDot_iff.1 hdot]

/-- A text goes on with a dot and an identifier if its tokens do. -/
theorem continues_iff (h : IsCut ts) {segment : String}
    (hsegment : isIdentifier segment.toList = true) :
    Continues (ts.flatMap Token.shown) segment ↔
      ∃ rest, ts = .dot :: .word segment.toList :: rest := by
  constructor
  · rintro ⟨rest, heq, hrest⟩
    obtain ⟨hne, hident⟩ := isIdentChar_of_isIdentifier hsegment
    have hrun : ts.flatMap Token.shown = ['.'] ++ (segment.toList ++ rest) := heq
    have hstart : ∀ c ∈ ['.'].getLast?, isIdentChar c = false := by
      intro c hc
      rw [← Option.some.inj hc]
      decide
    obtain ⟨t₁, t₂, rfl, hdot, rfl⟩ := h.exists_word hne hident hrun hstart hrest
    rw [h.of_append_left.eq_dot_of_shown hdot]
    exact ⟨t₂, rfl⟩
  · rintro ⟨rest, rfl⟩
    refine ⟨rest.flatMap Token.shown, ?_, ?_⟩
    · rw [List.flatMap_cons, List.flatMap_cons, Token.shown_word]
      rfl
    · cases h with
      | cons _ _ hword =>
        cases hword with
        | cons _ hapart hrest => exact hrest.isIdentChar_of_mem_head? (hapart rfl)

end IsCut

/-! ### References in paths -/

/-- In the tokens of a path every word but the first follows a dot. -/
theorem dotBefore_of_path {cs w : List Char} (h : ∀ c ∈ cs, isPathChar c = true)
    {t₁ t₂ : List Token}
    (heq : tokens (plain cs) = t₁ ++ .word w :: t₂) (hne : t₁ ≠ []) (afterDot : Bool) :
    dotBefore afterDot t₁ = true := by
  have hcut := isCut_tokens (plain cs)
  rw [heq] at hcut
  obtain ⟨t, ht⟩ : ∃ t, t₁.getLast? = some t := ⟨_, List.getLast?_eq_some_getLast hne⟩
  rw [dotBefore_of_getLast? ht]
  have hmem : t ∈ tokens (plain cs) := by
    rw [heq]
    exact List.mem_append_left _ (List.mem_of_getLast? ht)
  have hapart := hcut.apart_of_append_cons t ht
  cases t with
  | word cs => cases hapart
  | mark g =>
    have hg : g ∈ plain cs := by
      rw [← flatMap_glyphs_tokens (plain cs)]
      exact List.mem_flatMap.2 ⟨_, hmem, List.mem_singleton_self g⟩
    obtain ⟨c, hc, rfl⟩ := List.mem_map.1 hg
    have hproper : (Token.mark ⟨c, true⟩).IsProper := (isCut_tokens (plain cs)).isProper _ hmem
    have hident : isIdentChar c = false := hproper
    have hpath := h c hc
    rw [isPathChar, hident, Bool.false_or] at hpath
    exact hpath

/-- In a path nothing but its first word can be a reference. -/
theorem references_path {P : List Token → Prop} {afterDot : Bool} {cs : List Char}
    (h : ∀ c ∈ cs, isPathChar c = true)
    (hfirst : ∀ t₂, tokens (plain cs) = .word dataWord :: t₂ → P t₂) :
    References P afterDot (tokens (plain cs)) := by
  intro t₁ t₂ heq hdot
  cases t₁ with
  | nil => exact hfirst t₂ heq
  | cons t t₁ =>
    rw [dotBefore_of_path h heq (List.cons_ne_nil _ _)] at hdot
    cases hdot

/-- The tokens of a path that begins with an identifier and a dot. -/
theorem tokens_plain_of_dot {w : List Char} (hw : isIdentifier w = true) (rest : List Char) :
    ∃ t₂, tokens (plain (w ++ '.' :: rest)) = .word w :: t₂ ∧
      t₂.flatMap Token.shown = '.' :: rest := by
  have hshown : (tokens (plain (w ++ '.' :: rest))).flatMap Token.shown =
      [] ++ (w ++ '.' :: rest) := by
    rw [← view_flatMap_glyphs, flatMap_glyphs_tokens, view_plain]
    rfl
  have hend : ∀ c ∈ ('.' :: rest).head?, isIdentChar c = false := by
    intro c hc
    rw [← Option.some.inj hc]
    decide
  obtain ⟨hne, hident⟩ := isIdentChar_of_isIdentifier hw
  obtain ⟨t₁, t₂, heq, hnil, htail⟩ := (isCut_tokens _).exists_word hne hident hshown (by simp) hend
  have ht₁ : t₁ = [] := by
    have hcut := isCut_tokens (plain (w ++ '.' :: rest))
    rw [heq] at hcut
    exact hcut.of_append_left.eq_nil_of_shown hnil
  exact ⟨t₂, by rw [heq, ht₁]; rfl, htail⟩

end PolicyEngine.RuleText
