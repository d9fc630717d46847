import PolicyEngine.Proofs.RuleText.Glyphs
import PolicyEngine.RuleText.Relocate

/-!
# Tokens and the code view

A list of tokens is well cut if its words are longest runs of identifier characters: nothing else in
it can stand in an identifier, and no two words meet. In the text that such a list shows, every
longest run of identifier characters is one of its words. So a search of the code view for whole
words is a search of the tokens.

## Main definitions

* `PolicyEngine.RuleText.Token.glyphs`, `PolicyEngine.RuleText.Token.shown`.
* `PolicyEngine.RuleText.IsCut` — words are longest runs of identifier characters.

## Main results

* `PolicyEngine.RuleText.flatMap_glyphs_tokens`, `PolicyEngine.RuleText.isCut_tokens` — cutting
  glyphs into tokens loses none and cuts well.
* `PolicyEngine.RuleText.IsCut.exists_word` — a longest run in what is shown is a word.
-/

namespace PolicyEngine.RuleText

namespace Token

/-- The glyphs of a token. -/
def glyphs : Token → List Glyph
  | word cs => plain cs
  | mark g => [g]

/-- The characters of a token in the code view. -/
def shown (t : Token) : List Char := view t.glyphs

/-- Whether a token is a word. -/
def isWord : Token → Bool
  | word _ => true
  | mark _ => false

theorem shown_word (cs : List Char) : (word cs).shown = cs := view_plain cs

theorem shown_mark (g : Glyph) : (mark g).shown = g.shown := List.append_nil _

theorem map_char_glyphs (t : Token) : t.glyphs.map Glyph.char = t.chars := by
  cases t with
  | word cs => exact map_char_plain cs
  | mark g => rfl

end Token

theorem view_flatMap_glyphs (ts : List Token) :
    view (ts.flatMap Token.glyphs) = ts.flatMap Token.shown := by
  rw [view, List.flatMap_assoc]
  rfl

theorem map_char_flatMap_glyphs (ts : List Token) :
    (ts.flatMap Token.glyphs).map Glyph.char = ts.flatMap Token.chars := by
  rw [List.map_flatMap]
  simp only [Token.map_char_glyphs]

/-! ### Well cut lists -/

/-- A longest run of identifier characters begins a text in one way only. -/
theorem append_inj_of_longest {cs ds as bs : List Char} (hcs : ∀ c ∈ cs, isIdentChar c = true)
    (hds : ∀ c ∈ ds, isIdentChar c = true) (has : ∀ c ∈ as.head?, isIdentChar c = false)
    (hbs : ∀ c ∈ bs.head?, isIdentChar c = false) (heq : cs ++ as = ds ++ bs) :
    cs = ds ∧ as = bs := by
  induction cs generalizing ds with
  | nil =>
    cases ds with
    | nil => exact ⟨rfl, heq⟩
    | cons d ds =>
      rw [List.nil_append] at heq
      have hd := has d (by rw [heq]; rfl)
      rw [hds d List.mem_cons_self] at hd
      cases hd
  | cons c cs ih =>
    cases ds with
    | nil =>
      rw [List.nil_append] at heq
      have hc := hbs c (by rw [← heq]; rfl)
      rw [hcs c List.mem_cons_self] at hc
      cases hc
    | cons d ds =>
      obtain ⟨rfl, htail⟩ := List.cons.inj heq
      obtain ⟨rfl, rfl⟩ := ih (fun e he => hcs e (List.mem_cons_of_mem _ he))
        (fun e he => hds e (List.mem_cons_of_mem _ he)) htail
      exact ⟨rfl, rfl⟩

/-- A token that is a nonempty word or a glyph that is no part of one. -/
def Token.IsProper : Token → Prop
  | word cs => cs ≠ [] ∧ ∀ c ∈ cs, isIdentChar c = true
  | mark g => g.isWord = false

namespace Token.IsProper

variable {t : Token}

theorem shown_ne_nil (h : t.IsProper) : t.shown ≠ [] := by
  cases t with
  | word cs =>
    rw [shown_word]
    exact h.1
  | mark g =>
    obtain ⟨n, hn⟩ := g.shown_eq_replicate
    rw [shown_mark, hn]
    exact List.cons_ne_nil _ _

/-- A token shows identifier characters if it is a word, and none if it is not. -/
theorem isIdentChar_of_mem (h : t.IsProper) {c : Char} (hc : c ∈ t.shown) :
    isIdentChar c = t.isWord := by
  cases t with
  | word cs =>
    rw [shown_word] at hc
    exact h.2 c hc
  | mark g =>
    obtain ⟨n, hn⟩ := g.shown_eq_replicate
    rw [shown_mark, hn] at hc
    rw [List.eq_of_mem_replicate hc]
    exact Bool.eq_false_iff.2 (mt Glyph.isWord_iff.2 (Bool.eq_false_iff.1 h))

/-- A token that shows an identifier character behind none is a word, and begins with it. -/
theorem eq_word_of_shown (h : t.IsProper) {before cs : List Char} {c : Char}
    (hshown : t.shown = before ++ c :: cs) (hc : isIdentChar c = true)
    (hbefore : ∀ b ∈ before.getLast?, isIdentChar b = false) :
    before = [] ∧ t = .word (c :: cs) := by
  have hword : t.isWord = true := by
    have hmem : c ∈ t.shown := hshown ▸ List.mem_append_right _ List.mem_cons_self
    rw [← h.isIdentChar_of_mem hmem, hc]
  have hstart : before = [] := by
    rcases List.eq_nil_or_concat before with hnil | ⟨init, b, rfl⟩
    · exact hnil
    · have hb := hbefore b (by simp)
      have hmem : b ∈ t.shown := by simp [hshown]
      rw [h.isIdentChar_of_mem hmem, hword] at hb
      cases hb
  cases t with
  | word w =>
    rw [shown_word, hstart, List.nil_append] at hshown
    exact ⟨hstart, congrArg word hshown⟩
  | mark g => cases hword

/-- A token shows a dot if it is one. -/
theorem eq_dot_iff_of_mem (h : t.IsProper) {c : Char} (hc : c ∈ t.shown) :
    c = '.' ↔ t.isDot = true := by
  cases t with
  | word cs =>
    rw [shown_word] at hc
    constructor
    · rintro rfl
      exact absurd (h.2 _ hc) (by decide)
    · intro hdot
      cases hdot
  | mark g =>
    obtain ⟨n, hn⟩ := g.shown_eq_replicate
    rw [shown_mark, hn] at hc
    rw [List.eq_of_mem_replicate hc]
    exact beq_iff_eq.symm

end Token.IsProper

/-- A list of tokens in which words are longest runs of identifier characters. -/
inductive IsCut : List Token → Prop where
  | nil : IsCut []
  | cons {t : Token} {rest : List Token} (ht : t.IsProper)
      (hapart : t.isWord = true → ∀ u ∈ rest.head?, u.isWord = false) (hrest : IsCut rest) :
      IsCut (t :: rest)

theorem flatMap_glyphs_tokens (gs : List Glyph) : (tokens gs).flatMap Token.glyphs = gs := by
  induction gs with
  | nil => rfl
  | cons g rest ih =>
    rw [tokens]
    split
    · rename_i hword
      obtain ⟨c, isCode⟩ := g
      obtain rfl : isCode = true := (Bool.and_eq_true_iff.1 hword).1
      split
      · rename_i cs others hcut
        rw [hcut] at ih
        rw [← ih]
        rfl
      · rw [List.flatMap_cons, ih]
        rfl
    · rw [List.flatMap_cons, ih]
      rfl

/-- Cutting glyphs into tokens cuts well. -/
theorem isCut_tokens (gs : List Glyph) : IsCut (tokens gs) := by
  induction gs with
  | nil => exact .nil
  | cons g rest ih =>
    rw [tokens]
    split
    · rename_i hword
      have hident : isIdentChar g.char = true := (Bool.and_eq_true_iff.1 hword).2
      split
      · rename_i cs others hcut
        rw [hcut] at ih
        cases ih with
        | cons ht hapart hrest =>
          refine .cons ⟨List.cons_ne_nil _ _, fun c hc => ?_⟩ (fun _ => hapart rfl) hrest
          rcases List.mem_cons.1 hc with rfl | hc
          · exact hident
          · exact ht.2 c hc
      · rename_i hmark
        refine .cons ⟨List.cons_ne_nil _ _, fun c hc => ?_⟩ (fun _ t ht => ?_) ih
        · rw [List.mem_singleton.1 hc]
          exact hident
        · cases t with
          | mark g => rfl
          | word cs =>
            obtain ⟨others, hothers⟩ := List.head?_eq_some_iff.1 ht
            exact absurd hothers (hmark cs others)
    · rename_i hmark
      exact .cons (Bool.eq_false_iff.2 hmark) (fun hword => by cases hword) ih

namespace IsCut

variable {ts us : List Token}

theorem isProper (h : IsCut ts) : ∀ t ∈ ts, t.IsProper := by
  induction h with
  | nil => simp
  | cons ht _ _ ih =>
    intro u hu
    rcases List.mem_cons.1 hu with rfl | hu
    · exact ht
    · exact ih u hu

/-- Two well cut lists make one, unless two words meet where they do. -/
theorem append (ht : IsCut ts) (hu : IsCut us)
    (hapart : (∀ t ∈ ts.getLast?, t.isWord = false) ∨ ∀ u ∈ us.head?, u.isWord = false) :
    IsCut (ts ++ us) := by
  induction ht with
  | nil => exact hu
  | @cons t rest ht hhead hrest ih =>
    refine .cons ht (fun hword u hfirst => ?_) (ih (hapart.imp_left fun hlast u hu => hlast u ?_))
    · cases rest with
      | nil =>
        rcases hapart with hlast | hus
        · exact absurd hword (Bool.eq_false_iff.1 (hlast t rfl))
        · exact hus u hfirst
      | cons r rest => exact hhead hword u hfirst
    · rw [List.getLast?_cons, Option.mem_def.1 hu]
      rfl

theorem of_append_right (h : IsCut (ts ++ us)) : IsCut us := by
  induction ts with
  | nil => exact h
  | cons t rest ih =>
    cases h with
    | cons _ _ hrest => exact ih hrest

theorem of_append_left (h : IsCut (ts ++ us)) : IsCut ts := by
  induction ts with
  | nil => exact .nil
  | cons t rest ih =>
    cases h with
    | cons ht hapart hrest =>
      refine .cons ht (fun hword u hu => hapart hword u ?_) (ih hrest)
      change (rest ++ us).head? = some u
      rw [List.head?_append, Option.mem_def.1 hu]
      rfl

theorem of_append_cons {t : Token} (h : IsCut (ts ++ t :: us)) : IsCut us := by
  cases h.of_append_right with
  | cons _ _ hrest => exact hrest

/-- A well cut list that shows nothing is empty. -/
theorem eq_nil_of_shown (h : IsCut ts) (hshown : ts.flatMap Token.shown = []) : ts = [] := by
  cases h with
  | nil => rfl
  | cons ht _ _ =>
    rw [List.flatMap_cons, List.append_eq_nil_iff] at hshown
    exact absurd hshown.1 ht.shown_ne_nil

/-- What a well cut list shows first is shown by its first token. -/
theorem exists_of_mem_head? (h : IsCut ts) {c : Char} (hc : c ∈ (ts.flatMap Token.shown).head?) :
    ∃ t ∈ ts.head?, c ∈ t.shown := by
  cases h with
  | nil => cases hc
  | @cons t rest ht _ _ =>
    refine ⟨t, rfl, ?_⟩
    obtain ⟨d, ds, hshown⟩ := List.exists_cons_of_ne_nil ht.shown_ne_nil
    rw [List.flatMap_cons, hshown] at hc
    rw [hshown, ← Option.some.inj hc]
    exact List.mem_cons_self

/-- What a well cut list shows last is what its last token shows last. -/
theorem getLast?_flatMap_shown (h : IsCut ts) {t : Token} (ht : ts.getLast? = some t) :
    (ts.flatMap Token.shown).getLast? = t.shown.getLast? := by
  obtain ⟨init, rfl⟩ := List.getLast?_eq_some_iff.1 ht
  have hne := (h.isProper t (by simp)).shown_ne_nil
  rw [List.flatMap_append, List.flatMap_singleton, List.getLast?_append,
    List.getLast?_eq_some_getLast hne, Option.some_or]

theorem exists_of_mem_getLast? (h : IsCut ts) {c : Char}
    (hc : c ∈ (ts.flatMap Token.shown).getLast?) : ∃ t ∈ ts.getLast?, c ∈ t.shown := by
  cases hlast : ts.getLast? with
  | none =>
    rw [List.getLast?_eq_none_iff.1 hlast] at hc
    cases hc
  | some t =>
    rw [h.getLast?_flatMap_shown hlast] at hc
    exact ⟨t, rfl, List.mem_of_getLast? hc⟩

/-- If a list of tokens begins with no word, it shows no identifier character first. -/
theorem isIdentChar_of_mem_head? (h : IsCut ts) (hapart : ∀ t ∈ ts.head?, t.isWord = false) :
    ∀ c ∈ (ts.flatMap Token.shown).head?, isIdentChar c = false := by
  intro c hc
  obtain ⟨t, ht, hmem⟩ := h.exists_of_mem_head? hc
  rw [(h.isProper t (List.mem_of_mem_head? ht)).isIdentChar_of_mem hmem]
  exact hapart t ht

/-- If a list of tokens ends in no word, it shows no identifier character last. -/
theorem isIdentChar_of_mem_getLast? (h : IsCut ts)
    (hapart : ∀ t ∈ ts.getLast?, t.isWord = false) :
    ∀ c ∈ (ts.flatMap Token.shown).getLast?, isIdentChar c = false := by
  intro c hc
  obtain ⟨t, ht, hmem⟩ := h.exists_of_mem_getLast? hc
  rw [(h.isProper t (List.mem_of_getLast? ht)).isIdentChar_of_mem hmem]
  exact hapart t ht

/-- A longest run of identifier characters in what is shown is a word. -/
theorem exists_word (h : IsCut ts) {before w after : List Char} (hne : w ≠ [])
    (hw : ∀ c ∈ w, isIdentChar c = true) (heq : ts.flatMap Token.shown = before ++ (w ++ after))
    (hbefore : ∀ c ∈ before.getLast?, isIdentChar c = false)
    (hafter : ∀ c ∈ after.head?, isIdentChar c = false) :
    ∃ t₁ t₂, ts = t₁ ++ .word w :: t₂ ∧ t₁.flatMap Token.shown = before ∧
      t₂.flatMap Token.shown = after := by
  induction h generalizing before with
  | nil =>
    have hnil := List.append_eq_nil_iff.1 heq.symm
    exact absurd (List.append_eq_nil_iff.1 hnil.2).1 hne
  | @cons t rest ht hapart hrest ih =>
    rw [List.flatMap_cons] at heq
    rcases List.append_eq_append_iff.1 heq with ⟨others, rfl, hothers⟩ | ⟨others, hshown, hothers⟩
    · -- The run lies behind the first token.
      obtain ⟨t₁, t₂, rfl, rfl, htail⟩ := ih hothers fun c hc => hbefore c (by
        rw [List.getLast?_append, Option.mem_def.1 hc]
        rfl)
      exact ⟨t :: t₁, t₂, rfl, rfl, htail⟩
    · cases others with
      | nil =>
        rw [List.append_nil] at hshown
        have hrun : rest.flatMap Token.shown = [] ++ (w ++ after) := hothers.symm
        obtain ⟨t₁, t₂, rfl, hnil, htail⟩ := ih hrun fun c hc => by cases hc
        refine ⟨t :: t₁, t₂, rfl, ?_, htail⟩
        rw [List.flatMap_cons, hnil, List.append_nil, hshown]
      | cons d ds =>
        -- The run begins inside of the first token, which is then a word, and begins with it.
        have hd : isIdentChar d = true := by
          obtain ⟨c, cs, rfl⟩ := List.exists_cons_of_ne_nil hne
          rw [← (List.cons.inj hothers).1]
          exact hw c List.mem_cons_self
        obtain ⟨rfl, rfl⟩ := ht.eq_word_of_shown hshown hd hbefore
        have hend := hrest.isIdentChar_of_mem_head? (hapart rfl)
        obtain ⟨rfl, htail⟩ := append_inj_of_longest hw ht.2 hafter hend hothers
        exact ⟨[], rest, rfl, rfl, htail.symm⟩

end IsCut

end PolicyEngine.RuleText
