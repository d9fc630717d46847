import PolicyEngine.Proofs.RuleText.MovedPackage
import PolicyEngine.RuleText.Definition

/-!
# Definitions in moved sources

A search for the definition of a rule walks over the code view and keeps the nesting of brackets and
whether a line has begun. At each character it looks ahead for a name and for what may follow it. A
name is an identifier, so it looks no further than the end of the identifier that it meets. Nothing
in a dotted path is a bracket or a line end, and with what stands before the path the line has
already begun. So the search finds as much behind one path as behind another, and redirecting
references takes and gives no definition.

## Main definitions

* `PolicyEngine.RuleText.lineStartAfter` — whether a line has not yet begun behind characters.
* `PolicyEngine.RuleText.IsApart` — no identifier goes on from one text into another.
* `PolicyEngine.RuleText.EndsApart`, `PolicyEngine.RuleText.FindsAs` — that no word does so from
  tokens, and that as much is found from tokens on as from others.

## Main results

* `PolicyEngine.RuleText.definesFrom_append_congr` — the search goes on behind a text as it would
  without it.
* `PolicyEngine.RuleText.Moves.findsAs` — redirecting references takes and gives no definition.
* `PolicyEngine.RuleText.definesRule_eq_of_relocateSplit` — neither does moving a source.
-/

namespace PolicyEngine.RuleText

/-! ### Looking ahead -/

theorem continuesHead_of_isPathChar {c : Char} (h : isPathChar c = true) :
    continuesHead c = false := by
  refine Bool.eq_false_iff.2 fun hhead => ?_
  simp only [continuesHead, Bool.or_eq_true, beq_iff_eq] at hhead
  rcases hhead with ((((((rfl | rfl) | rfl) | rfl) | rfl) | rfl) | rfl) | rfl <;>
    exact absurd h (by decide)

theorem beginsHead_nil_left (cs : List Char) :
    beginsHead [] cs = cs.head?.all continuesHead := rfl

theorem beginsHead_cons (n c : Char) (name cs : List Char) :
    beginsHead (n :: name) (c :: cs) = (n == c && beginsHead name cs) := by
  rw [beginsHead, beginsHead, List.isPrefixOf, List.length_cons, List.drop_succ_cons,
    Bool.and_assoc]

theorem beginsHead_cons_eq_false {n c : Char} (hn : isIdentChar n = true)
    (hc : isIdentChar c = false) (name cs : List Char) :
    beginsHead (n :: name) (c :: cs) = false := by
  have hne : (n == c) = false := by
    refine beq_eq_false_iff_ne.2 fun heq => ?_
    rw [heq, hc] at hn
    cases hn
  rw [beginsHead_cons, hne, Bool.false_and]

/-- No identifier goes on from a text into what stands behind it, which is one text or another. -/
def IsApart (cs ds ds' : List Char) : Prop :=
  (∃ c, cs.getLast? = some c ∧ isIdentChar c = false) ∨
    ds.head? = ds'.head? ∧ ∀ c ∈ ds.head?, isIdentChar c = false

theorem IsApart.of_cons {c : Char} {cs ds ds' : List Char} (h : IsApart (c :: cs) ds ds')
    (hc : cs = [] → isIdentChar c = true) : IsApart cs ds ds' := by
  refine h.imp_left ?_
  rintro ⟨d, hd, hident⟩
  cases cs with
  | nil =>
    obtain rfl : c = d := Option.some.inj hd
    rw [hc rfl] at hident
    cases hident
  | cons e es => exact ⟨d, hd, hident⟩

section Names

variable {name : List Char} (hname : ∀ c ∈ name, isIdentChar c = true)

include hname

/-- Whether a name begins a text does not depend on what is behind an identifier. -/
theorem beginsHead_append_congr {cs ds ds' : List Char} (h : IsApart cs ds ds') :
    beginsHead name (cs ++ ds) = beginsHead name (cs ++ ds') := by
  induction name generalizing cs with
  | nil =>
    rw [beginsHead_nil_left, beginsHead_nil_left]
    cases cs with
    | nil =>
      rcases h with ⟨c, hc, -⟩ | ⟨hhead, -⟩
      · cases hc
      · rw [List.nil_append, List.nil_append, hhead]
    | cons c cs => rfl
  | cons n name ih =>
    have hn := hname n List.mem_cons_self
    have hrest := fun c hc => hname c (List.mem_cons_of_mem n hc)
    cases cs with
    | nil =>
      rcases h with ⟨c, hc, -⟩ | ⟨hhead, hident⟩
      · cases hc
      · -- The name cannot begin behind the text, where no identifier does.
        have hmiss : ∀ es : List Char, (∀ c ∈ es.head?, isIdentChar c = false) →
            beginsHead (n :: name) es = false := by
          intro es hes
          cases es with
          | nil => rfl
          | cons e es => exact beginsHead_cons_eq_false hn (hes e rfl) name es
        rw [List.nil_append, List.nil_append, hmiss ds hident, hmiss ds' (hhead ▸ hident)]
    | cons c cs =>
      rw [List.cons_append, List.cons_append, beginsHead_cons, beginsHead_cons]
      cases hc : n == c with
      | false => rfl
      | true =>
        rw [← beq_iff_eq.1 hc] at h
        rw [ih hrest (h.of_cons fun _ => hn)]

/-- No name begins a text that goes on behind its first identifier as no head does. -/
theorem beginsHead_eq_false {w : List Char} (hw : ∀ c ∈ w, isIdentChar c = true) {c : Char}
    (hident : isIdentChar c = false) (hhead : continuesHead c = false) (cs : List Char) :
    beginsHead name (w ++ c :: cs) = false := by
  induction name generalizing w with
  | nil =>
    rw [beginsHead_nil_left]
    cases w with
    | nil => exact hhead
    | cons d w =>
      exact continuesHead_of_isPathChar (isPathChar_of_isIdentChar (hw d List.mem_cons_self))
  | cons n name ih =>
    have hn := hname n List.mem_cons_self
    have hrest := fun c hc => hname c (List.mem_cons_of_mem n hc)
    cases w with
    | nil => exact beginsHead_cons_eq_false hn hident name cs
    | cons d w =>
      rw [List.cons_append, beginsHead_cons, ih hrest fun e he => hw e (List.mem_cons_of_mem _ he),
        Bool.and_false]

end Names

/-! ### Walking on -/

/-- Whether only spaces and tabs stand on the line behind characters. -/
def lineStartAfter (lineStart : Bool) (cs : List Char) : Bool :=
  cs.foldl (fun lineStart c => c == '\n' || (lineStart && (c == ' ' || c == '\t'))) lineStart

theorem lineStartAfter_append (lineStart : Bool) (cs ds : List Char) :
    lineStartAfter lineStart (cs ++ ds) = lineStartAfter (lineStartAfter lineStart cs) ds :=
  List.foldl_append

/-- A line that has begun goes on up to a line end. -/
theorem lineStartAfter_false {cs : List Char} (h : ∀ c ∈ cs, c ≠ '\n') :
    lineStartAfter false cs = false := by
  induction cs with
  | nil => rfl
  | cons c cs ih =>
    have hc : (c == '\n') = false := beq_eq_false_iff_ne.2 (h c List.mem_cons_self)
    rw [lineStartAfter, List.foldl_cons, hc]
    exact ih fun d hd => h d (List.mem_cons_of_mem _ hd)

theorem ne_of_isPathChar {c d : Char} (h : isPathChar c = true) (hd : isPathChar d = false) :
    c ≠ d := by
  rintro rfl
  rw [h] at hd
  cases hd

theorem ne_lineEnd_of_isPathChar {cs : List Char} (h : cs.all isPathChar = true) :
    ∀ c ∈ cs, c ≠ '\n' := fun c hc =>
  ne_of_isPathChar (List.all_eq_true.1 h c hc) (by decide)

/-- With a character of a path a line has begun. -/
theorem lineStartAfter_path {c : Char} {cs : List Char} (hc : isPathChar c = true)
    (hcs : ∀ d ∈ cs, d ≠ '\n') (lineStart : Bool) : lineStartAfter lineStart (c :: cs) = false := by
  have hline : (c == '\n') = false := beq_eq_false_iff_ne.2 (ne_of_isPathChar hc (by decide))
  have hspace : (c == ' ') = false := beq_eq_false_iff_ne.2 (ne_of_isPathChar hc (by decide))
  have htab : (c == '\t') = false := beq_eq_false_iff_ne.2 (ne_of_isPathChar hc (by decide))
  rw [lineStartAfter, List.foldl_cons, hline, hspace, htab, Bool.or_false, Bool.and_false]
  exact lineStartAfter_false hcs

theorem depthAfter_of_isPathChar {c : Char} (h : isPathChar c = true) (depth : Int) :
    depthAfter depth c = depth := by
  have hopen : ¬(c = '(' ∨ c = '[' ∨ c = '\x7b') := by
    rintro (rfl | rfl | rfl) <;> exact absurd h (by decide)
  have hclose : ¬(c = ')' ∨ c = ']' ∨ c = '\x7d') := by
    rintro (rfl | rfl | rfl) <;> exact absurd h (by decide)
  rw [depthAfter, if_neg hopen, if_neg hclose]

section Names

variable {name : List Char} (hname : ∀ c ∈ name, isIdentChar c = true)

/-- Behind the beginning of a line a path makes no difference. -/
theorem definesFrom_path_append (name : List Char) {cs : List Char}
    (hcs : ∀ c ∈ cs, isPathChar c = true) (depth : Int) (ds : List Char) :
    definesFrom name depth false (cs ++ ds) = definesFrom name depth false ds := by
  induction cs with
  | nil => rfl
  | cons c cs ih =>
    have hc := hcs c List.mem_cons_self
    have hline : (c == '\n') = false := beq_eq_false_iff_ne.2 (ne_of_isPathChar hc (by decide))
    rw [List.cons_append, definesFrom, depthAfter_of_isPathChar hc, hline, Bool.false_and,
      Bool.false_and, Bool.false_and, Bool.false_or, Bool.false_or]
    exact ih fun d hd => hcs d (List.mem_cons_of_mem _ hd)

include hname

/-- The search goes on behind a text as it would without it. -/
theorem definesFrom_append_congr {cs ds ds' : List Char} (hapart : IsApart cs ds ds')
    {lineStart : Bool}
    (h : ∀ depth, definesFrom name depth (lineStartAfter lineStart cs) ds =
      definesFrom name depth (lineStartAfter lineStart cs) ds') (depth : Int) :
    definesFrom name depth lineStart (cs ++ ds) = definesFrom name depth lineStart (cs ++ ds') := by
  induction cs generalizing depth lineStart with
  | nil => exact h depth
  | cons c cs ih =>
    have hbegins := beginsHead_append_congr hname hapart
    rw [List.cons_append, List.cons_append] at hbegins ⊢
    rw [definesFrom, definesFrom, hbegins]
    refine congrArg (Bool.or _) ?_
    cases cs with
    | nil => exact h _
    | cons e es => exact ih hapart h _

/-- A path of several identifiers is no head of a rule, and makes no difference. -/
theorem definesFrom_dotted_append {w rest : List Char} (hw : isIdentifier w = true)
    (hrest : ∀ c ∈ rest, isPathChar c = true) (depth : Int) (lineStart : Bool) (ds : List Char) :
    definesFrom name depth lineStart (w ++ '.' :: rest ++ ds) =
      definesFrom name depth false ds := by
  obtain ⟨hne, hident⟩ := isIdentChar_of_isIdentifier hw
  have hbegins := beginsHead_eq_false hname hident (c := '.') (by decide) (by decide) (rest ++ ds)
  obtain ⟨c, cs, rfl⟩ := List.exists_cons_of_ne_nil hne
  have hc := isPathChar_of_isIdentChar (hident c List.mem_cons_self)
  have hpath : ∀ d ∈ cs ++ '.' :: rest, isPathChar d = true := by
    refine List.forall_mem_append.2 ⟨fun d hd => ?_, List.forall_mem_cons.2 ⟨rfl, hrest⟩⟩
    exact isPathChar_of_isIdentChar (hident d (List.mem_cons_of_mem _ hd))
  have hstart := lineStartAfter_path hc (List.forall_mem_nil _) lineStart
  rw [lineStartAfter, List.foldl_cons, List.foldl_nil] at hstart
  have htext : c :: cs ++ '.' :: rest ++ ds = c :: ((cs ++ '.' :: rest) ++ ds) := rfl
  have htext' : c :: cs ++ '.' :: (rest ++ ds) = c :: ((cs ++ '.' :: rest) ++ ds) := by simp
  rw [htext'] at hbegins
  rw [htext, definesFrom, hbegins, Bool.and_false, Bool.false_or, hstart,
    depthAfter_of_isPathChar hc]
  exact definesFrom_path_append name hpath depth ds

end Names

/-! ### Moved tokens -/

/-- The word that stands for the libraries in references. -/
def libWord : List Char := "lib".toList

/-- The tokens of a reference to a part of the data document. -/
def reference (segment : List Char) : List Token := [.word dataWord, .dot, .word segment]

theorem flatMap_shown_tokens (gs : List Glyph) : (tokens gs).flatMap Token.shown = view gs := by
  rw [← view_flatMap_glyphs, flatMap_glyphs_tokens]

theorem flatMap_shown_libTokens (root : ModuleId) :
    (libTokens root).flatMap Token.shown = dataWord ++ '.' :: (root.path ++ ".lib").toList := by
  obtain ⟨t₂, htokens, hshown⟩ := libTokens_eq root
  rw [htokens, List.flatMap_cons, hshown, Token.shown_word]

/-- No word goes on from tokens into what stands behind them, which is one text or another. -/
def EndsApart (ts : List Token) (ds ds' : List Char) : Prop :=
  (∀ t ∈ ts.getLast?, t.isWord = false) ∨
    ds.head? = ds'.head? ∧ ∀ c ∈ ds.head?, isIdentChar c = false

theorem EndsApart.of_append (ps : List Token) {ts : List Token} {ds ds' : List Char}
    (h : EndsApart (ps ++ ts) ds ds') : EndsApart ts ds ds' := by
  refine h.imp_left fun hlast t ht => hlast t ?_
  rw [List.getLast?_append, Option.mem_def.1 ht]
  rfl

/-- As much is found of a rule from tokens on as from others, if it is so behind both. -/
def FindsAs (name : List Char) (ts us : List Token) (ds ds' : List Char) : Prop :=
  ∀ lineStart,
    (∀ depth, definesFrom name depth (lineStartAfter lineStart (ts.flatMap Token.shown)) ds =
      definesFrom name depth (lineStartAfter lineStart (ts.flatMap Token.shown)) ds') →
    ∀ depth, definesFrom name depth lineStart (ts.flatMap Token.shown ++ ds) =
      definesFrom name depth lineStart (us.flatMap Token.shown ++ ds')

namespace Moves

variable {root : ModuleId} {afterDot : Bool} {ps ts us : List Token} {ds ds' : List Char}

theorem head?_shown (hts : IsCut ts) (h : Moves root afterDot ts us) :
    (us.flatMap Token.shown).head? = (ts.flatMap Token.shown).head? := by
  have hview : ∀ gs : List Glyph, (view gs).head? = gs.head?.map Glyph.face := by
    intro gs
    cases gs with
    | nil => rfl
    | cons g gs =>
      obtain ⟨n, hn⟩ := g.shown_eq_replicate
      rw [view, List.flatMap_cons, hn]
      rfl
  rw [← view_flatMap_glyphs, ← view_flatMap_glyphs, hview, hview, h.head?_glyphs hts]

/-- What stands before tokens is apart from them, and from what they are moved to. -/
theorem isApart_of_append (hcut : IsCut (ps ++ ts)) (hne : ps ≠ []) (h : Moves root afterDot ts us)
    (hapart : EndsApart (ps ++ ts) ds ds') :
    IsApart (ps.flatMap Token.shown) (ts.flatMap Token.shown ++ ds)
      (us.flatMap Token.shown ++ ds') := by
  obtain ⟨init, t, rfl⟩ := (List.eq_nil_or_concat ps).resolve_left hne
  rw [List.concat_eq_append] at hcut hapart ⊢
  have ht : t.IsProper := hcut.isProper t (by simp)
  cases hword : t.isWord with
  | false =>
    refine .inl ⟨t.shown.getLast ht.shown_ne_nil, ?_, ?_⟩
    · rw [hcut.of_append_left.getLast?_flatMap_shown List.getLast?_concat]
      exact List.getLast?_eq_some_getLast _
    · rw [ht.isIdentChar_of_mem (List.getLast_mem _), hword]
  | true =>
    have hhead : ∀ u ∈ ts.head?, u.isWord = false := by
      rw [List.append_assoc] at hcut
      cases hcut.of_append_right with
      | cons _ hhead _ => exact hhead hword
    cases ts with
    | nil =>
      rw [h.eq_nil]
      refine .inr (hapart.resolve_left fun hlast => ?_)
      rw [hlast t (by simp)] at hword
      cases hword
    | cons u ts =>
      have hts : IsCut (u :: ts) := hcut.of_append_right
      have hne : (u :: ts).flatMap Token.shown ≠ [] :=
        fun hnil => List.cons_ne_nil u ts (hts.eq_nil_of_shown hnil)
      have hhead' := h.head?_shown hts
      have hne' : us.flatMap Token.shown ≠ [] := by
        rintro hnil
        rw [hnil] at hhead'
        exact hne (List.head?_eq_none_iff.1 hhead'.symm)
      rw [IsApart, List.head?_append_of_ne_nil _ hne, List.head?_append_of_ne_nil _ hne', hhead']
      exact .inr ⟨rfl, hts.isIdentChar_of_mem_head? hhead⟩

section Names

variable {name : List Char} (hname : ∀ c ∈ name, isIdentChar c = true)

include hname

/-- Tokens that are kept before others make no difference to what is found. -/
theorem findsAs_append (hcut : IsCut (ps ++ ts)) (hne : ps ≠ []) (h : Moves root afterDot ts us)
    (hapart : EndsApart (ps ++ ts) ds ds') (hfinds : FindsAs name ts us ds ds') :
    FindsAs name (ps ++ ts) (ps ++ us) ds ds' := by
  intro lineStart hrest depth
  rw [List.flatMap_append, lineStartAfter_append] at hrest
  rw [List.flatMap_append, List.flatMap_append, List.append_assoc, List.append_assoc]
  exact definesFrom_append_congr hname (h.isApart_of_append hcut hne hapart) (hfinds _ hrest) depth

/-- As much is found behind a reference to the libraries as behind what it is moved to. -/
theorem findsAs_library (hroot : ∀ c ∈ root.path.toList, isPathChar c = true)
    (hfinds : FindsAs name ts us ds ds') :
    FindsAs name (reference libWord ++ ts) (libTokens root ++ us) ds ds' := by
  intro lineStart hrest depth
  have hdata : isIdentifier dataWord = true := by decide
  have hpath : ∀ c ∈ (root.path ++ ".lib").toList, isPathChar c = true := by
    rw [String.toList_append]
    exact List.forall_mem_append.2 ⟨hroot, List.all_eq_true.1 (by decide)⟩
  have hshown : (reference libWord).flatMap Token.shown = dataWord ++ '.' :: libWord := by decide
  have hstart : lineStartAfter lineStart (dataWord ++ '.' :: libWord) = false :=
    lineStartAfter_path rfl (ne_lineEnd_of_isPathChar rfl) lineStart
  rw [List.flatMap_append, lineStartAfter_append, hshown, hstart] at hrest
  rw [List.flatMap_append, hshown, List.append_assoc,
    definesFrom_dotted_append hname hdata (List.all_eq_true.1 (by decide)),
    List.flatMap_append, flatMap_shown_libTokens, List.append_assoc,
    definesFrom_dotted_append hname hdata hpath]
  exact hfinds false hrest depth

/-- Redirecting the references of tokens takes and gives no definition, if no word goes on from them
into what stands behind, and as much is found there. -/
theorem findsAs (hroot : ∀ c ∈ root.path.toList, isPathChar c = true) (hcut : IsCut ts)
    (h : Moves root afterDot ts us) (hapart : EndsApart ts ds ds') :
    FindsAs name ts us ds ds' := by
  induction h with
  | nil => exact fun _ hrest => hrest
  | @keep _ t ts us _ h ih =>
    have hcut' : IsCut ([t] ++ ts) := hcut
    exact findsAs_append hname hcut' (List.cons_ne_nil _ _) h hapart
      (ih hcut'.of_append_right (EndsApart.of_append [t] hapart))
  | @inventory ts us h ih =>
    have hcut' : IsCut (reference "inventory".toList ++ ts) := hcut
    exact findsAs_append hname hcut' (List.cons_ne_nil _ _) h hapart
      (ih hcut'.of_append_right (EndsApart.of_append (reference _) hapart))
  | @library ts us h ih =>
    have hcut' : IsCut (reference libWord ++ ts) := hcut
    exact findsAs_library hname hroot
      (ih hcut'.of_append_right (EndsApart.of_append (reference _) hapart))

end Names

end Moves

/-! ### Before a declared path -/

theorem ne_lineEnd_of_mem_view {gs : List Glyph} (h : ∀ g ∈ gs, g.face ≠ '\n') :
    ∀ c ∈ view gs, c ≠ '\n' := by
  intro c hc
  obtain ⟨g, hg, hshown⟩ := List.mem_flatMap.1 hc
  obtain ⟨n, hn⟩ := g.shown_eq_replicate
  rw [hn] at hshown
  rw [List.eq_of_mem_replicate hshown]
  exact h g hg

/-- Where a line declares a path, it has begun before the path. -/
theorem PackageSplit.IsDeclaration.lineStartAfter_eq {split : PackageSplit} {line : List Glyph}
    (h : split.IsDeclaration line) (hbefore : ∀ g ∈ split.before, g.face ≠ '\n')
    (lineStart : Bool) : lineStartAfter lineStart (view split.before) = false := by
  obtain ⟨indent, lead, heq, -, -, -⟩ := h.exists_lead
  have hlead : ∀ c ∈ view lead, c ≠ '\n' := ne_lineEnd_of_mem_view fun g hg =>
    hbefore g (by
      rw [heq]
      exact List.mem_append_right _ (List.mem_append_right _ hg))
  have hview : view split.before = view indent ++ ("package".toList ++ view lead) := by
    rw [heq, view_append, view_append]
    rfl
  rw [hview, lineStartAfter_append]
  refine lineStartAfter_path rfl (fun c hc => ?_) _
  rcases List.mem_append.1 hc with hkeyword | hc
  · have hpath : "ackage".toList.all isPathChar = true := by decide
    exact ne_lineEnd_of_isPathChar hpath c hkeyword
  · exact hlead c hc

/-- Where a text is cut before the path that it declares, a line has begun. -/
theorem lineStartAfter_of_splitLines? {gs : List Glyph} {split : PackageSplit}
    (h : splitLines? (lines gs) = some split) (lineStart : Bool) :
    lineStartAfter lineStart (view split.before) = false := by
  obtain ⟨earlier, line, cut, hcut, hface, hbefore, -⟩ := exists_isDeclaration_of_splitLines? h
  rw [hbefore, view_append, lineStartAfter_append]
  exact hcut.lineStartAfter_eq (fun g hg => hface g (List.mem_append_left _ hg)) _

/-! ### Moved sources -/

/-- A source that is moved defines the rules that it did before. -/
theorem definesRule_eq_of_relocateSplit {source out : String} {split : PackageSplit}
    {package root : ModuleId} (hsplit : declaredPackage source = .ok split)
    (hpackage : ∀ c ∈ package.path.toList, isPathChar c = true)
    (hroot : ∀ c ∈ root.path.toList, isPathChar c = true)
    (h : relocateSplit split package root = .ok out) {name : String}
    (hname : isIdentifier name.toList = true) : definesRule out name = definesRule source name := by
  obtain ⟨hcut, hpath⟩ := declaredPackage_eq_ok_iff.1 hsplit
  have hcuts := cuts_of_splitAtPackage? hcut
  obtain ⟨us, ws, hus, hws, hglyphs⟩ := exists_moves_of_relocateSplit hcuts hpath hpackage hroot h
  have hsource : (codeView source).toList = (tokens split.before).flatMap Token.shown ++
      (split.pathText.toList ++ ((tokens split.after).flatMap Token.shown ++ [])) := by
    rw [toList_codeView hcuts, PackageSplit.tokens, List.flatMap_append, List.flatMap_append,
      flatMap_shown_tokens split.path, PackageSplit.pathText, String.toList_ofList,
      List.append_nil]
  have hout : (codeView out).toList = us.flatMap Token.shown ++
      (package.path.toList ++ (ws.flatMap Token.shown ++ [])) := by
    rw [codeView, String.toList_ofList, hglyphs, view_append, view_append, view_flatMap_glyphs,
      view_flatMap_glyphs, view_plain, List.append_nil]
  have hident := (isIdentChar_of_isIdentifier hname).2
  rw [definesRule, definesRule, hsource, hout]
  have hafter : FindsAs name.toList (tokens split.after) ws [] [] :=
    hws.findsAs hident hroot (isCut_tokens _) (.inr ⟨rfl, by simp⟩)
  refine (hus.findsAs hident hroot (isCut_tokens _) (.inl hcuts.apart_before) true ?_ 0).symm
  intro depth
  rw [flatMap_shown_tokens, lineStartAfter_of_splitLines? hcut,
    definesFrom_path_append _ (isPathChar_of_isDottedPath hpath),
    definesFrom_path_append _ hpackage]
  exact hafter false (fun _ => rfl) depth

end PolicyEngine.RuleText
