import PolicyEngine.Proofs.RuleText.Definition
import PolicyEngine.Proofs.RuleText.Edits

/-!
# The edits that move a source

A source is moved by edits. One puts the new package in the place of the declared path, and one
stands at each reference to the libraries outside of this path, the pair of whose words gives way to
a reference to the libraries of the module. All of them lie apart and remove nothing but code, so
everything else stays where it is and what it is.

## Main definitions

* `PolicyEngine.RuleText.packageEdit`, `PolicyEngine.RuleText.libraryEdit` — the edits.
* `PolicyEngine.RuleText.IsLibraryPlace` — where a source refers to the libraries.
* `PolicyEngine.RuleText.LibraryAt`, `PolicyEngine.RuleText.IsLibraryEdit` — where tokens do, and
  the edits there.

## Main results

* `PolicyEngine.RuleText.Moves.exists_edited` — redirecting the references of tokens is editing.
* `PolicyEngine.RuleText.exists_isLibraryPlace_iff` — references in the view and among the tokens.
* `PolicyEngine.RuleText.relocate_edits` — moving a source makes its edits and nothing else.
-/

namespace PolicyEngine.RuleText

/-! ### Edits of a source -/

/-- Declare another package. -/
def packageEdit (decl : PackageDecl) (package : ModuleId) : Edit where
  start := decl.start
  old := decl.path
  new := package.path

/-- Redirect a reference to the libraries that stands at a byte. -/
def libraryEdit (root : ModuleId) (start : Nat) : Edit where
  start
  old := "data.lib"
  new := "data." ++ root.path ++ ".lib"

/-- In the code view of a source a reference to the libraries stands at a byte, outside of the
declared path. -/
def IsLibraryPlace (source : String) (decl : PackageDecl) (start : Nat) : Prop :=
  ∃ before after, IsReference (codeView source).toList before after ∧ byteCount before = start ∧
    ¬(decl.start ≤ start ∧ start < decl.stop) ∧ Continues after "lib"

/-! ### Edits of tokens -/

/-- Among tokens a reference to the libraries stands behind a number of bytes. -/
def LibraryAt (afterDot : Bool) (ts : List Token) (n : Nat) : Prop :=
  ∃ t₁ t₂, ts = t₁ ++ .word dataWord :: .dot :: .word libWord :: t₂ ∧
    dotBefore afterDot t₁ = false ∧ size (t₁.flatMap Token.glyphs) = n

section LibraryAt

variable {afterDot : Bool} {ts : List Token} {n : Nat}

theorem not_libraryAt_nil : ¬LibraryAt afterDot [] n := by
  rintro ⟨t₁, t₂, heq, -⟩
  exact absurd heq.symm (by simp)

theorem libraryAt_cons {t : Token} :
    LibraryAt afterDot (t :: ts) n ↔
      (n = 0 ∧ afterDot = false ∧ t = .word dataWord ∧ ∃ t₂, ts = .dot :: .word libWord :: t₂) ∨
        ∃ m, LibraryAt t.isDot ts m ∧ size t.glyphs + m = n := by
  constructor
  · rintro ⟨t₁, t₂, heq, hdot, rfl⟩
    cases t₁ with
    | nil =>
      obtain ⟨rfl, rfl⟩ := List.cons.inj heq
      exact .inl ⟨rfl, hdot, rfl, t₂, rfl⟩
    | cons u t₁ =>
      obtain ⟨rfl, rfl⟩ := List.cons.inj heq
      exact .inr ⟨_, ⟨t₁, t₂, rfl, hdot, rfl⟩, (size_append _ _).symm⟩
  · rintro (⟨rfl, hdot, rfl, t₂, rfl⟩ | ⟨_, ⟨t₁, t₂, rfl, hdot, rfl⟩, rfl⟩)
    · exact ⟨[], t₂, rfl, hdot, rfl⟩
    · exact ⟨t :: t₁, t₂, rfl, hdot, size_append _ _⟩

/-- What is no reference makes no difference but that of its size. -/
theorem libraryAt_keep {t : Token} (ht : ¬(t = .word dataWord ∧ afterDot = false)) :
    LibraryAt afterDot (t :: ts) n ↔ ∃ m, LibraryAt t.isDot ts m ∧ size t.glyphs + m = n := by
  rw [libraryAt_cons]
  refine or_iff_right ?_
  rintro ⟨-, hdot, hword, -⟩
  exact ht ⟨hword, hdot⟩

/-- A reference to the libraries, or to something else, and what stands behind it. -/
theorem libraryAt_reference {segment : List Char} (hsegment : segment ≠ dataWord) :
    LibraryAt false (reference segment ++ ts) n ↔
      n = 0 ∧ segment = libWord ∨
        ∃ m, LibraryAt false ts m ∧ size ((reference segment).flatMap Token.glyphs) + m = n := by
  have hdot : ∀ b, ¬(Token.dot = .word dataWord ∧ b = false) := fun _ h => Token.noConfusion h.1
  have hword : ∀ b, ¬(Token.word segment = .word dataWord ∧ b = false) :=
    fun _ h => hsegment (Token.word.inj h.1)
  change LibraryAt false (.word dataWord :: .dot :: .word segment :: ts) n ↔ _
  rw [libraryAt_cons]
  simp only [libraryAt_keep (hdot _), libraryAt_keep (hword _)]
  refine or_congr ?_ ?_
  · simp
  · simp only [reference, List.flatMap_cons, List.flatMap_nil, List.append_nil, size_append]
    constructor
    · rintro ⟨_, ⟨_, ⟨m, hm, rfl⟩, rfl⟩, rfl⟩
      exact ⟨m, hm, by simp only [Nat.add_assoc]⟩
    · rintro ⟨m, hm, rfl⟩
      exact ⟨_, ⟨_, ⟨m, hm, rfl⟩, rfl⟩, by simp only [Nat.add_assoc]⟩

end LibraryAt

/-- An edit of a reference to the libraries, among tokens that stand at a byte. -/
def IsLibraryEdit (root : ModuleId) (start : Nat) (afterDot : Bool) (ts : List Token) (e : Edit) :
    Prop :=
  ∃ n, LibraryAt afterDot ts n ∧ e = libraryEdit root (start + n)

section IsLibraryEdit

variable {root : ModuleId} {start : Nat} {afterDot : Bool} {ts : List Token} {e : Edit}

theorem not_isLibraryEdit_nil : ¬IsLibraryEdit root start afterDot [] e := by
  rintro ⟨n, hn, -⟩
  exact not_libraryAt_nil hn

/-- Tokens behind others stand at a later byte. -/
theorem isLibraryEdit_add_iff (size : Nat) :
    (∃ n, (∃ m, LibraryAt afterDot ts m ∧ size + m = n) ∧ e = libraryEdit root (start + n)) ↔
      IsLibraryEdit root (start + size) afterDot ts e := by
  constructor
  · rintro ⟨_, ⟨m, hm, rfl⟩, rfl⟩
    exact ⟨m, hm, by rw [Nat.add_assoc]⟩
  · rintro ⟨m, hm, rfl⟩
    exact ⟨_, ⟨m, hm, rfl⟩, by rw [Nat.add_assoc]⟩

theorem isLibraryEdit_keep {t : Token} (ht : ¬(t = .word dataWord ∧ afterDot = false)) :
    IsLibraryEdit root start afterDot (t :: ts) e ↔
      IsLibraryEdit root (start + size t.glyphs) t.isDot ts e := by
  rw [IsLibraryEdit, ← isLibraryEdit_add_iff]
  simp only [libraryAt_keep ht]

theorem isLibraryEdit_reference {segment : List Char} (hsegment : segment ≠ dataWord) :
    IsLibraryEdit root start false (reference segment ++ ts) e ↔
      segment = libWord ∧ e = libraryEdit root start ∨
        IsLibraryEdit root (start + size ((reference segment).flatMap Token.glyphs)) false ts
          e := by
  rw [IsLibraryEdit, ← isLibraryEdit_add_iff]
  simp only [libraryAt_reference hsegment, or_and_right, exists_or, and_assoc, exists_eq_left,
    Nat.add_zero]

end IsLibraryEdit

theorem toList_new_libraryEdit (root : ModuleId) (start : Nat) :
    plain (libraryEdit root start).new.toList = (libTokens root).flatMap Token.glyphs := by
  rw [libTokens, flatMap_glyphs_tokens]
  rfl

/-- Redirecting the references of tokens makes an edit at each reference to the libraries. -/
theorem Moves.exists_edited {root : ModuleId} {afterDot : Bool} {ts us : List Token}
    (h : Moves root afterDot ts us) (start : Nat) :
    ∃ es, Edited start (ts.flatMap Token.glyphs) es (us.flatMap Token.glyphs) ∧
      ∀ e, e ∈ es ↔ IsLibraryEdit root start afterDot ts e := by
  induction h generalizing start with
  | nil => exact ⟨[], .nil, fun e => iff_of_false List.not_mem_nil not_isLibraryEdit_nil⟩
  | @keep _ t ts us ht h ih =>
    obtain ⟨es, hes, hmem⟩ := ih (start + size t.glyphs)
    refine ⟨es, (Edited.refl start t.glyphs).append hes, fun e => ?_⟩
    rw [hmem, isLibraryEdit_keep ht]
  | @inventory ts us h ih =>
    let kept := (reference "inventory".toList).flatMap Token.glyphs
    obtain ⟨es, hes, hmem⟩ := ih (start + size kept)
    refine ⟨es, (Edited.refl start kept).append hes, fun e => ?_⟩
    change _ ↔ IsLibraryEdit root start false (reference "inventory".toList ++ ts) e
    rw [hmem, isLibraryEdit_reference (by decide)]
    exact (or_iff_right fun hlib => absurd hlib.1 (by decide)).symm
  | @library ts us h ih =>
    have hold : (reference libWord).flatMap Token.glyphs = plain "data.lib".toList := by decide
    obtain ⟨es, hes, hmem⟩ := ih (start + "data.lib".utf8ByteSize)
    refine ⟨libraryEdit root start :: es, ?_, fun e => ?_⟩
    · change Edited start ((reference libWord ++ ts).flatMap Token.glyphs) _ _
      rw [List.flatMap_append, List.flatMap_append, hold, ← toList_new_libraryEdit root start]
      exact .edit (by decide) (by simp) hes
    · change _ ↔ IsLibraryEdit root start false (reference libWord ++ ts) e
      rw [List.mem_cons, hmem, isLibraryEdit_reference (by decide), hold, size_plain,
        and_iff_right rfl]

/-! ### References in the view -/

section Places

variable {source : String} {split : PackageSplit} {start : Nat}

/-- Where tokens of a source refer to the libraries, outside of the declared path, so does its
view. -/
theorem isLibraryPlace_of_tokens_eq (hcuts : split.Cuts (glyphs source)) {t₁ t₂ : List Token}
    (htokens : split.tokens = t₁ ++ .word dataWord :: .dot :: .word libWord :: t₂)
    (hdot : dotBefore false t₁ = false) (hstart : size (t₁.flatMap Token.glyphs) = start)
    (hout : ¬(split.decl.start ≤ start ∧ start < split.decl.stop)) :
    IsLibraryPlace source split.decl start := by
  have hcut := hcuts.isCut
  rw [htokens] at hcut
  have href := hcut.isReference_iff.2 ⟨t₁, _, rfl, hdot, rfl, rfl⟩
  have hident : isIdentifier "lib".toList = true := by decide
  have hlib := (hcut.of_append_cons.continues_iff hident).2 ⟨t₂, rfl⟩
  rw [← htokens, ← toList_codeView hcuts] at href
  exact ⟨_, _, href, (byteCount_shown t₁).trans hstart, hout, hlib⟩

/-- Where the view of a source refers to the libraries, so do its tokens. -/
theorem exists_tokens_eq_of_isLibraryPlace (hcuts : split.Cuts (glyphs source))
    (h : IsLibraryPlace source split.decl start) :
    ∃ t₁ t₂, split.tokens = t₁ ++ .word dataWord :: .dot :: .word libWord :: t₂ ∧
      dotBefore false t₁ = false ∧ size (t₁.flatMap Token.glyphs) = start ∧
      ¬(split.decl.start ≤ start ∧ start < split.decl.stop) := by
  obtain ⟨before, after, href, hstart, hout, hlib⟩ := h
  have hcut := hcuts.isCut
  rw [toList_codeView hcuts] at href
  obtain ⟨t₁, t₂, htokens, hdot, rfl, rfl⟩ := hcut.isReference_iff.1 href
  rw [htokens] at hcut
  obtain ⟨rest, rfl⟩ := (hcut.of_append_cons.continues_iff (by decide)).1 hlib
  exact ⟨t₁, rest, htokens, hdot, (byteCount_shown t₁).symm.trans hstart, hout⟩

/-- Tokens that end in a blank hold the whole of a reference to the libraries if they hold its first
word. -/
theorem exists_eq_of_append_eq {t₁ t₂ us rest : List Token} {g : Glyph}
    (hlast : (t₁ ++ .word dataWord :: t₂).getLast? = some (.mark g)) (hg : g.isBlank = true)
    (h : .dot :: .word libWord :: rest = t₂ ++ us) :
    ∃ rest', t₂ = .dot :: .word libWord :: rest' := by
  obtain ⟨rest', rfl | rfl⟩ := isAllowed_of_append hlast hg ⟨rest, .inr h.symm⟩
  · have hword := Token.word.inj (List.cons.inj (List.cons.inj h).2).1
    exact absurd hword (by decide)
  · exact ⟨rest', rfl⟩

theorem size_tokens (gs : List Glyph) : size ((tokens gs).flatMap Token.glyphs) = size gs := by
  rw [flatMap_glyphs_tokens]

/-- Behind the declared path tokens stand as far from its end as from their own beginning. -/
theorem size_behind_path (split : PackageSplit) (ts : List Token) :
    size ((tokens split.before ++ (tokens split.path ++ ts)).flatMap Token.glyphs) =
      split.decl.stop + size (ts.flatMap Token.glyphs) := by
  rw [List.flatMap_append, List.flatMap_append, size_append, size_append, size_tokens, size_tokens,
    ← Nat.add_assoc]
  rfl

/-- A source refers to the libraries, outside of the declared path, where the tokens before or
behind this path do. -/
theorem isLibraryPlace_iff (hcuts : split.Cuts (glyphs source)) :
    IsLibraryPlace source split.decl start ↔
      LibraryAt false (tokens split.before) start ∨
        ∃ m, LibraryAt false (tokens split.after) m ∧ split.decl.stop + m = start := by
  constructor
  · intro h
    obtain ⟨t₁, t₂, htokens, hdot, rfl, hout⟩ := exists_tokens_eq_of_isLibraryPlace hcuts h
    rcases eq_of_append_eq_append_cons htokens with ⟨es, hes, htail⟩ | ⟨es, rfl, hes⟩
    · obtain ⟨g, hg, hblank⟩ := hcuts.getLast?_tokens_before
      rw [hes] at hg
      obtain ⟨rest, rfl⟩ := exists_eq_of_append_eq hg hblank htail
      exact .inl ⟨t₁, rest, hes, hdot, rfl⟩
    · rcases eq_of_append_eq_append_cons hes with ⟨fs, hfs, -⟩ | ⟨fs, rfl, hfs⟩
      · -- A reference inside of the declared path.
        refine absurd ?_ hout
        have hsize := size_of_tokens_eq hfs
        rw [List.flatMap_append, size_append, size_tokens]
        change size split.before ≤ _ ∧ _ < size split.before + size split.path
        omega
      · refine .inr ⟨_, ⟨fs, t₂, hfs, ?_, rfl⟩, ?_⟩
        · cases fs with
          | nil => rfl
          | cons f fs =>
            rw [dotBefore_append, dotBefore_append] at hdot
            exact hdot
        · exact (size_behind_path split fs).symm
  · rintro (⟨t₁, t₂, heq, hdot, rfl⟩ | ⟨_, ⟨t₁, t₂, heq, hdot, rfl⟩, rfl⟩)
    · have htokens : split.tokens = t₁ ++ .word dataWord :: .dot :: .word libWord ::
          (t₂ ++ (tokens split.path ++ tokens split.after)) := by
        rw [PackageSplit.tokens, heq, List.append_assoc]
        rfl
      refine isLibraryPlace_of_tokens_eq hcuts htokens hdot rfl ?_
      rintro ⟨hstart, -⟩
      have hsize := size_of_tokens_eq heq
      change size split.before ≤ _ at hstart
      omega
    · have hne : t₁ ≠ [] := by
        rintro rfl
        have hapart := hcuts.apart_after
        rw [heq] at hapart
        cases hapart _ rfl
      have htokens : split.tokens = (tokens split.before ++ (tokens split.path ++ t₁)) ++
          .word dataWord :: .dot :: .word libWord :: t₂ := by
        rw [PackageSplit.tokens, heq]
        simp only [List.append_assoc]
      refine isLibraryPlace_of_tokens_eq hcuts htokens ?_ ?_ ?_
      · rw [dotBefore_append, dotBefore_append, dotBefore_eq hne _ false]
        exact hdot
      · exact size_behind_path split t₁
      · omega

/-- The edits of references of a source are those of the tokens before and behind the declared
path. -/
theorem exists_isLibraryPlace_iff (hcuts : split.Cuts (glyphs source)) {root : ModuleId}
    {e : Edit} :
    (∃ start, IsLibraryPlace source split.decl start ∧ e = libraryEdit root start) ↔
      IsLibraryEdit root 0 false (tokens split.before) e ∨
        IsLibraryEdit root split.decl.stop false (tokens split.after) e := by
  simp only [isLibraryPlace_iff hcuts, or_and_right, exists_or, IsLibraryEdit, Nat.zero_add]
  refine or_congr_right ⟨?_, ?_⟩
  · rintro ⟨_, ⟨m, hm, rfl⟩, rfl⟩
    exact ⟨m, hm, rfl⟩
  · rintro ⟨m, hm, rfl⟩
    exact ⟨_, ⟨m, hm, rfl⟩, rfl⟩

end Places

/-! ### Moved sources -/

theorem PackageSplit.stop_decl {split : PackageSplit} (h : isDottedPath split.pathText = true) :
    split.decl.stop = split.decl.start + split.pathText.utf8ByteSize := by
  rw [← size_plain, ← plain_pathText h]
  rfl

/-- A source is moved by the edit of its package and those of its references to the libraries. -/
theorem exists_edited_of_relocateSplit {source out : String} {split : PackageSplit}
    {package root : ModuleId} (hsplit : declaredPackage source = .ok split)
    (hne : package.path ≠ "") (hpackage : ∀ c ∈ package.path.toList, isPathChar c = true)
    (hroot : ∀ c ∈ root.path.toList, isPathChar c = true)
    (h : relocateSplit split package root = .ok out) :
    ∃ es, Edited 0 (glyphs source) es (glyphs out) ∧
      ∀ e, e ∈ es ↔ e = packageEdit split.decl package ∨
        ∃ start, IsLibraryPlace source split.decl start ∧ e = libraryEdit root start := by
  obtain ⟨hcuts, hpath⟩ := cuts_of_declaredPackage hsplit
  obtain ⟨us, ws, hus, hws, hglyphs⟩ := exists_moves_of_relocateSplit hcuts hpath hpackage hroot h
  obtain ⟨es, hes, hmem⟩ := hus.exists_edited 0
  obtain ⟨fs, hfs, hmem'⟩ := hws.exists_edited split.decl.stop
  rw [flatMap_glyphs_tokens] at hes hfs
  refine ⟨es ++ packageEdit split.decl package :: fs, ?_, fun e => ?_⟩
  · rw [hcuts.eq, hglyphs, plain_pathText hpath]
    refine hes.append ?_
    rw [Nat.zero_add]
    rw [PackageSplit.stop_decl hpath] at hfs
    exact .edit (fun hnil => toList_ne_nil_of_isDottedPath hpath (by rw [hnil]; rfl)) hne hfs
  · rw [List.mem_append, List.mem_cons, hmem, hmem', exists_isLibraryPlace_iff hcuts]
    exact or_left_comm

/-- What moving a source into the module of a template comes to, with the package it then has. -/
theorem exists_relocateSplit_of_relocate {source out : String} {target : TargetName}
    {kind : TemplateKind} {package : ModuleId}
    (h : relocateMain source (.forTemplate target kind) = .ok out ∧
        package = .forTemplate target kind ∨
      relocateLib source (.forTemplate target kind) = .ok (package, out)) :
    ∃ split, declaredPackage source = .ok split ∧
      relocateSplit split package (.forTemplate target kind) = .ok out ∧ package.path ≠ "" ∧
      ∀ c ∈ package.path.toList, isPathChar c = true := by
  have hne : ∀ {path : String}, path.toList ≠ [] → path ≠ "" := by
    rintro _ hne rfl
    exact hne rfl
  have hmodule := toList_ne_nil_forTemplate target kind
  rcases h with ⟨hmain, rfl⟩ | hlib
  · obtain ⟨split, hsplit, hout⟩ := relocateMain_eq_ok_iff.1 hmain
    exact ⟨split, hsplit, hout, hne hmodule, fun _ => ModuleId.isPathChar_of_mem_forTemplate⟩
  · obtain ⟨split, name, out', hsplit, hname, hout, hmoved⟩ := relocateLib_eq_ok_iff.1 hlib
    obtain ⟨rfl, rfl⟩ := Prod.mk.inj hmoved
    have hdeclared := isPathChar_of_isDottedPath (cuts_of_declaredPackage hsplit).2
    refine ⟨split, hsplit, hout, hne ?_, fun _ => ModuleId.isPathChar_of_mem_lib
      (fun _ => ModuleId.isPathChar_of_mem_forTemplate)
      fun c hc => hdeclared c (mem_of_libraryName? hname c hc)⟩
    rw [ModuleId.toList_path_lib]
    exact List.append_ne_nil_of_left_ne_nil hmodule _

/-- **Moving a source makes its edits and nothing else.** A source that is moved into the module of
a template, as a main source or as a library, is edited in the declared path and in each reference
to the libraries outside of it. The edits lie apart, and what they remove stands at their places in
the source and in its code view. Made in the source they give the outcome, and in its code view that
of the outcome. So literals and comments stay as they are, and the outcome defines the rules that
the source does. -/
theorem relocate_edits {source out : String} {target : TargetName} {kind : TemplateKind}
    {package : ModuleId}
    (h : relocateMain source (.forTemplate target kind) = .ok out ∧
        package = .forTemplate target kind ∨
      relocateLib source (.forTemplate target kind) = .ok (package, out)) :
    ∃ decl edits, findPackage? source = some decl ∧
      (∀ e, e ∈ edits ↔ e = packageEdit decl package ∨ ∃ start,
        IsLibraryPlace source decl start ∧ e = libraryEdit (.forTemplate target kind) start) ∧
      (Fits (bytes source) 0 edits ∧ splice (bytes source) 0 edits = bytes out) ∧
      (Fits (bytes (codeView source)) 0 edits ∧
        splice (bytes (codeView source)) 0 edits = bytes (codeView out)) ∧
      literals out = literals source ∧
      ∀ name : String, isIdentifier name.toList = true →
        definesRule out name = definesRule source name := by
  obtain ⟨split, hsplit, hout, hne, hpackage⟩ := exists_relocateSplit_of_relocate h
  have hroot : ∀ c ∈ (ModuleId.forTemplate target kind).path.toList, isPathChar c = true :=
    fun _ => ModuleId.isPathChar_of_mem_forTemplate
  obtain ⟨edits, hedited, hmem⟩ := exists_edited_of_relocateSplit hsplit hne hpackage hroot hout
  refine ⟨split.decl, edits, ?_, hmem, hedited.splice_bytes, hedited.splice_codeView,
    hedited.literals_eq, fun name hname =>
      definesRule_eq_of_relocateSplit hsplit hpackage hroot hout hname⟩
  rw [findPackage?_eq_map, (declaredPackage_eq_ok_iff.1 hsplit).1, Option.map_some]

/-- The module of a template for letters. -/
def signedModule : ModuleId :=
  .forTemplate ⟨"letters", by decide +kernel⟩ ⟨"Signed", by decide +kernel⟩

theorem relocate_edits_signed :
    let source := "package a\nr = data.lib.f(\"data.lib é\")"
    let out := "package templates.letters.Signed\n" ++
      "r = data.templates.letters.Signed.lib.f(\"data.lib é\")"
    relocateMain source signedModule = .ok out ∧
      (∃ edits, splice (bytes source) 0 edits = bytes out ∧
        splice (bytes (codeView source)) 0 edits = bytes (codeView out)) ∧
      literals out = literals source ∧ definesRule out "r" = definesRule source "r" := by
  intro source out
  have hmain : relocateMain source signedModule = .ok out :=
    Outcome.toOption_eq_some.1 (by decide +kernel)
  obtain ⟨_, edits, -, -, ⟨-, hsource⟩, ⟨-, hview⟩, hliterals, hrules⟩ :=
    relocate_edits (.inl ⟨hmain, rfl⟩)
  exact ⟨hmain, ⟨edits, hsource, hview⟩, hliterals, hrules "r" (by decide)⟩

end PolicyEngine.RuleText
