import PolicyEngine.Proofs.Module.Nesting
import PolicyEngine.Proofs.RuleText.Movable

/-!
# Isolation of templates

In the code view of what a source is moved to, each reference goes on with `inventory` or leads to
the libraries of the module. No reference leads to the module of another template.

## Main definitions

* `PolicyEngine.RuleText.BeginsWithTemplates` — what the paths of modules have in common.

## Main results

* `PolicyEngine.RuleText.exists_tokens_of_relocateSplit` — the tokens of what a source is moved to.
* `PolicyEngine.RuleText.IsRedirected.eq_of_continues` — a redirected reference leads to no module
  of another template.
* `PolicyEngine.RuleText.relocate_isolates`.
-/

namespace PolicyEngine

/-! ### Paths of modules -/

namespace ModuleId

open RuleText

theorem isPathChar_of_mem_forTemplate {target : TargetName} {kind : TemplateKind} {c : Char}
    (h : c ∈ (forTemplate target kind).path.toList) : isPathChar c = true := by
  rw [toList_path_forTemplate, List.mem_append, List.mem_cons, List.mem_append, List.mem_cons] at h
  rcases h with htemplates | rfl | hident | rfl | hkind
  · exact List.all_eq_true.1 (by decide : "templates".toList.all isPathChar = true) c htemplates
  · rfl
  · exact isPathChar_of_isIdentChar (TargetName.isIdentChar_of_mem_ident hident)
  · rfl
  · exact isPathChar_of_isIdentChar (TemplateKind.isIdentChar_of_mem_text hkind)

theorem isPathChar_of_mem_lib {id : ModuleId} {name : String}
    (hid : ∀ c ∈ id.path.toList, isPathChar c = true)
    (hname : ∀ c ∈ name.toList, isPathChar c = true)
    {c : Char} (h : c ∈ (id.lib name).path.toList) : isPathChar c = true := by
  rw [toList_path_lib, List.mem_append, List.mem_cons, List.mem_append, List.mem_cons] at h
  rcases h with hpath | rfl | hlib | rfl | hname'
  · exact hid c hpath
  · rfl
  · exact List.all_eq_true.1 (by decide : "lib".toList.all isPathChar = true) c hlib
  · rfl
  · exact hname c hname'

theorem pieces_path_forTemplate_append (target : TargetName) (kind : TemplateKind)
    {rest p : List Char} {ps : List (List Char)} (hrest : Text.pieces '.' rest = p :: ps) :
    Text.pieces '.' ((forTemplate target kind).path.toList ++ rest) =
      "templates".toList :: target.ident.toList :: (kind.text.toList ++ p) :: ps := by
  rw [toList_path_forTemplate, List.append_assoc, List.cons_append, List.append_assoc,
    List.cons_append, Text.pieces_append_separator (by decide),
    Text.pieces_append_separator target.dot_notMem_ident,
    Text.pieces_append_of_notMem kind.dot_notMem_text hrest]

/-- The paths of two templates are equal if one ends at a dot where the other ends at no identifier
character. -/
theorem forTemplate_eq_of_append_eq {target target' : TargetName} {kind kind' : TemplateKind}
    {rest rest' : List Char}
    (h : (forTemplate target' kind').path.toList ++ rest' =
      (forTemplate target kind).path.toList ++ '.' :: rest)
    (hrest' : ∀ c ∈ rest'.head?, isIdentChar c = false) :
    forTemplate target' kind' = forTemplate target kind := by
  obtain ⟨p, ps, hp⟩ := List.exists_cons_of_ne_nil (Text.pieces_ne_nil '.' rest')
  have hdot : Text.pieces '.' ('.' :: rest) = [] :: Text.pieces '.' rest :=
    Text.pieces_append_separator List.not_mem_nil rest
  have hpieces := congrArg (Text.pieces '.') h
  rw [pieces_path_forTemplate_append target' kind' hp,
    pieces_path_forTemplate_append target kind hdot, List.append_nil] at hpieces
  simp only [List.cons.injEq, true_and] at hpieces
  obtain ⟨hident, hkind, -⟩ := hpieces
  -- A character that follows the kind would be one of the other kind, and so of an identifier.
  have hnil : p = [] := by
    cases p with
    | nil => rfl
    | cons c cs =>
      have hnot := hrest' c (Text.head?_of_pieces_eq_cons hp c rfl)
      have hmem : c ∈ kind.text.toList := by
        rw [← hkind]
        exact List.mem_append_right _ List.mem_cons_self
      have hident' := TemplateKind.isIdentChar_of_mem_text hmem
      rw [hident'] at hnot
      cases hnot
  rw [hnil, List.append_nil] at hkind
  rw [forTemplate, forTemplate, String.toList_injective hident, String.toList_injective hkind]

end ModuleId

namespace RuleText

/-! ### What a source is moved to -/

/-- A path that begins with the identifier `templates`, as those of modules do. -/
def BeginsWithTemplates (path : String) : Prop :=
  (∀ c ∈ path.toList, isPathChar c = true) ∧ ∃ rest, path.toList = "templates".toList ++ '.' :: rest

theorem isLexed_of_glyphs {source : String} {ts : List Token}
    (h : ts.flatMap Token.glyphs = glyphs source) : IsLexed .code ts := by
  rw [IsLexed, ← map_char_flatMap_glyphs, h, map_char_glyphs]
  rfl

theorem glyphs_of_isLexed {ts : List Token} (h : IsLexed .code ts) :
    glyphs (String.ofList (ts.flatMap Token.chars)) = ts.flatMap Token.glyphs := by
  rw [glyphs, String.toList_ofList]
  exact h

/-- No declared path of a module is a reference. -/
theorem references_package {P : List Token → Prop} {afterDot : Bool} {path : String}
    (h : BeginsWithTemplates path) : References P afterDot (tokens (plain path.toList)) := by
  refine references_path h.1 fun t₂ heq => ?_
  obtain ⟨rest, hrest⟩ := h.2
  have hw : isIdentifier "templates".toList = true := by decide
  obtain ⟨t₂', heq', -⟩ := tokens_plain_of_dot hw rest
  rw [hrest, heq'] at heq
  exact absurd (Token.word.inj (List.cons.inj heq).1) (by decide)

/-- The declared path of a source stands in code, and what is behind it begins there. -/
theorem PackageSplit.Cuts.isLexed {source : String} {split : PackageSplit}
    (h : split.Cuts (glyphs source)) (hpath : isDottedPath split.pathText = true) :
    IsLexed .code (RuleText.tokens split.before) ∧
      Context.code.after ((RuleText.tokens split.before).flatMap Token.chars) = .code ∧
      IsLexed .code (RuleText.tokens split.after) := by
  have hdeclared := isPathChar_of_isDottedPath hpath
  obtain ⟨hbefore, hrest⟩ := isLexed_append.1 (isLexed_of_glyphs h.flatMap_glyphs)
  obtain ⟨hlexed, hafter⟩ := isLexed_append.1 hrest
  rw [plain_pathText hpath] at hlexed hafter
  have hcode : Context.code.after ((RuleText.tokens split.before).flatMap Token.chars) = .code := by
    obtain ⟨c, cs, hcs⟩ := List.exists_cons_of_ne_nil (toList_ne_nil_of_isDottedPath hpath)
    have hfirst : (RuleText.tokens (plain split.pathText.toList)).flatMap Token.glyphs =
        ⟨c, true⟩ :: plain cs := by
      rw [flatMap_glyphs_tokens, hcs]
      rfl
    exact hlexed.eq_code hfirst (hdeclared c (hcs ▸ List.mem_cons_self))
  rw [hcode, flatMap_chars_tokens, map_char_plain, after_code_of_path hdeclared] at hafter
  exact ⟨hbefore, hcode, hafter⟩

/-- A source is moved part by part: the glyphs of the outcome are those of the two moved parts, with
the package between them. -/
theorem exists_moves_of_relocateSplit {source : String} {split : PackageSplit}
    {package root : ModuleId} {out : String} (hcuts : split.Cuts (glyphs source))
    (hpath : isDottedPath split.pathText = true)
    (hpackage : ∀ c ∈ package.path.toList, isPathChar c = true)
    (hroot : ∀ c ∈ root.path.toList, isPathChar c = true)
    (h : relocateSplit split package root = .ok out) :
    ∃ us ws, Moves root false (tokens split.before) us ∧ Moves root false (tokens split.after) ws ∧
      glyphs out = us.flatMap Token.glyphs ++
        (plain package.path.toList ++ ws.flatMap Token.glyphs) := by
  obtain ⟨before, after, hbefore, hafter, rfl⟩ := relocateSplit_eq_ok_iff.1 h
  obtain ⟨us, hus, rfl⟩ := exists_moves hbefore
  obtain ⟨ws, hws, rfl⟩ := exists_moves hafter
  let package' := tokens (plain package.path.toList)
  have hchars : package'.flatMap Token.chars = package.path.toList := by
    rw [flatMap_chars_tokens, map_char_plain]
  have hlexed : IsLexed .code (us ++ (package' ++ ws)) := by
    obtain ⟨hlexedBefore, hcode, hlexedAfter⟩ := hcuts.isLexed hpath
    obtain ⟨hlexedUs, hafterUs⟩ := hus.isLexed hroot hlexedBefore
    obtain ⟨hlexedWs, -⟩ := hws.isLexed hroot hlexedAfter
    refine isLexed_append.2 ⟨hlexedUs, isLexed_append.2 ?_⟩
    rw [hafterUs, hcode, hchars, after_code_of_path hpackage]
    exact ⟨isLexed_code_of_path hpackage, hlexedWs⟩
  have hglyphs := glyphs_of_isLexed hlexed
  rw [List.flatMap_append, List.flatMap_append, hchars, List.flatMap_append, List.flatMap_append,
    flatMap_glyphs_tokens, ← List.append_assoc] at hglyphs
  exact ⟨us, ws, hus, hws, hglyphs⟩

/-- The glyphs of what a source is moved to are those of well cut tokens, of which each reference
goes on with `inventory` or leads to the libraries of the module. -/
theorem exists_tokens_of_relocateSplit {source : String} {split : PackageSplit}
    {package root : ModuleId} {out : String} (hcuts : split.Cuts (glyphs source))
    (hpath : isDottedPath split.pathText = true) (hpackage : BeginsWithTemplates package.path)
    (hroot : ∀ c ∈ root.path.toList, isPathChar c = true)
    (h : relocateSplit split package root = .ok out) :
    ∃ ts, glyphs out = ts.flatMap Token.glyphs ∧ IsCut ts ∧
      References (fun t => IsRedirected root (t.flatMap Token.shown)) false ts := by
  obtain ⟨us, ws, hus, hws, hglyphs⟩ := exists_moves_of_relocateSplit hcuts hpath hpackage.1 hroot h
  let package' := tokens (plain package.path.toList)
  have hcutWs : IsCut ws := hws.isCut (isCut_tokens _)
  have hcutRest : IsCut (package' ++ ws) :=
    (isCut_tokens _).append hcutWs (.inr (hws.apart_head? hcuts.apart_after))
  have hcut : IsCut (us ++ (package' ++ ws)) :=
    (hus.isCut (isCut_tokens _)).append hcutRest (.inl (hus.apart_getLast? hcuts.apart_before))
  refine ⟨us ++ (package' ++ ws), ?_, hcut, references_append.2 ⟨?_, ?_⟩⟩
  · rw [hglyphs, List.flatMap_append, List.flatMap_append, flatMap_glyphs_tokens]
  · exact hus.references hroot hcut
  · refine (references_append.2 ⟨references_package hpackage, References.of_false ?_⟩)
    have hcutNil : IsCut (ws ++ []) := by rwa [List.append_nil]
    exact (hws.references hroot hcutNil).imp fun t ht => by rwa [List.append_nil] at ht

/-- A redirected reference that leads to the module of a template leads to the module itself. -/
theorem IsRedirected.eq_of_continues {target target' : TargetName} {kind kind' : TemplateKind}
    {text : List Char} (h : IsRedirected (.forTemplate target kind) text)
    (h' : Continues text (ModuleId.forTemplate target' kind').path) :
    ModuleId.forTemplate target' kind' = .forTemplate target kind := by
  obtain ⟨rest', rfl, hrest'⟩ := h'
  rcases h with ⟨rest, heq, -⟩ | ⟨rest, heq, -⟩
  · have hhead := congrArg List.head? (List.cons.inj heq).2
    have htemplates : "templates".toList.head? = some 't' := by decide
    have hinventory : "inventory".toList.head? = some 'i' := by decide
    simp only [ModuleId.toList_path_forTemplate, List.head?_append, htemplates, hinventory,
      Option.some_or] at hhead
    exact absurd (Option.some.inj hhead) (by decide)
  · have htail := (List.cons.inj heq).2
    rw [String.toList_append, List.append_assoc] at htail
    exact ModuleId.forTemplate_eq_of_append_eq htail hrest'

/-- In the code view of what a source is moved to every reference is redirected. -/
theorem isRedirected_of_relocateSplit {source : String} {split : PackageSplit}
    {package root : ModuleId} {out : String} (hsplit : declaredPackage source = .ok split)
    (hpackage : BeginsWithTemplates package.path)
    (hroot : ∀ c ∈ root.path.toList, isPathChar c = true)
    (h : relocateSplit split package root = .ok out) {before after : List Char}
    (href : IsReference (codeView out).toList before after) : IsRedirected root after := by
  obtain ⟨hcuts, hpath⟩ := cuts_of_declaredPackage hsplit
  obtain ⟨ts, hglyphs, hcut, hrefs⟩ :=
    exists_tokens_of_relocateSplit hcuts hpath hpackage hroot h
  rw [codeView, String.toList_ofList, hglyphs, view_flatMap_glyphs] at href
  obtain ⟨t₁, t₂, heq, hdot, -, rfl⟩ := hcut.isReference_iff.1 href
  exact hrefs t₁ t₂ heq hdot

theorem beginsWithTemplates_forTemplate (target : TargetName) (kind : TemplateKind) :
    BeginsWithTemplates (ModuleId.forTemplate target kind).path :=
  ⟨fun _ => ModuleId.isPathChar_of_mem_forTemplate, _, ModuleId.toList_path_forTemplate target kind⟩

theorem BeginsWithTemplates.lib {id : ModuleId} {name : String} (h : BeginsWithTemplates id.path)
    (hname : ∀ c ∈ name.toList, isPathChar c = true) : BeginsWithTemplates (id.lib name).path := by
  obtain ⟨hchars, rest, hrest⟩ := h
  refine ⟨fun _ => ModuleId.isPathChar_of_mem_lib hchars hname, ?_⟩
  rw [ModuleId.toList_path_lib, hrest, List.append_assoc]
  exact ⟨_, rfl⟩

/-- **No template can name the module of another.** A main source can be moved into the module of a
template exactly if it declares a dotted path as its package and each reference outside of that path
goes on with `inventory` or `lib`; a library, if moreover its package stands beneath `lib`. In the
code view of the outcome each reference goes on with `inventory` or leads to the libraries of the
module, and if it leads to the module of a template, that is the module itself. -/
theorem relocate_isolates (source : String) (target : TargetName) (kind : TemplateKind) :
    let module := ModuleId.forTemplate target kind
    ((∃ out, relocateMain source module = .ok out) ↔
        ∃ decl, findPackage? source = some decl ∧ isDottedPath decl.path = true ∧
          ReferencesAllowed source decl) ∧
      ((∃ moved, relocateLib source module = .ok moved) ↔
        ∃ decl, findPackage? source = some decl ∧ isDottedPath decl.path = true ∧
          "lib.".toList <+: decl.path.toList ∧ ReferencesAllowed source decl) ∧
      ∀ out,
        (relocateMain source module = .ok out ∨ ∃ id, relocateLib source module = .ok (id, out)) →
        ∀ before after, IsReference (codeView out).toList before after →
          (Continues after "inventory" ∨ Continues after (module.path ++ ".lib")) ∧
            ∀ target' kind', Continues after (ModuleId.forTemplate target' kind').path →
              ModuleId.forTemplate target' kind' = module := by
  refine ⟨exists_relocateMain_iff, exists_relocateLib_iff, fun out hout before after href => ?_⟩
  have hmodule := beginsWithTemplates_forTemplate target kind
  have hredirected : IsRedirected (.forTemplate target kind) after := by
    rcases hout with hmain | ⟨id, hlib⟩
    · obtain ⟨split, hsplit, h⟩ := relocateMain_eq_ok_iff.1 hmain
      exact isRedirected_of_relocateSplit hsplit hmodule hmodule.1 h href
    · obtain ⟨split, name, out', hsplit, hname, h, hmoved⟩ := relocateLib_eq_ok_iff.1 hlib
      obtain ⟨-, rfl⟩ := Prod.mk.inj hmoved
      have hpath := isPathChar_of_isDottedPath (cuts_of_declaredPackage hsplit).2
      have hpackage := hmodule.lib fun c hc => hpath c (mem_of_libraryName? hname c hc)
      exact isRedirected_of_relocateSplit hsplit hpackage hmodule.1 h href
  exact ⟨hredirected, fun target' kind' => hredirected.eq_of_continues⟩

/-- A word in a string is no reference, and one that follows a dot is none either. -/
example :
    (relocateMain "package a\nr = data.lib.f(x.data, \"data.a\")"
        (.forTemplate ⟨"docs", by decide +kernel⟩ ⟨"Required", by decide +kernel⟩)).toOption =
      some ("package templates.docs.Required\n" ++
        "r = data.templates.docs.Required.lib.f(x.data, \"data.a\")") := by
  decide +kernel

end RuleText

end PolicyEngine
