import PolicyEngine.Module.Change

/-!
# Nesting of modules

One module covers another if its path, cut at the dots, begins the path of the other. The modules of
a template and its libraries stand beneath a path of three segments that names the target and the
kind, so two templates, or two targets of one template, never cover a module together.

## Main definitions

* `PolicyEngine.ModuleId.segments` — the parts of a path between its dots.

## Main results

* `PolicyEngine.Text.pieces_prefix_iff` — pieces begin pieces as texts begin texts up to a
  separator.
* `PolicyEngine.ModuleId.covers_iff` — covering is a prefix of segments.
* `PolicyEngine.ModuleId.covers_total` — the modules above a module stand beneath one another.
* `PolicyEngine.ModuleId.eq_of_covers_forTemplate` — a module that two templates cover is of one
  target and one kind.
-/

namespace PolicyEngine

namespace Text

variable {separator : Char}

/-- Cutting at a separator and then both sides of it is cutting the whole. -/
theorem pieces_append (separator : Char) (cs ds : List Char) :
    pieces separator (cs ++ separator :: ds) = pieces separator cs ++ pieces separator ds := by
  induction cs with
  | nil => simp [pieces]
  | cons c rest ih =>
    rw [List.cons_append, pieces, pieces, ih]
    split
    · rfl
    · cases hp : pieces separator rest with
      | nil => exact absurd hp (pieces_ne_nil separator rest)
      | cons piece others => rfl

/-- The first piece begins with all that stands before a text, if no separator does. -/
theorem pieces_append_of_notMem {cs ds p : List Char} {ps : List (List Char)} (h : separator ∉ cs)
    (hds : pieces separator ds = p :: ps) : pieces separator (cs ++ ds) = (cs ++ p) :: ps := by
  induction cs with
  | nil => exact hds
  | cons c rest ih =>
    have hc : c ≠ separator := fun hc => h (hc ▸ List.mem_cons_self)
    rw [List.cons_append, pieces, if_neg hc, ih fun hm => h (List.mem_cons_of_mem _ hm)]
    rfl

/-- The first piece begins as the text does. -/
theorem head?_of_pieces_eq_cons {ds p : List Char} {ps : List (List Char)}
    (hds : pieces separator ds = p :: ps) : ∀ c ∈ p.head?, c ∈ ds.head? := by
  intro c hc
  cases ds with
  | nil =>
    obtain ⟨rfl, -⟩ := List.cons.inj hds
    cases hc
  | cons d rest =>
    rw [pieces] at hds
    split at hds
    · obtain ⟨rfl, -⟩ := List.cons.inj hds
      cases hc
    · split at hds
      · obtain ⟨rfl, -⟩ := List.cons.inj hds
        exact hc
      · obtain ⟨rfl, -⟩ := List.cons.inj hds
        exact hc

theorem joinPieces_append {ps qs : List (List Char)} (hp : ps ≠ []) (hq : qs ≠ []) :
    joinPieces separator (ps ++ qs) =
      joinPieces separator ps ++ separator :: joinPieces separator qs := by
  induction ps with
  | nil => exact absurd rfl hp
  | cons p rest ih =>
    cases rest with
    | nil => rw [List.singleton_append, joinPieces.eq_3 _ _ _ hq, joinPieces]
    | cons p' rest' =>
      have hrest : p' :: rest' ≠ [] := List.cons_ne_nil _ _
      have happ : p' :: rest' ++ qs ≠ [] := List.cons_ne_nil _ _
      rw [List.cons_append, joinPieces.eq_3 separator p _ happ, ih hrest,
        joinPieces.eq_3 separator p _ hrest, List.append_assoc, List.cons_append]

/-- The pieces of one text begin those of another if the texts are equal or the other goes on with a
separator. -/
theorem pieces_prefix_iff {cs ds : List Char} :
    pieces separator cs <+: pieces separator ds ↔ cs = ds ∨ cs ++ [separator] <+: ds := by
  constructor
  · rintro ⟨rest, hrest⟩
    have hds := joinPieces_pieces separator ds
    rw [← hrest] at hds
    by_cases hnil : rest = []
    · rw [hnil, List.append_nil, joinPieces_pieces] at hds
      exact .inl hds
    · rw [joinPieces_append (pieces_ne_nil _ _) hnil, joinPieces_pieces] at hds
      exact .inr ⟨joinPieces separator rest, by rw [← hds, List.append_assoc]; rfl⟩
  · rintro (rfl | ⟨rest, rfl⟩)
    · exact List.prefix_rfl
    · rw [List.append_assoc, List.singleton_append, pieces_append]
      exact List.prefix_append _ _

end Text

/-! ### Characters of names -/

/-- A target's form in package paths has no dot. -/
theorem TargetName.dot_notMem_ident (target : TargetName) : '.' ∉ target.ident.toList := by
  rw [TargetName.ident, TargetName.identOf, String.toList_ofList, List.mem_map]
  rintro ⟨c, -, hc⟩
  split at hc
  · exact absurd hc (by decide)
  · rename_i hne
    rw [hc] at hne
    exact hne rfl

/-- A target's form in package paths consists of identifier characters. -/
theorem TargetName.isIdentChar_of_mem_ident {target : TargetName} {c : Char}
    (h : c ∈ target.ident.toList) : RuleText.isIdentChar c = true := by
  rw [TargetName.ident, TargetName.identOf, String.toList_ofList, List.mem_map] at h
  obtain ⟨d, hd, rfl⟩ := h
  have haccepted := target.accepted
  rw [TargetName.accepts] at haccepted
  split at haccepted
  · cases haccepted
  · rename_i first rest hchars
    simp only [Bool.and_eq_true, List.all_eq_true] at haccepted
    split
    · decide
    · rename_i hplain
      have hkept : isLowerOrDigit d = true := by
        rw [hchars] at hd
        rcases List.mem_cons.1 hd with rfl | hrest
        · rw [isLowerOrDigit, haccepted.1.1.1, Bool.true_or]
        · have hallowed := haccepted.1.1.2 d hrest
          rw [Bool.or_assoc, Bool.or_eq_true] at hallowed
          exact hallowed.resolve_right hplain
      have halphanum : d.isAlphanum = true := by
        change ((d.isUpper || d.isLower) || d.isDigit) = true
        rw [Bool.or_assoc, Bool.or_eq_true]
        exact .inr hkept
      rw [RuleText.isIdentChar, halphanum, Bool.true_or]

/-- A kind consists of letters and digits. -/
theorem TemplateKind.isAlphanum_of_mem {kind : TemplateKind} {c : Char}
    (h : c ∈ kind.text.toList) : c.isAlphanum = true := by
  have haccepted := kind.accepted
  rw [TemplateKind.accepts] at haccepted
  split at haccepted
  · cases haccepted
  · rename_i first rest hchars
    simp only [Bool.and_eq_true, List.all_eq_true] at haccepted
    rw [hchars] at h
    rcases List.mem_cons.1 h with rfl | hrest
    · rw [Char.isAlphanum, haccepted.1.1.1]
      rfl
    · exact haccepted.1.1.2 c hrest

/-- A kind consists of identifier characters. -/
theorem TemplateKind.isIdentChar_of_mem_text {kind : TemplateKind} {c : Char}
    (h : c ∈ kind.text.toList) : RuleText.isIdentChar c = true := by
  rw [RuleText.isIdentChar, isAlphanum_of_mem h, Bool.true_or]

theorem TemplateKind.dot_notMem_text (kind : TemplateKind) : '.' ∉ kind.text.toList := by
  intro h
  exact absurd (TemplateKind.isAlphanum_of_mem h) (by decide)

/-! ### Segments -/

namespace ModuleId

/-- The parts of a path between its dots. -/
def segments (id : ModuleId) : List (List Char) := Text.pieces '.' id.path.toList

theorem segments_injective : Function.Injective segments := by
  intro a b h
  refine ext_path (String.toList_injective ?_)
  rw [← Text.joinPieces_pieces '.' a.path.toList, ← Text.joinPieces_pieces '.' b.path.toList]
  exact congrArg (Text.joinPieces '.') h

/-- Covering is a prefix of segments. -/
theorem covers_iff {a b : ModuleId} : a.covers b = true ↔ a.segments <+: b.segments := by
  rw [segments, segments, Text.pieces_prefix_iff, covers, Bool.or_eq_true, isWithin,
    List.isPrefixOf_iff_prefix, beq_iff_eq]
  constructor
  · rintro (rfl | h)
    · exact .inl rfl
    · exact .inr h
  · rintro (h | h)
    · exact .inl (ext_path (String.toList_injective h))
    · exact .inr h

theorem covers_refl (id : ModuleId) : id.covers id = true :=
  covers_iff.2 List.prefix_rfl

theorem covers_antisymm {a b : ModuleId} (h : a.covers b = true) (h' : b.covers a = true) :
    a = b := by
  rw [covers_iff] at h h'
  exact segments_injective (h.eq_of_length_le h'.length_le)

theorem covers_trans {a b c : ModuleId} (h : a.covers b = true) (h' : b.covers c = true) :
    a.covers c = true := by
  rw [covers_iff] at h h' ⊢
  exact h.trans h'

/-- Of two modules that cover a third one, one covers the other. -/
theorem covers_total {a b c : ModuleId} (h : a.covers c = true) (h' : b.covers c = true) :
    a.covers b = true ∨ b.covers a = true := by
  rw [covers_iff] at h h'
  rw [covers_iff, covers_iff]
  exact List.prefix_or_prefix_of_prefix h h'

theorem toList_path_forTemplate (target : TargetName) (kind : TemplateKind) :
    (forTemplate target kind).path.toList =
      "templates".toList ++ '.' :: (target.ident.toList ++ '.' :: kind.text.toList) := by
  simp [forTemplate]

theorem toList_path_lib (id : ModuleId) (name : String) :
    (id.lib name).path.toList = id.path.toList ++ '.' :: ("lib".toList ++ '.' :: name.toList) := by
  simp [lib]

theorem segments_forTemplate (target : TargetName) (kind : TemplateKind) :
    (forTemplate target kind).segments =
      ["templates".toList, target.ident.toList, kind.text.toList] := by
  rw [segments, toList_path_forTemplate, Text.pieces_append_separator (by decide),
    Text.pieces_append_separator target.dot_notMem_ident,
    Text.pieces_of_notMem kind.dot_notMem_text]

theorem segments_lib (id : ModuleId) (name : String) :
    (id.lib name).segments = id.segments ++ "lib".toList :: Text.pieces '.' name.toList := by
  rw [segments, toList_path_lib, Text.pieces_append, Text.pieces_append_separator (by decide)]
  rfl

/-- A module covers its libraries. -/
theorem covers_lib (id : ModuleId) (name : String) : id.covers (id.lib name) = true := by
  rw [covers_iff, segments_lib]
  exact List.prefix_append _ _

theorem ne_lib (id : ModuleId) (name : String) : id ≠ id.lib name := by
  intro h
  have hlength := congrArg (fun a => (segments a).length) h
  simp only [segments_lib, List.length_append, List.length_cons] at hlength
  omega

/-- A module that two templates cover is of one target and one kind. -/
theorem eq_of_covers_forTemplate {target target' : TargetName} {kind kind' : TemplateKind}
    {id : ModuleId} (h : (forTemplate target kind).covers id = true)
    (h' : (forTemplate target' kind').covers id = true) :
    target.ident = target'.ident ∧ kind = kind' := by
  rw [covers_iff, segments_forTemplate] at h h'
  have heq := List.IsPrefix.eq_of_length (List.prefix_of_prefix_length_le h h' (by simp)) (by simp)
  simp only [List.cons.injEq, and_true, true_and] at heq
  exact ⟨String.toList_injective heq.1, TemplateKind.ext_text (String.toList_injective heq.2)⟩

end ModuleId

end PolicyEngine
