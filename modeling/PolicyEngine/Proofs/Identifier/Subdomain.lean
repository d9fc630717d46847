import Mathlib.Data.String.Basic
import PolicyEngine.Identifier
import PolicyEngine.Text.Pieces

/-!
# Constraint names and subdomains

A subdomain in the sense of DNS-1123 is a sequence of labels with single dots between them, each
made of lower-case letters, digits and hyphens and with a letter or digit at both ends. A constraint
name is checked as a whole: its characters, its two ends and its size. Cut at its dots, that is a
sequence of labels of which only the first is looked at where it begins and only the last where it
ends, so a constraint name may have two dots in a row or a hyphen next to a dot.

## Main definitions

* `PolicyEngine.ConstraintName.IsLabel`, `PolicyEngine.ConstraintName.IsSubdomain` — the grammar
  label by label.
* `PolicyEngine.ConstraintName.EndsProperly` — labels whose inner ends are left open.

## Main results

* `PolicyEngine.ConstraintName.isSubdomain_iff` — the labels of a subdomain are its pieces.
* `PolicyEngine.ConstraintName.accepts_iff` — the check of a name, read label by label.
* `PolicyEngine.ConstraintName.exists_ofString_eq_ok_iff` — which texts are names, and which of the
  names are subdomains.
-/

namespace PolicyEngine

/-! ### Pieces and their ends -/

namespace Text

variable {separator : Char} {p : Char → Bool}

/-- The pieces of a text hold its characters but for the separators. -/
theorem forall_mem_pieces_iff {P : Char → Prop} {cs : List Char} :
    (∀ piece ∈ pieces separator cs, ∀ c ∈ piece, P c) ↔ ∀ c ∈ cs, c = separator ∨ P c := by
  induction cs with
  | nil => simp [pieces]
  | cons c rest ih =>
    rw [List.forall_mem_cons, ← ih, pieces]
    split
    · rename_i hc
      simp [hc]
    · rename_i hc
      cases hrest : pieces separator rest with
      | nil => exact absurd hrest (pieces_ne_nil separator rest)
      | cons piece others => simp only [List.forall_mem_cons, hc, false_or, and_assoc]

/-- The first piece begins as the text does, or is empty. -/
theorem any_head?_pieces (hp : p separator = false) (cs : List Char) :
    (pieces separator cs).head?.any (fun piece => piece.head?.any p) = cs.head?.any p := by
  cases cs with
  | nil => rfl
  | cons c rest =>
    rw [pieces]
    split
    · rename_i hc
      simp [hc, hp]
    · cases pieces separator rest <;> rfl

/-- The last piece ends as the text does, or is empty. -/
theorem any_getLast?_pieces (hp : p separator = false) (cs : List Char) :
    (pieces separator cs).getLast?.any (fun piece => piece.getLast?.any p) =
      cs.getLast?.any p := by
  induction cs with
  | nil => rfl
  | cons c rest ih =>
    rw [pieces]
    split
    · rename_i hc
      rw [List.getLast?_cons_of_ne_nil (pieces_ne_nil separator rest), ih]
      cases rest with
      | nil => simp [hc, hp]
      | cons d tail => rw [List.getLast?_cons_cons]
    · have hjoin := joinPieces_pieces separator rest
      cases hrest : pieces separator rest with
      | nil => exact absurd hrest (pieces_ne_nil separator rest)
      | cons piece others =>
        rw [hrest] at ih hjoin
        cases others with
        | nil =>
          have hpiece : piece = rest := hjoin
          simp [hpiece]
        | cons other others =>
          have hne : rest ≠ [] := by
            rw [← hjoin, joinPieces.eq_3 _ _ _ (List.cons_ne_nil _ _)]
            simp
          rw [List.getLast?_cons_cons, ← List.getLast?_cons_cons (a := piece), ih,
            List.getLast?_cons_of_ne_nil hne]

end Text

/-! ### Sizes -/

theorem utf8Size_eq_one_of_isLowerOrDigit {c : Char} (h : isLowerOrDigit c = true) :
    c.utf8Size = 1 := by
  have hlower : c.isLower = true → c.val ≤ 'z'.val := fun hc =>
    of_decide_eq_true (Bool.and_eq_true_iff.1 hc).2
  have hdigit : c.isDigit = true → c.val ≤ '9'.val := fun hc =>
    of_decide_eq_true (Bool.and_eq_true_iff.1 hc).2
  rw [isLowerOrDigit, Bool.or_eq_true] at h
  rw [Char.utf8Size_eq_one_iff, UInt32.le_iff_toNat_le]
  rcases h with h | h
  · exact Nat.le_trans (UInt32.le_iff_toNat_le.1 (hlower h)) (by decide)
  · exact Nat.le_trans (UInt32.le_iff_toNat_le.1 (hdigit h)) (by decide)

/-- A text of characters of one byte has as many bytes as characters. -/
theorem utf8Len_eq_length {cs : List Char} (h : ∀ c ∈ cs, c.utf8Size = 1) :
    String.utf8Len cs = cs.length := by
  induction cs with
  | nil => rfl
  | cons c rest ih =>
    obtain ⟨hc, hrest⟩ := List.forall_mem_cons.1 h
    rw [String.utf8Len, ih hrest, hc, List.length_cons]

theorem utf8ByteSize_eq_length {text : String} (h : ∀ c ∈ text.toList, c.utf8Size = 1) :
    text.utf8ByteSize = text.length := by
  rw [← String.length_toList, ← utf8Len_eq_length h, ← String.utf8ByteSize_ofList,
    String.ofList_toList]

namespace ConstraintName

/-! ### Labels -/

/-- A label: lower-case letters, digits and hyphens, with a letter or digit at both ends. -/
structure IsLabel (label : List Char) : Prop where
  legible : ∀ c ∈ label, isLowerOrDigit c = true ∨ c = '-'
  begins : label.head?.any isLowerOrDigit = true
  ends : label.getLast?.any isLowerOrDigit = true

/-- A subdomain: at most 253 characters, and one or more labels with single dots between them. -/
structure IsSubdomain (text : String) : Prop where
  length_le : text.length ≤ 253
  labels : ∃ labels ≠ [], (∀ label ∈ labels, IsLabel label) ∧
    text.toList = Text.joinPieces '.' labels

/-- Labels of letters, digits and hyphens of which the first begins and the last ends with a letter
or digit, whatever stands at the other ends. -/
structure EndsProperly (labels : List (List Char)) : Prop where
  legible : ∀ label ∈ labels, ∀ c ∈ label, isLowerOrDigit c = true ∨ c = '-'
  begins : labels.head?.any (fun label => label.head?.any isLowerOrDigit) = true
  ends : labels.getLast?.any (fun label => label.getLast?.any isLowerOrDigit) = true

theorem IsLabel.dot_notMem {label : List Char} (h : IsLabel label) : '.' ∉ label := fun hmem =>
  absurd (h.legible '.' hmem) (by decide)

theorem EndsProperly.of_isLabel {labels : List (List Char)} (hne : labels ≠ [])
    (h : ∀ label ∈ labels, IsLabel label) : EndsProperly labels where
  legible label hlabel := (h label hlabel).legible
  begins := by
    rw [List.head?_eq_some_head hne]
    exact (h _ (List.head_mem hne)).begins
  ends := by
    rw [List.getLast?_eq_some_getLast hne]
    exact (h _ (List.getLast_mem hne)).ends

variable {text : String}

/-- The labels of a subdomain are what is left when it is cut at its dots. -/
theorem isSubdomain_iff :
    IsSubdomain text ↔
      text.length ≤ 253 ∧ ∀ label ∈ Text.pieces '.' text.toList, IsLabel label := by
  constructor
  · rintro ⟨hlength, labels, hne, hlabels, htext⟩
    rw [htext, Text.pieces_joinPieces hne fun label hlabel => (hlabels label hlabel).dot_notMem]
    exact ⟨hlength, hlabels⟩
  · rintro ⟨hlength, hlabels⟩
    exact ⟨hlength, _, Text.pieces_ne_nil _ _, hlabels, (Text.joinPieces_pieces _ _).symm⟩

/-- A text is accepted if it has at most 253 characters and its labels end properly. -/
theorem accepts_iff :
    accepts text = true ↔
      text.length ≤ 253 ∧ EndsProperly (Text.pieces '.' text.toList) := by
  have hchars : text.toList.all (fun c => isLowerOrDigit c || c == '-' || c == '.') = true ↔
      ∀ label ∈ Text.pieces '.' text.toList, ∀ c ∈ label, isLowerOrDigit c = true ∨ c = '-' := by
    rw [Text.forall_mem_pieces_iff, List.all_eq_true]
    simp only [Bool.or_eq_true, beq_iff_eq]
    exact forall₂_congr fun c _ => or_comm
  have hdot : isLowerOrDigit '.' = false := rfl
  have hbegins := Text.any_head?_pieces hdot text.toList
  have hends := Text.any_getLast?_pieces hdot text.toList
  -- bytes are characters only once the characters are known
  have hsize : text.toList.all (fun c => isLowerOrDigit c || c == '-' || c == '.') = true →
      text.utf8ByteSize = text.length := fun hall =>
    utf8ByteSize_eq_length fun c hc => by
      have h := List.all_eq_true.1 hall c hc
      simp only [Bool.or_eq_true, beq_iff_eq, or_assoc] at h
      rcases h with h | rfl | rfl
      · exact utf8Size_eq_one_of_isLowerOrDigit h
      · rfl
      · rfl
  simp only [accepts, Bool.and_eq_true, decide_eq_true_eq]
  constructor
  · rintro ⟨⟨⟨hle, hall⟩, hhead⟩, hlast⟩
    exact ⟨hsize hall ▸ hle, hchars.1 hall, hbegins.trans hhead, hends.trans hlast⟩
  · rintro ⟨hle, hlegible, hhead, hlast⟩
    have hall := hchars.2 hlegible
    exact ⟨⟨⟨hsize hall ▸ hle, hall⟩, hbegins.symm.trans hhead⟩, hends.symm.trans hlast⟩

theorem exists_ofString_iff_accepts :
    (∃ name, ofString text = .ok name ∧ name.text = text) ↔ accepts text = true := by
  rw [ofString]
  split
  · rename_i h
    exact iff_of_true ⟨_, rfl, rfl⟩ h
  · rename_i h
    refine iff_of_false ?_ h
    rintro ⟨name, hname, -⟩
    cases hname

/-- **The constraint names.** A text is a constraint name if it has at most 253 characters, is made
of labels of lower-case letters, digits and hyphens with single dots between them, and begins and
ends with a letter or digit. The names that are subdomains are those each of whose labels begins
and ends so too, and every subdomain is a name. -/
theorem exists_ofString_eq_ok_iff (text : String) :
    ((∃ name, ofString text = .ok name ∧ name.text = text) ↔
      text.length ≤ 253 ∧ EndsProperly (Text.pieces '.' text.toList)) ∧
    (IsSubdomain text ↔
      (∃ name, ofString text = .ok name ∧ name.text = text) ∧
        ∀ label ∈ Text.pieces '.' text.toList, IsLabel label) := by
  rw [exists_ofString_iff_accepts, accepts_iff, isSubdomain_iff]
  refine ⟨Iff.rfl, ?_⟩
  constructor
  · rintro ⟨hlength, hlabels⟩
    exact ⟨⟨hlength, .of_isLabel (Text.pieces_ne_nil _ _) hlabels⟩, hlabels⟩
  · rintro ⟨⟨hlength, -⟩, hlabels⟩
    exact ⟨hlength, hlabels⟩

/-- Two dots in a row make a name that is no subdomain: the label between them is empty. -/
theorem exists_ofString_consecutive_dots :
    (∃ name, ofString "a..b" = .ok name ∧ name.text = "a..b") ∧ ¬IsSubdomain "a..b" := by
  rw [exists_ofString_iff_accepts, isSubdomain_iff]
  refine ⟨by decide +kernel, fun h => ?_⟩
  have hlabel : IsLabel [] := h.2 [] (by decide +kernel)
  exact absurd hlabel.begins (by decide)

end ConstraintName

end PolicyEngine
