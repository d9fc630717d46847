/-!
# Pieces of a text

Cutting a text at every occurrence of a separator, and joining the pieces again.

## Main definitions

* `PolicyEngine.Text.pieces` — the parts between separators, one more than there are separators.
* `PolicyEngine.Text.joinPieces` — the text with the separator between the pieces.

## Main results

* `PolicyEngine.Text.joinPieces_pieces`, `PolicyEngine.Text.pieces_joinPieces` — the two undo each
  other on pieces without the separator.
-/

namespace PolicyEngine.Text

/-- The parts of a text between occurrences of a separator. -/
def pieces (separator : Char) : List Char → List (List Char)
  | [] => [[]]
  | c :: rest =>
    if c = separator then [] :: pieces separator rest
    else
      match pieces separator rest with
      | [] => [[c]]
      | piece :: others => (c :: piece) :: others

/-- The text of pieces with a separator between them. -/
def joinPieces (separator : Char) : List (List Char) → List Char
  | [] => []
  | [piece] => piece
  | piece :: others => piece ++ separator :: joinPieces separator others

theorem pieces_ne_nil (separator : Char) (cs : List Char) : pieces separator cs ≠ [] := by
  cases cs with
  | nil => simp [pieces]
  | cons c rest =>
    rw [pieces]
    split
    · simp
    · split <;> simp

theorem joinPieces_pieces (separator : Char) (cs : List Char) :
    joinPieces separator (pieces separator cs) = cs := by
  induction cs with
  | nil => rfl
  | cons c rest ih =>
    rw [pieces]
    split
    · rename_i h
      subst h
      match hp : pieces c rest with
      | [] => exact absurd hp (pieces_ne_nil c rest)
      | piece :: others => simp [joinPieces, ← hp, ih]
    · split
      · rename_i hp
        exact absurd hp (pieces_ne_nil separator rest)
      · rename_i piece others hp
        rw [hp] at ih
        cases others with
        | nil => simpa [joinPieces] using ih
        | cons p ps => simpa [joinPieces] using ih

theorem pieces_of_notMem {separator : Char} {cs : List Char} (h : separator ∉ cs) :
    pieces separator cs = [cs] := by
  induction cs with
  | nil => rfl
  | cons c rest ih =>
    have hc : c ≠ separator := fun hc => h (hc ▸ List.mem_cons_self)
    rw [pieces, if_neg hc, ih fun hm => h (List.mem_cons_of_mem _ hm)]

theorem pieces_append_separator {separator : Char} {cs : List Char} (h : separator ∉ cs)
    (rest : List Char) : pieces separator (cs ++ separator :: rest) = cs :: pieces separator rest := by
  induction cs with
  | nil => simp [pieces]
  | cons c tail ih =>
    have hc : c ≠ separator := fun hc => h (hc ▸ List.mem_cons_self)
    rw [List.cons_append, pieces, if_neg hc, ih fun hm => h (List.mem_cons_of_mem _ hm)]

/-- Pieces without the separator are found again in their joined text. -/
theorem pieces_joinPieces {separator : Char} {ps : List (List Char)} (hne : ps ≠ [])
    (h : ∀ p ∈ ps, separator ∉ p) : pieces separator (joinPieces separator ps) = ps := by
  induction ps with
  | nil => exact absurd rfl hne
  | cons p rest ih =>
    cases rest with
    | nil => exact pieces_of_notMem (h p List.mem_cons_self)
    | cons q qs =>
      rw [joinPieces.eq_3 _ _ _ (by simp), pieces_append_separator (h p List.mem_cons_self),
        ih (by simp) fun r hr => h r (List.mem_cons_of_mem _ hr)]

end PolicyEngine.Text
