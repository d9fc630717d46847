import Mathlib.Data.List.Basic
import PolicyEngine.Json.Pointer
import PolicyEngine.Proofs.SortedMap

/-!
# The text of pointers

The text of a pointer is the one that the grammar of JSON pointers has for its steps: each step
follows a slash, and within a step a tilde is followed by a digit that says which character is
meant. Reading the text gives the steps back, whichever characters they have. A pointer is written
step by step, by replacing first the tildes of a step and then its slashes.

## Main definitions

* `PolicyEngine.Pointer.Spells`, `PolicyEngine.Pointer.Denotes` — the grammar of pointers.
* `PolicyEngine.Pointer.substitute` — a text with one character replaced.

## Main results

* `PolicyEngine.Pointer.denotes_iff` — the grammar has one text for every pointer.
* `PolicyEngine.Pointer.parse?_render` — the text of a pointer is read back.
* `PolicyEngine.Pointer.render_concat` — a text is extended by a step.
* `PolicyEngine.Pointer.index?_toString` — the decimal text of a position denotes it.
* `PolicyEngine.Json.at?_render`, `PolicyEngine.Pointer.resolve?_append` — where a text leads.
-/

namespace PolicyEngine

namespace Pointer

/-! ### The grammar -/

/-- A text that stands for a step: in it tildes are followed by a digit, and there are no
slashes. -/
inductive Spells : List Char → List Char → Prop where
  | nil : Spells [] []
  | tilde {text step : List Char} (h : Spells text step) :
      Spells ('~' :: '0' :: text) ('~' :: step)
  | slash {text step : List Char} (h : Spells text step) :
      Spells ('~' :: '1' :: text) ('/' :: step)
  | char {c : Char} {text step : List Char} (htilde : c ≠ '~') (hslash : c ≠ '/')
      (h : Spells text step) : Spells (c :: text) (c :: step)

/-- A text that stands for a pointer: its steps, each of which follows a slash. -/
inductive Denotes : List Char → Pointer → Prop where
  | whole : Denotes [] []
  | step {text rest : List Char} {step : String} {p : Pointer} (hstep : Spells text step.toList)
      (h : Denotes rest p) : Denotes ('/' :: (text ++ rest)) (step :: p)

theorem escape_cons {c : Char} (htilde : c ≠ '~') (hslash : c ≠ '/') (cs : List Char) :
    escape (c :: cs) = c :: escape cs :=
  escape.eq_4 c cs htilde hslash

theorem spells_escape (cs : List Char) : Spells (escape cs) cs := by
  induction cs with
  | nil => exact .nil
  | cons c rest ih =>
    by_cases htilde : c = '~'
    · subst htilde
      exact .tilde ih
    · by_cases hslash : c = '/'
      · subst hslash
        exact .slash ih
      · rw [escape_cons htilde hslash]
        exact .char htilde hslash ih

/-- The grammar has one text for every step. -/
theorem spells_iff {text step : List Char} : Spells text step ↔ text = escape step := by
  constructor
  · intro h
    induction h with
    | nil => rfl
    | tilde _ ih => rw [ih, escape]
    | slash _ ih => rw [ih, escape]
    | char htilde hslash _ ih => rw [ih, escape_cons htilde hslash]
  · rintro rfl
    exact spells_escape step

/-- The text of a step behind its slash. -/
def stepText (step : String) : List Char := '/' :: escape step.toList

theorem toList_render (p : Pointer) : p.render.toList = p.flatMap stepText := by
  rw [render, String.toList_join, List.flatMap_map]
  refine List.flatMap_congr fun step _ => ?_
  rw [String.toList_append, String.toList_ofList (l := escape step.toList)]
  rfl

/-- The grammar has one text for every pointer. -/
theorem denotes_iff {text : List Char} {p : Pointer} : Denotes text p ↔ text = p.render.toList := by
  rw [toList_render]
  constructor
  · intro h
    induction h with
    | whole => rfl
    | step hstep _ ih => rw [spells_iff.1 hstep, ih, List.flatMap_cons, stepText, List.cons_append]
  · rintro rfl
    induction p with
    | nil => exact .whole
    | cons step p ih => exact .step (spells_escape step.toList) ih

/-! ### Extending a text -/

/-- A text with every occurrence of a character replaced. -/
def substitute (c : Char) (text cs : List Char) : List Char :=
  cs.flatMap fun d => if d = c then text else [d]

/-- Tildes are replaced first, so that those which stand for slashes stay as they are. -/
theorem escape_eq_substitute (cs : List Char) :
    escape cs = substitute '/' ['~', '1'] (substitute '~' ['~', '0'] cs) := by
  induction cs with
  | nil => rfl
  | cons c rest ih =>
    by_cases htilde : c = '~'
    · subst htilde
      rw [escape, ih]
      rfl
    · by_cases hslash : c = '/'
      · subst hslash
        rw [escape, ih]
        rfl
      · rw [escape_cons htilde hslash, ih]
        simp [substitute, htilde, hslash]

theorem render_append (p q : Pointer) : render (p ++ q) = render p ++ render q :=
  String.toList_injective (by simp only [toList_render, String.toList_append, List.flatMap_append])

/-- The text of a pointer is extended by a slash and a step in which first the tildes are replaced
and then the slashes. -/
theorem render_concat (p : Pointer) (step : String) :
    render (p ++ [step]) = render p ++ "/" ++
      String.ofList (substitute '/' ['~', '1'] (substitute '~' ['~', '0'] step.toList)) := by
  rw [render_append, ← escape_eq_substitute, String.append_assoc]
  exact congrArg (render p ++ ·) (String.toList_injective (by
    rw [toList_render, List.flatMap_singleton, stepText, String.toList_append,
      String.toList_ofList (l := escape step.toList)]
    rfl))

/-! ### Reading a text -/

theorem slash_notMem_escape (cs : List Char) : '/' ∉ escape cs := by
  have h : ∀ {text step : List Char}, Spells text step → '/' ∉ text := by
    intro text step h
    induction h with
    | nil => simp
    | tilde _ ih => simpa using ih
    | slash _ ih => simpa using ih
    | char _ hslash _ ih => simpa using ⟨Ne.symm hslash, ih⟩
  exact h (spells_escape cs)

/-- The pieces of a text between slashes are the texts of its steps. -/
theorem pieces_stepTexts (step : String) (p : Pointer) :
    Text.pieces '/' (escape step.toList ++ p.flatMap stepText) =
      (step :: p).map fun step => escape step.toList := by
  induction p generalizing step with
  | nil =>
    rw [List.flatMap_nil, List.append_nil, Text.pieces_of_notMem (slash_notMem_escape _)]
    rfl
  | cons next p ih =>
    rw [List.flatMap_cons, stepText, List.cons_append,
      Text.pieces_append_separator (slash_notMem_escape _), ih]
    rfl

/-- The text of a pointer is read back as the pointer. -/
theorem parse?_render (p : Pointer) : parse? p.render = some p := by
  rw [parse?, toList_render]
  cases p with
  | nil => rfl
  | cons step p =>
    rw [List.flatMap_cons, stepText, List.cons_append]
    simp only [Option.some.injEq]
    rw [pieces_stepTexts, List.map_map]
    have hstep : (fun step => String.ofList (unescape step)) ∘ (fun step : String =>
        escape step.toList) = id := by
      funext step
      rw [Function.comp_apply, unescape_escape, String.ofList_toList]
      rfl
    rw [hstep, List.map_id]

/-! ### Positions -/

/-- No position but the first is written with a leading zero. -/
theorem head?_toDigits_ne_zero {i : Nat} (h : 0 < i) :
    (Nat.toDigits 10 i).head? ≠ some '0' := by
  induction i using Nat.strongRecOn with
  | ind i ih =>
    by_cases hsmall : i < 10
    · rw [Nat.toDigits_of_lt_base hsmall, List.head?_cons]
      have hdigit : ∀ n < 10, 0 < n → some n.digitChar ≠ some '0' := by decide
      exact hdigit i hsmall h
    · have hlarge : 10 ≤ i := Nat.le_of_not_lt hsmall
      rw [Nat.toDigits_of_base_le (by decide) hlarge,
        List.head?_append_of_ne_nil _ Nat.toDigits_ne_nil]
      exact ih (i / 10) (by omega) (by omega)

/-- The decimal text of a position denotes it. -/
theorem index?_toString (i : Nat) : index? (toString i) = some i := by
  have hvalue : (Nat.toDigits 10 i).foldl (fun n d => 10 * n + (d.toNat - '0'.toNat)) 0 = i := by
    rw [← Nat.ofDigitChars_eq_foldl, Nat.ofDigitChars_ten_toDigits]
  have hdigits : (Nat.toDigits 10 i).all Char.isDigit = true :=
    List.all_eq_true.2 fun c hc => Nat.isDigit_of_mem_toDigits (by decide) (by decide) hc
  rw [index?, Nat.toString_eq_ofList_toDigits, String.toList_ofList]
  split
  · rename_i hnil
    exact absurd hnil Nat.toDigits_ne_nil
  · rename_i hzero
    rw [← hvalue, hzero]
    rfl
  · rename_i rest hrest hzero
    have hpositive : 0 < i := by
      rcases Nat.eq_zero_or_pos i with rfl | hpositive
      · exact (hrest (List.cons.inj hzero).2.symm).elim
      · exact hpositive
    refine absurd ?_ (head?_toDigits_ne_zero hpositive)
    rw [hzero]
    rfl
  · rw [if_pos hdigits, hvalue]

/-! ### Parts of documents -/

theorem resolve?_append (p q : Pointer) (v : Json) :
    resolve? (p ++ q) v = (resolve? p v).bind (resolve? q) := by
  induction p generalizing v with
  | nil => rfl
  | cons step p ih =>
    rw [List.cons_append, resolve?, resolve?, Option.bind_assoc]
    exact congrArg (Option.bind _) (funext ih)

end Pointer

namespace Json

/-- The text of a pointer leads where the pointer does. -/
theorem at?_render (p : Pointer) (v : Json) : v.at? p.render = p.resolve? v := by
  rw [at?, Pointer.parse?_render, Option.bind_some]

theorem canonicalMembers_iff {members : List (String × Json)} :
    CanonicalMembers members ↔ ∀ m ∈ members, m.2.Canonical := by
  induction members with
  | nil => exact iff_of_true trivial (List.forall_mem_nil _)
  | cons m rest ih => rw [CanonicalMembers, List.forall_mem_cons, ih]

theorem canonicalElements_iff {elements : List Json} :
    CanonicalElements elements ↔ ∀ v ∈ elements, v.Canonical := by
  induction elements with
  | nil => exact iff_of_true trivial (List.forall_mem_nil _)
  | cons v rest ih => rw [CanonicalElements, List.forall_mem_cons, ih]

/-- The members of a canonical object are found under their names. -/
theorem Canonical.get?_eq_some_iff {members : List (String × Json)}
    (h : (Json.obj members).Canonical) {name : String} {value : Json} :
    Assoc.get? name members = some value ↔ (name, value) ∈ members :=
  Assoc.get?_eq_some_iff (SortedMap.nodup_keys ⟨members, h.1⟩)

theorem Canonical.of_mem_members {members : List (String × Json)}
    (h : (Json.obj members).Canonical) {m : String × Json} (hm : m ∈ members) : m.2.Canonical :=
  canonicalMembers_iff.1 h.2 m hm

theorem Canonical.of_mem_elements {elements : List Json} (h : (Json.arr elements).Canonical)
    {v : Json} (hv : v ∈ elements) : v.Canonical :=
  canonicalElements_iff.1 h v hv

/-- Names that read like positions, and names with tildes and slashes, lead to their members. -/
example :
    let corridor := Json.obj [("", .obj [("~1/", .arr [.str "hall", .obj [("01", .null)]])])]
    (corridor.at? "//~01~1/1/01").isSome = true ∧ (corridor.at? "//~01~1/01").isSome = false := by
  decide +kernel

end Json

end PolicyEngine
