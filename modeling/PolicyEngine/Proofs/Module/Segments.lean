import PolicyEngine.Proofs.Module.Nesting
import PolicyEngine.Proofs.RuleText.Bytes

/-!
# The order of modules

The nesting of modules is that of their segments. Whether one stands strictly beneath another can be
told from the bytes of both paths: the longer begins with the shorter and has a dot behind it, at a
byte that it has because it is longer. So modules are ordered by covering, and those above a module
stand beneath one another.

## Main definitions

* `PolicyEngine.ModuleId.isWithinBytes` — strict nesting, told from the bytes.

## Main results

* `PolicyEngine.ModuleId.isWithin_eq_isWithinBytes` — the bytes tell the nesting of paths.
* `PolicyEngine.ModuleId.isWithin_iff` — strict nesting is a proper prefix of segments.
* `PolicyEngine.ModuleId.covers_order` — modules are ordered by covering.
-/

namespace PolicyEngine

namespace ModuleId

open RuleText

/-! ### Bytes of paths -/

/-- Whether a module is nested strictly beneath another, by the bytes of both paths. The byte that
has to be a dot is one of the longer path. -/
def isWithinBytes (id parent : ModuleId) : Bool :=
  if h : (bytes parent.path).length < (bytes id.path).length then
    (bytes parent.path).isPrefixOf (bytes id.path) &&
      (bytes id.path)[(bytes parent.path).length] == '.'.toUInt8
  else false

/-- A list begins with another and one more element if it is longer, begins with the other, and has
the element behind it. -/
theorem append_singleton_prefix_iff {l m : List UInt8} {b : UInt8} :
    l ++ [b] <+: m ↔ ∃ h : l.length < m.length, l <+: m ∧ m[l.length] = b := by
  constructor
  · rintro ⟨rest, rfl⟩
    refine ⟨by simp, ⟨[b] ++ rest, (List.append_assoc _ _ _).symm⟩, ?_⟩
    simp
  · rintro ⟨h, ⟨rest, rfl⟩, rfl⟩
    cases rest with
    | nil => simp at h
    | cons c rest => exact ⟨rest, by simp⟩

/-- The bytes tell the nesting of paths. -/
theorem isWithin_eq_isWithinBytes (id parent : ModuleId) :
    id.isWithin parent = id.isWithinBytes parent := by
  have hdot : bytes parent.path ++ ['.'.toUInt8] = encode (parent.path.toList ++ ['.']) := by
    rw [bytes_eq_encode, encode_append]
    rfl
  rw [Bool.eq_iff_iff, isWithin, List.isPrefixOf_iff_prefix, ← encode_prefix_iff, ← hdot,
    ← bytes_eq_encode, append_singleton_prefix_iff, isWithinBytes]
  split
  · rename_i h
    rw [Bool.and_eq_true, List.isPrefixOf_iff_prefix, beq_iff_eq]
    constructor
    · rintro ⟨_, hprefix⟩
      exact hprefix
    · exact fun hprefix => ⟨h, hprefix⟩
  · rename_i h
    refine iff_of_false ?_ Bool.false_ne_true
    rintro ⟨hlt, -⟩
    exact h hlt

/-! ### Segments -/

theorem isWithin_irrefl (id : ModuleId) : id.isWithin id = false := by
  rw [isWithin_eq_isWithinBytes, isWithinBytes, dif_neg (Nat.lt_irrefl _)]

/-- Strict nesting is a proper prefix of segments. -/
theorem isWithin_iff {id parent : ModuleId} :
    id.isWithin parent = true ↔
      parent.segments <+: id.segments ∧ parent.segments ≠ id.segments := by
  rw [← covers_iff, covers, Bool.or_eq_true, beq_iff_eq]
  constructor
  · intro h
    refine ⟨.inr h, fun heq => ?_⟩
    rw [segments_injective heq, isWithin_irrefl] at h
    cases h
  · rintro ⟨heq | h, hne⟩
    · exact absurd (congrArg segments heq) hne
    · exact h

/-- **The order of modules.** A module covers another if and only if its segments begin those of the
other, and has it strictly beneath it if they are not all of them, which the bytes of the paths
tell. So covering is an order of modules, in which those that cover a module are comparable. -/
theorem covers_order (a b : ModuleId) :
    (a.covers b = true ↔ a.segments <+: b.segments) ∧
      (b.isWithin a = true ↔ a.segments <+: b.segments ∧ a.segments ≠ b.segments) ∧
      b.isWithin a = b.isWithinBytes a ∧
      a.covers a = true ∧
      (a.covers b = true → b.covers a = true → a = b) ∧
      (∀ c, a.covers b = true → b.covers c = true → a.covers c = true) ∧
      ∀ c, a.covers c = true → b.covers c = true → a.covers b = true ∨ b.covers a = true :=
  ⟨covers_iff, isWithin_iff, isWithin_eq_isWithinBytes b a, covers_refl a, covers_antisymm,
    fun _ => covers_trans, fun _ => covers_total⟩

end ModuleId

end PolicyEngine
