import Mathlib.Data.List.Infix
import PolicyEngine.Target.Admission
import PolicyEngine.Target.Document

/-!
# Where targets keep objects

The built-in targets are those of admission requests and of documents. Each keeps the objects
themselves, at paths none of which begins another: the paths of documents are equally long, and
those of admission requests are told apart by their first name, which also fixes their length.

## Main definitions

* `PolicyEngine.Target.BuiltIn` — the targets that the engine comes with.
* `PolicyEngine.Target.KeepsApart` — objects are kept as they are, at paths that do not meet.

## Main results

* `PolicyEngine.Target.BuiltIn.keepsApart` — the built-in targets keep objects apart.
-/

namespace PolicyEngine

namespace Target

/-- The target is that of admission requests, or that of documents under some name. -/
inductive BuiltIn : Target → Prop
  | admission : BuiltIn Admission.target
  | document (name : TargetName) : BuiltIn (Document.target name)

/-- Objects are kept as they are, at paths that are not empty and of which none begins another. -/
structure KeepsApart (target : Target) : Prop where
  value_eq : ∀ {v e}, target.dataEntry? v = some e → e.value = v
  path_ne_nil : ∀ {v e}, target.dataEntry? v = some e → e.path ≠ []
  eq_of_prefix : ∀ {v v' e e'}, target.dataEntry? v = some e → target.dataEntry? v' = some e' →
    e.path <+: e'.path → e.path = e'.path

end Target

namespace Admission

/-- An object of the cluster is kept at a path of four names, one of a namespace at a path of
five. -/
theorem dataEntry?_eq_some {v : Json} {e : DataEntry} (h : dataEntry? v = some e) :
    e.value = v ∧ ((∃ apiVersion kind name, e.path = ["cluster", apiVersion, kind, name]) ∨
      ∃ ns apiVersion kind name, e.path = ["namespace", ns, apiVersion, kind, name]) := by
  obtain ⟨apiVersion, -, h⟩ := Option.bind_eq_some_iff.1 h
  obtain ⟨kind, -, h⟩ := Option.bind_eq_some_iff.1 h
  obtain ⟨metadata, -, h⟩ := Option.bind_eq_some_iff.1 h
  obtain ⟨name, -, h⟩ := Option.bind_eq_some_iff.1 h
  rw [← Option.some.inj h]
  refine ⟨rfl, ?_⟩
  dsimp only
  split
  · exact .inl ⟨apiVersion, kind, name, rfl⟩
  · exact .inr ⟨_, apiVersion, kind, name, rfl⟩

theorem keepsApart : target.KeepsApart where
  value_eq h := (dataEntry?_eq_some h).1
  path_ne_nil h := by
    rcases (dataEntry?_eq_some h).2 with ⟨_, _, _, hpath⟩ | ⟨_, _, _, _, hpath⟩ <;> simp [hpath]
  eq_of_prefix {v v' e e'} h h' hprefix := by
    refine hprefix.eq_of_length ?_
    rcases (dataEntry?_eq_some h).2 with ⟨_, _, _, hpath⟩ | ⟨_, _, _, _, hpath⟩ <;>
      rcases (dataEntry?_eq_some h').2 with ⟨_, _, _, hpath'⟩ | ⟨_, _, _, _, hpath'⟩ <;>
      rw [hpath, hpath'] at hprefix ⊢
    -- Paths of different lengths differ in their first name.
    all_goals simp at hprefix ⊢

end Admission

namespace Document

/-- Objects are kept at paths of two names. -/
theorem dataEntry?_eq_some {v : Json} {e : DataEntry} (h : dataEntry? v = some e) :
    e.value = v ∧ ∃ kind name, e.path = [kind, name] := by
  obtain ⟨kind, -, h⟩ := Option.bind_eq_some_iff.1 h
  obtain ⟨name, -, h⟩ := Option.bind_eq_some_iff.1 h
  rw [← Option.some.inj h]
  exact ⟨rfl, kind, name, rfl⟩

theorem keepsApart (name : TargetName) : (target name).KeepsApart where
  value_eq h := (dataEntry?_eq_some h).1
  path_ne_nil h := by
    obtain ⟨-, kind, name, hpath⟩ := dataEntry?_eq_some h
    simp [hpath]
  eq_of_prefix h h' hprefix := by
    obtain ⟨-, kind, name, hpath⟩ := dataEntry?_eq_some h
    obtain ⟨-, kind', name', hpath'⟩ := dataEntry?_eq_some h'
    refine hprefix.eq_of_length ?_
    rw [hpath, hpath']
    rfl

end Document

/-- The built-in targets keep objects apart. -/
theorem Target.BuiltIn.keepsApart {target : Target} (h : target.BuiltIn) : target.KeepsApart := by
  cases h with
  | admission => exact Admission.keepsApart
  | document name => exact Document.keepsApart name

end PolicyEngine
