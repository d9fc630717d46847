import Mathlib.Data.List.Nodup
import PolicyEngine.Proofs.Cache.Considered
import PolicyEngine.Proofs.Cache.Entries

/-!
# The cache as a list of constraints

A roster is a cache without its indexes: a list of templates, and a list of constraints under their
keys with their statuses. Its operations are the plain ones on lists. A new constraint goes to the
end, one of a known key takes the place of the old one and comes into force, a removal deletes, and
the installation or removal of a template changes statuses. After any operations a cache shows what
the roster says: the same constraints in the same order with the same statuses, the same templates,
and the same counts.

## Main definitions

* `PolicyEngine.Cache.Line` — a constraint under its key, with its status.
* `PolicyEngine.Cache.Roster`, `PolicyEngine.Cache.Roster.perform`, `PolicyEngine.Cache.Roster.run`.
* `PolicyEngine.Cache.Shows` — a cache has the constraints and templates of a roster.

## Main results

* `PolicyEngine.Cache.Shows.perform`, `PolicyEngine.Cache.Shows.run` — operations on the cache are
  operations on the roster.
* `PolicyEngine.Cache.constraints_run` — what a cache shows after any operations.
-/

namespace PolicyEngine.Cache

/-! ### Rosters -/

/-- A constraint under its key, with its status. -/
structure Line where
  key : ConstraintKey
  constraint : Constraint
  status : ConstraintStatus

/-- What a list says of a constraint in the cache. -/
def lineOf (entry : ConstraintEntry) : Line :=
  ⟨entry.constraint.key, entry.constraint, entry.status⟩

theorem lineOf_restate (status : ConstraintStatus) (p : ConstraintEntry → Bool)
    (entry : ConstraintEntry) : lineOf (restate status p entry) =
      if p entry then { lineOf entry with status } else lineOf entry := by
  rw [restate]
  split <;> rfl

/-- Templates and constraints as plain lists, the constraints in the order of first addition. -/
structure Roster where
  templates : List CompiledTemplate := []
  lines : List Line := []

namespace Roster

/-- The template of a kind. -/
def template? (roster : Roster) (kind : TemplateKind) : Option CompiledTemplate :=
  roster.templates.find? (·.kind = kind)

/-- The constraint of a key. -/
def line? (roster : Roster) (key : ConstraintKey) : Option Line :=
  roster.lines.find? (·.key = key)

/-- A template takes the place of the one of its kind. Orphans of the kind that satisfy its schema
come back into force. -/
def installTemplate (roster : Roster) (compiled : CompiledTemplate) : Roster where
  templates := compiled :: roster.templates.filter (·.kind ≠ compiled.kind)
  lines := roster.lines.map fun line =>
    if line.key.kind = compiled.kind ∧ line.status = .orphaned ∧
        (compiled.schema.validate line.constraint).toBool
    then { line with status := .active } else line

/-- What becomes of the constraints of a kind without a template: they are deleted, or they become
orphans. -/
def orphan (policy : OrphanPolicy) (kind : TemplateKind) (lines : List Line) : List Line :=
  match policy with
  | .cascade => lines.filter (·.key.kind ≠ kind)
  | .retain => lines.map fun line =>
    if line.key.kind = kind then { line with status := .orphaned } else line

/-- The template of a kind goes, if there is one, and its constraints are dealt with. -/
def removeTemplate (policy : OrphanPolicy) (roster : Roster) (kind : TemplateKind) : Roster :=
  if (roster.template? kind).isSome then {
    templates := roster.templates.filter (·.kind ≠ kind)
    lines := orphan policy kind roster.lines }
  else roster

/-- A line takes the place of the one of its key, or else goes to the end. -/
def put (lines : List Line) (line : Line) : List Line :=
  if lines.any (·.key = line.key) then
    lines.map fun old => if old.key = line.key then line else old
  else lines ++ [line]

/-- A constraint is put down in force, provided that its template is there and it satisfies the
schema. -/
def upsertConstraint (roster : Roster) (c : Constraint) : Roster :=
  match roster.template? c.kind with
  | none => roster
  | some compiled =>
    if (compiled.schema.validate c).toBool then
      { roster with lines := put roster.lines ⟨c.key, c, .active⟩ }
    else roster

/-- The constraint of a key is deleted. -/
def removeConstraint (roster : Roster) (key : ConstraintKey) : Roster :=
  { roster with lines := roster.lines.filter (·.key ≠ key) }

/-- The roster after an update. -/
def perform (roster : Roster) : Operation → Roster
  | .installTemplate compiled => roster.installTemplate compiled
  | .removeTemplate policy kind => removeTemplate policy roster kind
  | .upsertConstraint c => roster.upsertConstraint c
  | .removeConstraint key => roster.removeConstraint key
  | .clear => {}

/-- The roster after updates, one after another. -/
def run (roster : Roster) (operations : List Operation) : Roster :=
  operations.foldl perform roster

/-! ### Templates of a roster -/

theorem find?_filter_kind (templates : List CompiledTemplate) (kind k : TemplateKind) :
    (templates.filter (·.kind ≠ kind)).find? (·.kind = k) =
      if k = kind then none else templates.find? (·.kind = k) := by
  rw [List.find?_filter]
  split
  · rename_i hk
    refine List.find?_eq_none.2 fun compiled _ => ?_
    simp [hk]
  · rename_i hk
    refine congrArg (List.find? · templates) (funext fun compiled => ?_)
    by_cases hkind : compiled.kind = k <;> simp [hkind, hk]

theorem nodup_filter {templates : List CompiledTemplate} (p : CompiledTemplate → Bool)
    (h : (templates.map (·.kind)).Nodup) : ((templates.filter p).map (·.kind)).Nodup :=
  h.sublist (List.filter_sublist.map _)

theorem mem_templates_iff {roster : Roster} (h : (roster.templates.map (·.kind)).Nodup)
    {compiled : CompiledTemplate} :
    compiled ∈ roster.templates ↔ roster.template? compiled.kind = some compiled := by
  constructor
  · intro hmem
    cases hfind : roster.template? compiled.kind with
    | none => simpa using List.find?_eq_none.1 hfind compiled hmem
    | some found =>
      have hkind : found.kind = compiled.kind := by simpa using List.find?_some hfind
      rw [List.inj_on_of_nodup_map h (List.mem_of_find?_eq_some hfind) hmem hkind]
  · exact List.mem_of_find?_eq_some

end Roster

/-! ### Caches that show a roster -/

/-- A cache with the constraints and the templates of a roster. -/
structure Shows (cache : Cache) (roster : Roster) : Prop where
  /-- The constraints are those of the roster, in its order and with its statuses. -/
  lines_eq : cache.entries.map lineOf = roster.lines
  template?_eq : ∀ kind, cache.template? kind = roster.template? kind
  /-- No kind has two templates in the roster. -/
  nodup_kinds : (roster.templates.map (·.kind)).Nodup

namespace Shows

variable {cache : Cache} {roster : Roster}

/-! ### Operations -/

theorem installTemplate (h : cache.Shows roster) (ho : cache.Ordered)
    (compiled : CompiledTemplate) :
    (cache.installTemplate compiled).1.Shows (roster.installTemplate compiled) where
  lines_eq := by
    rw [ho.entries_installTemplate, Roster.installTemplate, ← h.lines_eq, List.map_map,
      List.map_map]
    refine List.map_congr_left fun entry _ => ?_
    rw [Function.comp_apply, Function.comp_apply, lineOf_restate]
    have horphan : (!entry.isActive) = decide (entry.status = .orphaned) := by
      rw [ConstraintEntry.isActive]
      cases entry.status <;> rfl
    refine if_congr ?_ rfl rfl
    rw [revives, horphan]
    simp [lineOf, Constraint.key, and_assoc]
  template?_eq kind := by
    rw [template?_installTemplate, Roster.template?, Roster.installTemplate, List.find?_cons,
      Roster.find?_filter_kind]
    by_cases hk : kind = compiled.kind
    · simp [hk]
    · have hk' : decide (compiled.kind = kind) = false := by simpa using fun heq => hk heq.symm
      rw [if_neg hk, if_neg hk, hk']
      exact h.template?_eq kind
  nodup_kinds := by
    refine List.nodup_cons.2 ⟨?_, Roster.nodup_filter _ h.nodup_kinds⟩
    rw [List.mem_map]
    rintro ⟨other, hother, hkind⟩
    simpa [hkind] using (List.mem_filter.1 hother).2

theorem removeTemplate (h : cache.Shows roster) (ho : cache.Ordered) (policy : OrphanPolicy)
    (kind : TemplateKind) :
    (removeTemplate policy cache kind).1.Shows (Roster.removeTemplate policy roster kind) := by
  rw [Roster.removeTemplate, ← h.template?_eq]
  cases hcompiled : cache.template? kind with
  | none =>
    rw [removeTemplate_of_template?_eq_none hcompiled]
    exact ⟨h.lines_eq, h.template?_eq, h.nodup_kinds⟩
  | some compiled =>
    refine ⟨?_, fun k => ?_, Roster.nodup_filter _ h.nodup_kinds⟩
    · rw [ho.entries_removeTemplate policy hcompiled, Option.isSome_some, if_pos rfl,
        ← h.lines_eq]
      cases policy with
      | cascade =>
        rw [Roster.orphan, List.filter_map]
        rfl
      | retain =>
        rw [Roster.orphan, List.map_map, List.map_map]
        refine List.map_congr_left fun entry _ => ?_
        rw [Function.comp_apply, Function.comp_apply, lineOf_restate]
        exact if_congr decide_eq_true_iff rfl rfl
    · rw [template?_removeTemplate, Option.isSome_some, if_pos rfl, Roster.template?,
        Roster.find?_filter_kind]
      exact if_congr Iff.rfl rfl (h.template?_eq k)

/-- Storing a constraint puts its line down. -/
theorem putConstraint (h : cache.Shows roster) (ho : cache.Ordered) (c : Constraint) :
    (cache.putConstraint c).bump.Shows
      { roster with lines := Roster.put roster.lines ⟨c.key, c, .active⟩ } where
  lines_eq := by
    change (cache.putConstraint c).entries.map lineOf = Roster.put roster.lines _
    have hany : roster.lines.any (·.key = c.key) = (cache.constraints.get? c.key).isSome := by
      rw [← h.lines_eq, List.any_map, ← ho.find?_entries, List.isSome_find?]
      rfl
    rw [Roster.put, hany]
    cases hentry : cache.constraints.get? c.key with
    | some entry =>
      rw [ho.entries_putConstraint_of_some hentry, Option.isSome_some, if_pos rfl, ← h.lines_eq,
        List.map_map, List.map_map]
      refine List.map_congr_left fun old _ => ?_
      rw [Function.comp_apply, Function.comp_apply, apply_ite lineOf]
      rfl
    | none =>
      rw [ho.entries_putConstraint_of_none hentry, List.map_append, h.lines_eq]
      rfl
  template?_eq kind := by
    change (cache.putConstraint c).templates.get? kind = _
    rw [templates_putConstraint]
    exact h.template?_eq kind
  nodup_kinds := h.nodup_kinds

theorem upsertConstraint (h : cache.Shows roster) (ho : cache.Ordered) (c : Constraint) :
    (cache.upsertConstraint c).1.Shows (roster.upsertConstraint c) := by
  rw [Cache.upsertConstraint, checkConstraint, Roster.upsertConstraint, ← h.template?_eq]
  cases hcompiled : cache.template? c.kind with
  | none => exact h
  | some compiled =>
    cases hvalid : compiled.schema.validate c with
    | error e => simpa [hvalid, Except.toBool] using h
    | ok _ =>
      simp only [hvalid, Except.toBool, if_true]
      exact h.putConstraint ho c

theorem removeConstraint (h : cache.Shows roster) (ho : cache.Ordered) (key : ConstraintKey) :
    (cache.removeConstraint key).1.Shows (roster.removeConstraint key) where
  lines_eq := by
    rw [ho.entries_removeConstraint, Roster.removeConstraint, ← h.lines_eq, List.filter_map]
    rfl
  template?_eq kind := by
    rw [template?_removeConstraint]
    exact h.template?_eq kind
  nodup_kinds := h.nodup_kinds

/-- Every operation on the cache is the operation on the roster. -/
theorem perform (h : cache.Shows roster) (ho : cache.Ordered) (operation : Operation) :
    (cache.perform operation).Shows (roster.perform operation) := by
  cases operation with
  | installTemplate compiled => exact h.installTemplate ho compiled
  | removeTemplate policy kind => exact h.removeTemplate ho policy kind
  | upsertConstraint c => exact h.upsertConstraint ho c
  | removeConstraint key => exact h.removeConstraint ho key
  | clear => exact ⟨rfl, fun _ => rfl, List.nodup_nil⟩

/-- Operations on the cache are operations on the roster. -/
theorem run (h : cache.Shows roster) (hw : cache.WellFormed) (operations : List Operation) :
    (cache.run operations).Shows (roster.run operations) := by
  induction operations generalizing cache roster with
  | nil => exact h
  | cons operation rest ih => exact ih (h.perform hw.ordered operation) (hw.perform operation)

/-! ### What the roster says -/

/-- No key stands in a roster twice. -/
theorem nodup_lines (h : cache.Shows roster) (ho : cache.Ordered) :
    (roster.lines.map (·.key)).Nodup := by
  rw [← h.lines_eq, List.map_map]
  exact ho.nodup_keys

theorem constraint?_eq (h : cache.Shows roster) (ho : cache.Ordered) (key : ConstraintKey) :
    (cache.constraint? key).map lineOf = roster.line? key := by
  rw [constraint?, ← ho.find?_entries, Roster.line?, ← h.lines_eq, List.find?_map]
  rfl

theorem size_templates (h : cache.Shows roster) (hw : cache.WellFormed) :
    cache.templates.size = roster.templates.length := by
  have hnodup : cache.templates.values.Nodup :=
    SortedMap.nodup_values fun {k k' compiled} hk hk' => by
      rw [← hw.kind_eq hk, ← hw.kind_eq hk']
  have hperm : cache.templates.values.Perm roster.templates := by
    refine (List.perm_ext_iff_of_nodup hnodup (List.Nodup.of_map _ h.nodup_kinds)).2
      fun compiled => ?_
    rw [SortedMap.mem_values_iff, Roster.mem_templates_iff h.nodup_kinds, ← h.template?_eq]
    constructor
    · rintro ⟨kind, hkind⟩
      rwa [hw.kind_eq hkind]
    · intro hkind
      exact ⟨_, hkind⟩
  rw [← hperm.length_eq, SortedMap.values, List.length_map]
  rfl

theorem size_constraints (h : cache.Shows roster) (ho : cache.Ordered) :
    cache.constraints.size = roster.lines.length := by
  rw [← h.lines_eq, List.length_map, ← ho.perm_entries.length_eq, SortedMap.values,
    List.length_map]
  rfl

theorem orphanCount_eq (h : cache.Shows roster) (ho : cache.Ordered) :
    cache.orphanCount = (roster.lines.filter (·.status = .orphaned)).length := by
  rw [← h.lines_eq, List.filter_map, List.length_map, orphanCount,
    (ho.perm_entries.filter _).length_eq]
  refine congrArg List.length (List.filter_congr fun entry _ => ?_)
  rw [Function.comp_apply, ConstraintEntry.isActive, lineOf]
  cases entry.status <;> rfl

end Shows

/-- **A cache is its list of constraints.** After any operations, successful or not, a cache lists
the constraints that the same operations on plain lists give, in the order of first addition and
with their statuses. Each key occurs once, looking up a key or a kind gives what a search of the
lists gives, and the counts are those of the lists. -/
theorem constraints_run (operations : List Operation) :
    (Cache.run {} operations).entries.map lineOf = (Roster.run {} operations).lines ∧
      ((Roster.run {} operations).lines.map (·.key)).Nodup ∧
      (∀ key, ((Cache.run {} operations).constraint? key).map lineOf =
        (Roster.run {} operations).line? key) ∧
      (∀ kind, (Cache.run {} operations).template? kind =
        (Roster.run {} operations).template? kind) ∧
      (Cache.run {} operations).templates.size = (Roster.run {} operations).templates.length ∧
      (Cache.run {} operations).constraints.size = (Roster.run {} operations).lines.length ∧
      (Cache.run {} operations).orphanCount =
        ((Roster.run {} operations).lines.filter (·.status = .orphaned)).length := by
  have hempty : Shows {} {} := ⟨rfl, fun _ => rfl, List.nodup_nil⟩
  have hw := (WellFormed.empty 0 0).run operations
  have h := hempty.run (WellFormed.empty 0 0) operations
  exact ⟨h.lines_eq, h.nodup_lines hw.ordered, h.constraint?_eq hw.ordered, h.template?_eq,
    h.size_templates hw, h.size_constraints hw.ordered, h.orphanCount_eq hw.ordered⟩

end PolicyEngine.Cache
