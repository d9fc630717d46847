import PolicyEngine.Proofs.Client.Locality

/-!
# Operations on different kinds

An operation on a template and an operation on a template or a constraint of another kind can be
exchanged. Each reads and changes its own kind only, so after either order every kind is as the one
operation on it leaves it; and of the two only the second can take a sequence number, which the
first, being on a template, neither takes nor sees.

## Main results

* `PolicyEngine.Client.Coherent.agrees_perform_perform` — both orders lead to the same client.
* `PolicyEngine.Client.commute_run` — the same after any operations, with the reports.
-/

namespace PolicyEngine.Client

variable {client : Client} {first second : Operation} {kind kind' : TemplateKind}

/-- An operation reports the same before and after an operation on another kind. -/
theorem report_perform (h : client.cache.WellFormed) (hfirst : first.kind? = some kind)
    (hsecond : second.kind? = some kind') (hne : kind ≠ kind') :
    ((client.perform second).1.perform first).2 = (client.perform first).2 :=
  report_congr (setup_perform _ _) (sameAt_perform h hsecond hne) hfirst

/-- Exchanging an operation on a template with one on another kind leads to the same client. -/
theorem Coherent.agrees_perform_perform (h : client.Coherent) (hfirst : first.kind? = some kind)
    (htemplate : first.IsOfTemplate) (hsecond : second.kind? = some kind') (hne : kind ≠ kind') :
    ((client.perform first).1.perform second).1.Agrees
      ((client.perform second).1.perform first).1 := by
  have hafter := h.perform first
  have hafter' := h.perform second
  have hnext := nextSeq_perform client hfirst htemplate
  have hsetup : (client.perform first).1.setup = client.setup := setup_perform _ _
  have hsetup' : (client.perform second).1.setup = client.setup := setup_perform _ _
  have hother : Cache.SameAt kind' (client.perform first).1.cache client.cache :=
    sameAt_perform h.wellFormed hfirst hne.symm
  have hother' : Cache.SameAt kind (client.perform second).1.cache client.cache :=
    sameAt_perform h.wellFormed hsecond hne
  refine (hafter.perform second).agrees (hafter'.perform first) ?_ (fun k => ?_) ?_ ?_
  · rw [setup_perform, setup_perform, setup_perform, setup_perform]
  · by_cases hk : k = kind
    · -- The first kind is as the first operation leaves it.
      rw [hk]
      refine (sameAt_perform hafter.wellFormed hsecond hne).trans ?_
      exact (sameAt_perform_of_sameAt hafter'.wellFormed h.wellFormed hsetup' hother' hfirst
        (.inl htemplate)).symm
    · by_cases hk' : k = kind'
      · -- The second kind is as the second operation leaves it.
        rw [hk']
        refine (sameAt_perform_of_sameAt hafter.wellFormed h.wellFormed hsetup hother hsecond
          (.inr hnext)).trans ?_
        exact (sameAt_perform hafter'.wellFormed hfirst hne.symm).symm
      · -- Other kinds are as they were.
        refine (sameAt_perform hafter.wellFormed hsecond hk').trans ?_
        refine (sameAt_perform h.wellFormed hfirst hk).trans ?_
        refine (sameAt_perform h.wellFormed hsecond hk').symm.trans ?_
        exact (sameAt_perform hafter'.wellFormed hfirst hk).symm
  · rw [nextSeq_perform_of_sameAt hsetup hother hsecond hnext,
      nextSeq_perform _ hfirst htemplate]
  · rw [inventories_perform _ hsecond, inventories_perform _ hfirst, inventories_perform _ hfirst,
      inventories_perform _ hsecond]

/-- **Operations on different kinds commute.** After any operations from a fresh client, adding or
removing a template can be exchanged with adding or removing a template or a constraint of another
kind: in either order each of the two reports the same, and the two orders lead to clients that
differ in nothing but the counts of changes. They have the same templates, the same constraints in
the same order with the same statuses and sequence numbers, the same index and the same modules. -/
theorem commute_run (setup : Setup) (operations : List Operation) (first second : Operation)
    (kind kind' : TemplateKind) (hfirst : first.kind? = some kind)
    (htemplate : first.IsOfTemplate) (hsecond : second.kind? = some kind')
    (hne : kind ≠ kind') :
    let client := ((Client.fresh setup).run operations).1
    ((client.perform second).1.perform first).2 = (client.perform first).2 ∧
      ((client.perform first).1.perform second).2 = (client.perform second).2 ∧
      ((client.perform first).1.perform second).1.Agrees
        ((client.perform second).1.perform first).1 := by
  intro client
  have h : client.Coherent := (Coherent.fresh setup).run operations
  exact ⟨report_perform h.wellFormed hfirst hsecond hne,
    report_perform h.wellFormed hsecond hfirst hne.symm,
    h.agrees_perform_perform hfirst htemplate hsecond hne⟩

/-! ### An instance -/

namespace Exchange

/-- A target that handles no values. -/
def target : Target where
  name := ⟨"rooms", by decide +kernel⟩
  matchSchema := .anything
  shape? _ := none
  covers _ _ := true
  dataEntry? _ := none

/-- A client that retains constraints. -/
def setup : Setup where
  evaluator := { parses := fun _ => true, results := fun _ => .ok [] }
  registry := ⟨[target], List.pairwise_singleton _ _⟩
  config := { orphanPolicy := .retain }

/-- A kind whose template goes. -/
def closing : TemplateKind := ⟨"Closing", by decide +kernel⟩

/-- A kind whose template stays. -/
def opening : TemplateKind := ⟨"Opening", by decide +kernel⟩

/-- A template of a kind. -/
def template (kind : TemplateKind) : Template where
  kind
  targets := SortedMap.empty.insert target.name { rego := "package rooms\nviolation[r] { r }" }

/-- The only constraint of a kind. -/
def constraint (kind : TemplateKind) : Constraint where
  kind
  name := ⟨"everyone", by decide +kernel⟩

/-- Both templates, and a constraint of the one that goes. -/
def operations : List Operation :=
  [.addTemplate (template closing), .addTemplate (template opening),
    .addConstraint (constraint closing)]

end Exchange

theorem commute_run_exchange :
    let client := ((Client.fresh Exchange.setup).run Exchange.operations).1
    let first := Operation.removeTemplate Exchange.closing
    let second := Operation.addConstraint (Exchange.constraint Exchange.opening)
    first.kind? = some Exchange.closing ∧ first.IsOfTemplate ∧
      second.kind? = some Exchange.opening ∧ Exchange.closing ≠ Exchange.opening ∧
      ((client.perform first).1.perform second).1.Agrees
        ((client.perform second).1.perform first).1 ∧
      ((client.perform second).1.perform first).1.cache.entries.map
          (fun entry => (entry.constraint.key, entry.seq, entry.status)) =
        [((Exchange.constraint Exchange.closing).key, 0, .orphaned),
          ((Exchange.constraint Exchange.opening).key, 1, .active)] := by
  intro client first second
  have hne : Exchange.closing ≠ Exchange.opening := by decide
  obtain ⟨-, -, hagrees⟩ := commute_run Exchange.setup Exchange.operations first second
    Exchange.closing Exchange.opening rfl trivial rfl hne
  exact ⟨rfl, trivial, rfl, hne, hagrees, by decide +kernel⟩

end PolicyEngine.Client
