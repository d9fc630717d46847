import PolicyEngine.Client.Basic

/-!
# Operations of clients as values

The operations that can change a client, as values. What a client has been through is a list of
them, and the clients that can occur are those that such a list leads to from a fresh one.

## Main definitions

* `PolicyEngine.Client.Operation`, and `PolicyEngine.Client.Report` for what an operation returns.
* `PolicyEngine.Client.perform` — the client after an operation, and its report.
* `PolicyEngine.Client.run` — the client after a list of operations, and all reports.

## Main results

* `PolicyEngine.Client.setup_perform`, `PolicyEngine.Client.setup_run` — the setup never changes.
-/

namespace PolicyEngine.Client

/-- An operation that can change a client. -/
inductive Operation where
  | addTemplate (t : Template)
  | removeTemplate (kind : TemplateKind)
  | addConstraint (c : Constraint)
  | removeConstraint (key : ConstraintKey)
  | addData (v : Json)
  | removeData (v : Json)
  | reset

/-- What an operation returns. -/
inductive Report where
  | template (outcome : Except PolicyError TemplateStatus)
  | constraint (outcome : Except PolicyError Unit)
  | removal (outcome : Removal)
  /-- The number of targets at which data was added or removed. -/
  | count (n : Nat)
  | done

/-- The client after an operation, and its report. -/
def perform (client : Client) : Operation → Client × Report
  | .addTemplate t => ((client.addTemplate t).1, .template (client.addTemplate t).2)
  | .removeTemplate kind => ((client.removeTemplate kind).1, .removal (client.removeTemplate kind).2)
  | .addConstraint c => ((client.addConstraint c).1, .constraint (client.addConstraint c).2)
  | .removeConstraint key =>
    ((client.removeConstraint key).1, .removal (client.removeConstraint key).2)
  | .addData v => ((client.addData v).1, .count (client.addData v).2)
  | .removeData v => ((client.removeData v).1, .count (client.removeData v).2)
  | .reset => (client.reset, .done)

/-- The client after operations, one after another, and all reports. -/
def run (client : Client) : List Operation → Client × List Report
  | [] => (client, [])
  | operation :: rest =>
    let (next, report) := client.perform operation
    let (last, reports) := next.run rest
    (last, report :: reports)

/-- No operation changes the setup. -/
theorem setup_perform (client : Client) (operation : Operation) :
    (client.perform operation).1.setup = client.setup := by
  cases operation with
  | addTemplate t =>
    simp only [perform, addTemplate]
    split
    · rfl
    · split <;> rfl
  | removeTemplate kind =>
    simp only [perform, removeTemplate]
    split <;> rfl
  | addConstraint c => rfl
  | removeConstraint key => rfl
  | addData v => rfl
  | removeData v => rfl
  | reset => rfl

/-- No list of operations changes the setup. -/
theorem setup_run (client : Client) (operations : List Operation) :
    (client.run operations).1.setup = client.setup := by
  induction operations generalizing client with
  | nil => rfl
  | cons operation rest ih => simp [run, ih, setup_perform]

end PolicyEngine.Client
