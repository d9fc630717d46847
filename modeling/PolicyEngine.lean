import PolicyEngine.Cache.Operation
import PolicyEngine.Client.Operation
import PolicyEngine.DebugText
import PolicyEngine.Json.Parser
import PolicyEngine.Proofs.Cache.Roster
import PolicyEngine.Proofs.Client.Considered
import PolicyEngine.Proofs.Client.DryRun
import PolicyEngine.Proofs.Client.Idle
import PolicyEngine.Proofs.Client.Independence
import PolicyEngine.Proofs.Client.Inventories
import PolicyEngine.Proofs.Client.Noninterference
import PolicyEngine.Proofs.Client.Orphans
import PolicyEngine.Proofs.Client.Reinstatement
import PolicyEngine.Proofs.Client.Reset
import PolicyEngine.Proofs.Client.Review
import PolicyEngine.Proofs.Client.Uncompiled
import PolicyEngine.Proofs.Identifier.Subdomain
import PolicyEngine.Proofs.Json.ReadBack
import PolicyEngine.Proofs.Module.Segments
import PolicyEngine.Proofs.RuleText.CodeBytes
import PolicyEngine.Proofs.RuleText.Heads
import PolicyEngine.Proofs.RuleText.Isolation
import PolicyEngine.Proofs.RuleText.Relocation
import PolicyEngine.Proofs.RuleText.Span
import PolicyEngine.Proofs.Schema.Grammar
import PolicyEngine.Proofs.Schema.Leniency
import PolicyEngine.Proofs.Schema.Rendering
import PolicyEngine.Proofs.Schema.Resolution
import PolicyEngine.Proofs.Schema.Visits
import PolicyEngine.Proofs.Store.Refusal
import PolicyEngine.Proofs.Target.Audit
import PolicyEngine.Proofs.Target.Criteria
import PolicyEngine.Proofs.Template.Details
import PolicyEngine.Proofs.Template.Partition
import PolicyEngine.Proofs.Template.Publication
import PolicyEngine.Rule.Question
import PolicyEngine.Target.Admission
import PolicyEngine.Target.Document
