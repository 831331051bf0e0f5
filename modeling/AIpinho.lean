import AIpinho.Agents.ClassifiedCommands
import AIpinho.Agents.Pagination
import AIpinho.Agents.SideEffects
import AIpinho.Agents.ToolCancellation
import AIpinho.Agents.WorkspaceLocks
import AIpinho.Approvals.Decisions
import AIpinho.Approvals.Listing
import AIpinho.Approvals.TextDecision
import AIpinho.Artifacts.ApprovalUse
import AIpinho.Artifacts.BackupFidelity
import AIpinho.Delegations.Endings
import AIpinho.Delegations.Grants
import AIpinho.Delegations.Modes
import AIpinho.Delegations.Trees
import AIpinho.Governance.FacetOrder
import AIpinho.Governance.SuccessClaims
import AIpinho.Grants.Uses
import AIpinho.Graph.Aggregates
import AIpinho.Graph.PlainView
import AIpinho.Graph.Progress
import AIpinho.Graph.Schedules
import AIpinho.Graph.Searches
import AIpinho.Media.Mp3Headers
import AIpinho.Media.Mp4Durations
import AIpinho.Media.ObserveLoop
import AIpinho.Memory.LearningRuns
import AIpinho.Memory.Supersession
import AIpinho.Mission.ChildRuns
import AIpinho.Mission.Narrowing
import AIpinho.Patching.ApplyRuns
import AIpinho.Patching.CandidateContext
import AIpinho.Patching.DiffRoundTrip
import AIpinho.Patching.DiffScope
import AIpinho.Patching.Preview
import AIpinho.Phases.Admission
import AIpinho.Phases.UseSafety
import AIpinho.Phases.WorkflowStarts
import AIpinho.Policy.Partition
import AIpinho.Policy.WorkspaceRoles
import AIpinho.Queue.Capacity
import AIpinho.Queue.Reservations
import AIpinho.Rag.ContextBudget
import AIpinho.Rag.Ingestion
import AIpinho.Rag.VectorQuery
import AIpinho.Realtime.EventStream
import AIpinho.Runtime.CancellationRace
import AIpinho.Runtime.Rewrites
import AIpinho.Runtime.RunListings
import AIpinho.Runtime.StepOrder
import AIpinho.Runtime.ViewAgreement
import AIpinho.Sandbox.Finished
import AIpinho.Semantics.ActivationHistory
import AIpinho.Semantics.NWayDisclosure
import AIpinho.Semantics.PlannedWork
import AIpinho.Semantics.Requiredness
import AIpinho.Tools.ExecutionApprovals
import AIpinho.Tools.GitReads
import AIpinho.Tools.GitScope
import AIpinho.Tools.ScopeOrder
import AIpinho.Tools.ShellCategories
