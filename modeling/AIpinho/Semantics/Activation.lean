import AIpinho.Semantics.EdgeDemands
import AIpinho.Semantics.Revision

/-!
# Activating a revised graph

`SemanticGraphActivationService.activate` makes the child of a revision the graph of the plan.
The graph before is archived with its contracts, the demands of the child are compiled, and the
other contracts are dropped. Every check comes before the first change.
-/

namespace AIpinho.Semantics

open Lib

/-- The statuses of a `SemanticGraphActivationResult`. -/
inductive ActivationStatus
  | activated | blocked | insufficientContractEvidence
  deriving DecidableEq

structure SemanticGraphActivationResult where
  status : ActivationStatus
  activeRevisionId : Option String := none
  activeGraphId : Option String := none
  activeGraphAuthoritySha256 : Option String := none
  snapshotId : Option String := none
  demandsRecompiled : ℕ := 0
  partialDemands : ℕ := 0
  reasonCodes : List String := []

def RevisionContent.parentRef (revision : RevisionContent) : String × String :=
  (revision.parentGraphId, revision.parentGraphAuthoritySha256)

def RevisionContent.childRef (revision : RevisionContent) : String × String :=
  (revision.childGraphId, revision.childGraphAuthoritySha256)

variable (hashes : SemanticHashes)

/-- `SemanticGraphRevisionAuthorityService.verify`. -/
def SemanticHashes.verifyRevision (revision : SemanticGraphRevision) : Bool :=
  hashes.revision revision.toRevisionContent = revision.authoritySha256

/-- What `activate` works on. -/
structure Activation where
  parent : SemanticExecutionGraph
  revision : SemanticGraphRevision
  child : SemanticExecutionGraph

/-- What `activate` works on, with the code of what is missing. -/
def activationOf (plan : SemanticPlan) (application : SemanticGraphRevisionApplication) :
    Except String Activation :=
  match application.status, application.revision, application.childGraph with
  | .applied, some revision, some child =>
    match plan.semanticExecutionGraph with
    | none => .error "GRAPH_ACTIVATION_PARENT_GRAPH_REQUIRED"
    | some parent => do
      demand (hashes.verifyGraph parent) "GRAPH_ACTIVATION_PARENT_GRAPH_AUTHORITY_INVALID"
      demand (hashes.verifyGraph child) "GRAPH_ACTIVATION_CHILD_GRAPH_AUTHORITY_INVALID"
      demand (hashes.verifyRevision revision) "GRAPH_ACTIVATION_REVISION_AUTHORITY_INVALID"
      .ok ⟨parent, revision, child⟩
  | _, _, _ => .error "GRAPH_ACTIVATION_APPLIED_REVISION_REQUIRED"

variable (plan : SemanticPlan)

def validateRevisionChain (revision : SemanticGraphRevision) : Except String Unit :=
  match plan.semanticGraphRevisions.getLast? with
  | none => do
    demand (revision.revisionNumber = 1) "GRAPH_ACTIVATION_REVISION_NUMBER_INVALID"
    demand (revision.parentRevisionId = none) "GRAPH_ACTIVATION_PARENT_REVISION_INVALID"
    demand (plan.activeSemanticGraphRevisionId = none)
      "GRAPH_ACTIVATION_ACTIVE_REVISION_HISTORY_MISMATCH"
  | some last => do
    demand (plan.activeSemanticGraphRevisionId = some last.revisionId)
      "GRAPH_ACTIVATION_ACTIVE_REVISION_HISTORY_MISMATCH"
    demand (revision.revisionNumber = last.revisionNumber + 1)
      "GRAPH_ACTIVATION_REVISION_NUMBER_INVALID"
    demand (revision.parentRevisionId = some last.revisionId)
      "GRAPH_ACTIVATION_PARENT_REVISION_INVALID"
    demand (revision.parentRef = last.childRef) "GRAPH_ACTIVATION_REVISION_PARENT_CHAIN_MISMATCH"

/-- The loop of `_validate_current_contracts` over the contracts of one kind. -/
def validateContracts {κ : Type} (kind : String) (verify : κ → Bool) (ref : κ → String × String)
    (parent : SemanticExecutionGraph) (contracts : List κ) : Except String Unit :=
  checkEach (fun contract => do
    demand (verify contract) ("GRAPH_ACTIVATION_" ++ kind ++ "_AUTHORITY_INVALID")
    demand (ref contract = parent.ref)
      ("GRAPH_ACTIVATION_" ++ kind ++ "_GRAPH_BINDING_MISMATCH")) contracts

def DemandContent.graphRef (demand : DemandContent) : String × String :=
  (demand.semanticGraphId, demand.semanticGraphAuthoritySha256)

def OfferContent.graphRef (offer : OfferContent) : String × String :=
  (offer.semanticGraphId, offer.semanticGraphAuthoritySha256)

def CompatibilityContent.graphRef (compatibility : CompatibilityContent) : String × String :=
  (compatibility.semanticGraphId, compatibility.semanticGraphAuthoritySha256)

def NeighborhoodContent.graphRef (neighborhood : NeighborhoodContent) : String × String :=
  (neighborhood.semanticGraphId, neighborhood.semanticGraphAuthoritySha256)

def JoinContent.graphRef (join : JoinContent) : String × String :=
  (join.semanticGraphId, join.semanticGraphAuthoritySha256)

def validateCurrentContracts (contracts : GraphContracts) (parent : SemanticExecutionGraph) :
    Except String Unit := do
  validateContracts "DEMAND"
    (fun demand => hashes.demand demand.toDemandContent = demand.authoritySha256)
    (fun demand => demand.graphRef) parent contracts.edgeSemanticDemands
  validateContracts "OFFER"
    (fun offer => hashes.offer offer.toOfferContent = offer.authoritySha256)
    (fun offer => offer.graphRef) parent contracts.semanticOffers
  validateContracts "COMPATIBILITY"
    (fun compatibility =>
      hashes.compatibility compatibility.toCompatibilityContent = compatibility.authoritySha256)
    (fun compatibility => compatibility.graphRef) parent contracts.offerDemandCompatibilities
  validateContracts "NEIGHBORHOOD"
    (fun neighborhood =>
      hashes.neighborhood neighborhood.toNeighborhoodContent = neighborhood.authoritySha256)
    (fun neighborhood => neighborhood.graphRef) parent contracts.semanticTopologyNeighborhoods
  validateContracts "JOIN"
    (fun join => hashes.join join.toJoinContent = join.authoritySha256)
    (fun join => join.graphRef) parent contracts.semanticJoinEvaluations

/-- The checks of `activate` that block. -/
def checkActivation (activation : Activation) : Except String Unit := do
  demand (activation.revision.parentRef = activation.parent.ref)
    "GRAPH_ACTIVATION_PARENT_BINDING_MISMATCH"
  demand (activation.revision.childRef = activation.child.ref)
    "GRAPH_ACTIVATION_CHILD_BINDING_MISMATCH"
  validateRevisionChain plan activation.revision
  validateCurrentContracts hashes plan.toGraphContracts activation.parent

def SemanticPlan.withChild (child : SemanticExecutionGraph) : SemanticPlan :=
  { plan with
    toGraphContracts := {}
    semanticExecutionGraph := some child }

/-- The loop over the edges of the child, or nothing if a compilation raises. -/
def recompileDemands (hashes : SemanticHashes) (str : Json → String) (plan : SemanticPlan) :
    List SemanticDependencyEdge → Option (Except String (List EdgeSemanticDemand))
  | [] => some (.ok [])
  | edge :: edges =>
    match compileForEdge hashes str plan edge.edgeId with
    | none => none
    | some compilation =>
      match compilation.status, compilation.demand with
      | .compiled, some demand =>
        (recompileDemands hashes str plan edges).map fun rest => rest.map (demand :: ·)
      | _, _ => some (.error
          (compilation.reasonCodes.head?.getD "GRAPH_ACTIVATION_DEMAND_RECOMPILE_FAILED"))

def buildSnapshot (parent : SemanticExecutionGraph) : SemanticGraphHistorySnapshot :=
  let snapshot : SemanticGraphHistorySnapshot :=
    { plan.toGraphContracts with
      snapshotId := "pending"
      revisionId := plan.activeSemanticGraphRevisionId
      graph := parent
      authoritySha256 := "pending" }
  { snapshot with
    snapshotId := "semantic_graph_history_" ++ hashes.snapshotId snapshot
    authoritySha256 := hashes.snapshot snapshot }

variable (activation : Activation)

def invalidatedProjection : Json :=
  .obj [("status", .str "invalidated_by_graph_revision"),
    ("active_graph_id", .str activation.child.semanticGraphId),
    ("active_graph_authority_sha256", .str activation.child.authoritySha256),
    ("revision_id", .str activation.revision.revisionId)]

/-- What `activate` writes into the metadata of the plan, in order. -/
def activationMetadata (snapshot : SemanticGraphHistorySnapshot) (historyCount : ℕ)
    (demands : List EdgeSemanticDemand) : List (String × Json) :=
  [("semantic_graph_revision_binding", .obj [
      ("active_revision_id", .str activation.revision.revisionId),
      ("revision_number", .int activation.revision.revisionNumber),
      ("active_graph_id", .str activation.child.semanticGraphId),
      ("active_graph_authority_sha256", .str activation.child.authoritySha256),
      ("parent_graph_id", .str activation.parent.semanticGraphId),
      ("parent_graph_authority_sha256", .str activation.parent.authoritySha256),
      ("history_snapshot_id", .str snapshot.snapshotId)]),
    ("semantic_graph_history_count", .int historyCount),
    ("edge_semantic_demand_bindings", .list (demands.map fun demand => .obj [
      ("demand_id", .str demand.demandId), ("edge_id", .str demand.edgeId),
      ("authority_sha256", .str demand.authoritySha256),
      ("status", .str (if demand.isPartial then "partial" else "ready"))])),
    ("semantic_offer_bindings", .list []),
    ("offer_demand_compatibility_bindings", .list []),
    ("semantic_topology_neighborhood_bindings", .list []),
    ("semantic_join_evaluation_bindings", .list []),
    ("semantic_result_projection", invalidatedProjection activation),
    ("semantic_nway_projection", invalidatedProjection activation)]

def SemanticPlan.activated (snapshot : SemanticGraphHistorySnapshot)
    (demands : List EdgeSemanticDemand) : SemanticPlan :=
  { plan.revised activation.revision activation.child with
    toGraphContracts := { edgeSemanticDemands := demands }
    semanticGraphHistory := plan.semanticGraphHistory ++ [snapshot]
    metadata := (activationMetadata activation snapshot (plan.semanticGraphHistory.length + 1)
      demands).foldl (fun metadata entry => Json.setField entry.1 entry.2 metadata) plan.metadata }

/-- `_blocked` and `_insufficient`. -/
def refusedActivation (status : ActivationStatus) (reason : String) :
    SemanticGraphActivationResult where
  status := status
  reasonCodes := [reason]

/-- `SemanticGraphActivationService.activate`: the result, or nothing if it raises, and the
plan afterwards. -/
def activate (str : Json → String) (plan : SemanticPlan)
    (application : SemanticGraphRevisionApplication) :
    Option SemanticGraphActivationResult × SemanticPlan :=
  match activationOf hashes plan application with
  | .error reason => (some (refusedActivation .insufficientContractEvidence reason), plan)
  | .ok activation =>
    match checkActivation hashes plan activation with
    | .error reason => (some (refusedActivation .blocked reason), plan)
    | .ok () =>
      match recompileDemands hashes str (plan.withChild activation.child)
          activation.child.edges with
      | none => (none, plan)
      | some (.error reason) => (some (refusedActivation .blocked reason), plan)
      | some (.ok demands) =>
        let snapshot := buildSnapshot hashes plan activation.parent
        (some {
          status := .activated
          activeRevisionId := activation.revision.revisionId
          activeGraphId := activation.child.semanticGraphId
          activeGraphAuthoritySha256 := activation.child.authoritySha256
          snapshotId := snapshot.snapshotId
          demandsRecompiled := demands.length
          partialDemands := demands.countP (·.isPartial) },
        plan.activated activation snapshot demands)

/-- A sequence of calls of `activate`. -/
def activateAll (str : Json → String) (plan : SemanticPlan)
    (applications : List SemanticGraphRevisionApplication) : SemanticPlan :=
  applications.foldl (fun plan application => (activate hashes str plan application).2) plan

end AIpinho.Semantics
