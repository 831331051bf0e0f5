import AIpinho.Semantics.CompletionTruth

/-!
# Where edges meet

`SemanticNWayTopologyService.evaluate_join` decides about a work unit from the compatibilities
of the edges that lead to it, and `SemanticNWayProjectionService.project` stores what it
decides.
-/

namespace AIpinho.Semantics

open Lib

section Context

variable (hashes : SemanticHashes) (graph : SemanticExecutionGraph)

/-- What `_context` asks of a demand, beside the demands before it. -/
def checkDemand (seen : List EdgeSemanticDemand) (item : EdgeSemanticDemand) :
    Except String Unit := do
  demand (hashes.demand item.toDemandContent = item.authoritySha256)
    "SEMANTIC_NWAY_DEMAND_AUTHORITY_INVALID"
  demand (item.semanticGraphId = graph.semanticGraphId ∧
    item.semanticGraphAuthoritySha256 = graph.authoritySha256)
    "SEMANTIC_NWAY_DEMAND_GRAPH_BINDING_MISMATCH"
  let edge ← demandSome (graph.edge? item.edgeId) "SEMANTIC_NWAY_DEMAND_EDGE_UNKNOWN"
  demand (item.producerWorkUnitId = edge.producerWorkUnitId ∧
    item.consumerWorkUnitId = edge.consumerWorkUnitId)
    "SEMANTIC_NWAY_DEMAND_EDGE_BINDING_MISMATCH"
  demand (item.edgeId ∉ seen.map (·.edgeId)) "SEMANTIC_NWAY_DUPLICATE_EDGE_DEMAND"

/-- What `_context` asks of an offer, beside the offers before it. -/
def checkOffer (seen : List SemanticOffer) (item : SemanticOffer) : Except String Unit := do
  demand (hashes.offer item.toOfferContent = item.authoritySha256)
    "SEMANTIC_NWAY_OFFER_AUTHORITY_INVALID"
  demand (item.semanticGraphId = graph.semanticGraphId ∧
    item.semanticGraphAuthoritySha256 = graph.authoritySha256)
    "SEMANTIC_NWAY_OFFER_GRAPH_BINDING_MISMATCH"
  demand (item.producerWorkUnitId ∈ graph.workUnits.map (·.workUnitId))
    "SEMANTIC_NWAY_OFFER_WORK_UNIT_UNKNOWN"
  demand (item.producerWorkUnitId ∉ seen.map (·.producerWorkUnitId))
    "SEMANTIC_NWAY_DUPLICATE_WORK_UNIT_OFFER"

/-- What `_context` asks of a compatibility, beside the compatibilities before it. It takes
the first demand and the last offer with the id that the compatibility names. -/
def checkCompatibility (demands : List EdgeSemanticDemand) (offers : List SemanticOffer)
    (seen : List OfferDemandCompatibility) (item : OfferDemandCompatibility) :
    Except String Unit := do
  demand (hashes.compatibility item.toCompatibilityContent = item.authoritySha256)
    "SEMANTIC_NWAY_COMPATIBILITY_AUTHORITY_INVALID"
  demand (item.semanticGraphId = graph.semanticGraphId ∧
    item.semanticGraphAuthoritySha256 = graph.authoritySha256)
    "SEMANTIC_NWAY_COMPATIBILITY_GRAPH_BINDING_MISMATCH"
  let edge ← demandSome (graph.edge? item.edgeId) "SEMANTIC_NWAY_COMPATIBILITY_EDGE_UNKNOWN"
  demand (item.producerWorkUnitId = edge.producerWorkUnitId ∧
    item.consumerWorkUnitId = edge.consumerWorkUnitId)
    "SEMANTIC_NWAY_COMPATIBILITY_EDGE_BINDING_MISMATCH"
  demand (item.edgeId ∉ seen.map (·.edgeId)) "SEMANTIC_NWAY_DUPLICATE_EDGE_COMPATIBILITY"
  let named ← demandSome (demands.find? fun other => other.demandId = item.demandId)
    "SEMANTIC_NWAY_COMPATIBILITY_INPUT_MISSING"
  let offered ← demandSome (offers.reverse.find? fun other => other.offerId = item.offerId)
    "SEMANTIC_NWAY_COMPATIBILITY_INPUT_MISSING"
  demand (item.demandAuthoritySha256 = named.authoritySha256 ∧
    item.offerAuthoritySha256 = offered.authoritySha256)
    "SEMANTIC_NWAY_COMPATIBILITY_INPUT_HASH_MISMATCH"

end Context

/-- What `_context` returns, as far as joins go. -/
structure NWayContext where
  graph : SemanticExecutionGraph
  /-- `compatibilities_by_edge`, in the order of the plan. -/
  compatibilities : List OfferDemandCompatibility

variable (hashes : SemanticHashes)

/-- `_context`. -/
def nwayContext (plan : SemanticPlan) : Except String NWayContext := do
  let graph ← demandSome plan.semanticExecutionGraph "SEMANTIC_NWAY_GRAPH_REQUIRED"
  demand (hashes.verifyGraph graph = true) "SEMANTIC_NWAY_GRAPH_AUTHORITY_INVALID"
  let demands ← collectEach (checkDemand hashes graph) [] plan.edgeSemanticDemands
  let offers ← collectEach (checkOffer hashes graph) [] plan.semanticOffers
  let compatibilities ← collectEach (checkCompatibility hashes graph demands offers) []
    plan.offerDemandCompatibilities
  .ok ⟨graph, compatibilities⟩

variable (context : NWayContext)

/-- `_compatibility_for_edge`. -/
def NWayContext.compatibilityFor (edgeId : String) : Option OfferDemandCompatibility :=
  context.compatibilities.find? fun compatibility => compatibility.edgeId = edgeId

/-- The lists that `evaluate_join` fills. -/
structure JoinLists where
  admitted : List String := []
  constrained : List String := []
  blocked : List String := []
  /-- Those for which evidence is missing. -/
  unresolved : List String := []
  optionalNonadmitted : List String := []
  compatibilityIds : List String := []
  effectiveConstraints : List String := []
  disclosures : List String := []

def JoinLists.addRequired (lists : JoinLists) (edge : SemanticDependencyEdge) : JoinLists :=
  match context.compatibilityFor edge.edgeId with
  | none => { lists with unresolved := lists.unresolved ++ [edge.edgeId] }
  | some compatibility =>
    let listed := { lists with
      compatibilityIds := lists.compatibilityIds ++ [compatibility.compatibilityId] }
    match compatibility.decision with
    | .blocked => { listed with blocked := lists.blocked ++ [edge.edgeId] }
    | .insufficientEvidence => { listed with unresolved := lists.unresolved ++ [edge.edgeId] }
    | .admittedWithConstraints =>
      { listed with
        constrained := lists.constrained ++ [edge.edgeId]
        effectiveConstraints := lists.effectiveConstraints ++ compatibility.effectiveConstraints
        disclosures := lists.disclosures ++ compatibility.disclosures }
    | .admitted => { listed with admitted := lists.admitted ++ [edge.edgeId] }

def JoinLists.addOptional (lists : JoinLists) (edge : SemanticDependencyEdge) : JoinLists :=
  match context.compatibilityFor edge.edgeId with
  | none => { lists with optionalNonadmitted := lists.optionalNonadmitted ++ [edge.edgeId] }
  | some compatibility =>
    let listed := { lists with
      compatibilityIds := lists.compatibilityIds ++ [compatibility.compatibilityId] }
    match compatibility.decision with
    | .admitted | .admittedWithConstraints => listed
    | .blocked | .insufficientEvidence =>
      { listed with optionalNonadmitted := lists.optionalNonadmitted ++ [edge.edgeId] }

def JoinLists.decide (lists : JoinLists) : Decision × String :=
  if lists.blocked ≠ [] then (.blocked, "SEMANTIC_NWAY_REQUIRED_EDGE_BLOCKED")
  else if lists.unresolved ≠ [] then
    (.insufficientEvidence, "SEMANTIC_NWAY_REQUIRED_EDGE_UNRESOLVED")
  else if lists.constrained ≠ [] then
    (.admittedWithConstraints, "SEMANTIC_NWAY_REQUIRED_EDGES_ADMITTED_WITH_CONSTRAINTS")
  else (.admitted, "SEMANTIC_NWAY_REQUIRED_EDGES_ADMITTED")

/-- The members of a `SemanticJoinEvaluation` that only the topology services read. -/
structure JoinMembers where
  optionalEdgeIds : List String
  compatibilityIds : List String
  admittedEdgeIds : List String
  constrainedEdgeIds : List String
  blockedEdgeIds : List String
  /-- Those for which evidence is missing. -/
  unresolvedEdgeIds : List String
  optionalNonadmittedEdgeIds : List String
  reasonCodes : List String

/-- The members as `join_payload` renders them. -/
def JoinMembers.details (members : JoinMembers) : Json :=
  let texts : List String → Json := fun values => .list (values.map .str)
  .obj [("optional_edge_ids", texts members.optionalEdgeIds),
    ("compatibility_ids", texts members.compatibilityIds),
    ("admitted_edge_ids", texts members.admittedEdgeIds),
    ("constrained_edge_ids", texts members.constrainedEdgeIds),
    ("blocked_edge_ids", texts members.blockedEdgeIds),
    ("unresolved_edge_ids", texts members.unresolvedEdgeIds),
    ("optional_nonadmitted_edge_ids", texts members.optionalNonadmittedEdgeIds),
    ("reason_codes", texts members.reasonCodes),
    ("schema_version", .str "semantic_join_evaluation.v1")]

/-- A `SemanticJoinEvaluation` with all its members. -/
structure EvaluatedJoin extends SemanticJoinEvaluation, JoinMembers

/-- `SemanticJoinEvaluationResult`. -/
inductive JoinResult
  | evaluated (join : EvaluatedJoin)
  | notApplicable (reasonCode : String)
  | insufficientContractEvidence (reasonCode : String)

def JoinResult.join? : JoinResult → Option SemanticJoinEvaluation
  | .evaluated join => some join.toSemanticJoinEvaluation
  | .notApplicable _ | .insufficientContractEvidence _ => none

/-- `sorted`, for texts. -/
def sortedTexts (texts : List String) : List String :=
  texts.insertionSort fun a b => a ≤ b

variable (graph : SemanticExecutionGraph)

def SemanticExecutionGraph.incoming (consumer : String) : List SemanticDependencyEdge :=
  graph.edges.filter fun edge => edge.consumerWorkUnitId = consumer

def SemanticExecutionGraph.incomingOf (consumer : String) (required : Bool) :
    List SemanticDependencyEdge :=
  ((graph.incoming consumer).filter fun edge => edge.required = required).insertionSort
    fun a b => a.edgeId ≤ b.edgeId

def NWayContext.lists (consumer : String) : JoinLists :=
  (context.graph.incomingOf consumer false).foldl (JoinLists.addOptional context)
    ((context.graph.incomingOf consumer true).foldl (JoinLists.addRequired context) {})

def NWayContext.join (hashes : SemanticHashes) (context : NWayContext) (consumer : String) :
    EvaluatedJoin :=
  let lists := context.lists consumer
  let members : JoinMembers := {
    optionalEdgeIds := (context.graph.incomingOf consumer false).map (·.edgeId)
    compatibilityIds := sortedTexts lists.compatibilityIds
    admittedEdgeIds := sortedTexts lists.admitted
    constrainedEdgeIds := sortedTexts lists.constrained
    blockedEdgeIds := sortedTexts lists.blocked
    unresolvedEdgeIds := sortedTexts lists.unresolved
    optionalNonadmittedEdgeIds := sortedTexts lists.optionalNonadmitted
    reasonCodes := [lists.decide.2] }
  let content : JoinContent := {
    semanticGraphId := context.graph.semanticGraphId
    semanticGraphAuthoritySha256 := context.graph.authoritySha256
    consumerWorkUnitId := consumer
    requiredEdgeIds := (context.graph.incomingOf consumer true).map (·.edgeId)
    decision := lists.decide.1
    effectiveConstraints := uniqueTexts lists.effectiveConstraints
    disclosures := uniqueTexts lists.disclosures
    details := members.details }
  let sha := hashes.join content
  { content, members with
    joinId := "semantic_join_" ++ (sha.take 24).toString
    authoritySha256 := sha }

def evaluateJoin (plan : SemanticPlan) (consumer : String) : JoinResult :=
  match nwayContext hashes plan with
  | .error reason => .insufficientContractEvidence reason
  | .ok context =>
    if consumer ∉ context.graph.workUnits.map (·.workUnitId) then
      .insufficientContractEvidence "SEMANTIC_NWAY_CONSUMER_UNKNOWN"
    else if (context.graph.incoming consumer).isEmpty then
      .notApplicable "SEMANTIC_NWAY_JOIN_HAS_NO_INCOMING_EDGES"
    else .evaluated (context.join hashes consumer)

/-- `sorted(incoming_by_consumer)`. -/
def SemanticExecutionGraph.consumers : List String :=
  sortedTexts (graph.edges.map (·.consumerWorkUnitId)).eraseDups

/-- The joins that `project` stores. -/
def projectedJoins (plan : SemanticPlan) : List SemanticJoinEvaluation :=
  match plan.semanticExecutionGraph with
  | none => plan.semanticJoinEvaluations
  | some graph => graph.consumers.filterMap fun consumer =>
    (evaluateJoin hashes plan consumer).join?

/-- The plan after `project`, as far as joins go. -/
def SemanticPlan.withJoins (plan : SemanticPlan) : SemanticPlan :=
  { plan with semanticJoinEvaluations := projectedJoins hashes plan }

end AIpinho.Semantics
