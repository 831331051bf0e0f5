import AIpinho.Semantics.Plan

/-!
# The semantic truth of a completion

`SemanticCompletionTruthService.evaluate` reads the graph of a plan and the contracts that are
bound to it, and says whether a success can be reported.
-/

namespace AIpinho.Semantics

open Lib
open AIpinho.Runtime (isSpace)

/-- The statuses of a `SemanticTruthFacet`. -/
inductive FacetStatus
  | notApplicable | ready | constrained | blocked | insufficientEvidence
  deriving DecidableEq

/-- What the authority hash of a `SemanticTruthFacet` is computed from. -/
structure FacetContent where
  /-- How the semantics of the run stand. -/
  status : FacetStatus
  safeToReportSuccess : Bool
  semanticGraphId : Option String := none
  semanticGraphAuthoritySha256 : Option String := none
  activeRevisionId : Option String := none
  requiredEdgeIds : List String := []
  admittedEdgeIds : List String := []
  constrainedEdgeIds : List String := []
  blockedEdgeIds : List String := []
  /-- Those for which evidence is missing. -/
  unresolvedEdgeIds : List String := []
  partialDemandEdgeIds : List String := []
  /-- The units with more than one required edge. -/
  requiredJoinConsumerIds : List String := []
  constrainedJoinConsumerIds : List String := []
  blockedJoinConsumerIds : List String := []
  /-- Those for which evidence is missing. -/
  unresolvedJoinConsumerIds : List String := []
  disclosures : List String := []
  /-- The contracts that are not in order. -/
  invalidAuthorityRefs : List String := []
  reasonCodes : List String := []

structure SemanticTruthFacet extends FacetContent where
  facetId : String
  authoritySha256 : String

/-- `_unique`. -/
def uniqueTexts (values : List String) : List String :=
  (values.filter fun value => strip isSpace value ≠ "").eraseDups

/-- `_freeze`, but for the hash. -/
def FacetContent.unique (content : FacetContent) : FacetContent :=
  { content with
    requiredEdgeIds := uniqueTexts content.requiredEdgeIds
    admittedEdgeIds := uniqueTexts content.admittedEdgeIds
    constrainedEdgeIds := uniqueTexts content.constrainedEdgeIds
    blockedEdgeIds := uniqueTexts content.blockedEdgeIds
    unresolvedEdgeIds := uniqueTexts content.unresolvedEdgeIds
    partialDemandEdgeIds := uniqueTexts content.partialDemandEdgeIds
    requiredJoinConsumerIds := uniqueTexts content.requiredJoinConsumerIds
    constrainedJoinConsumerIds := uniqueTexts content.constrainedJoinConsumerIds
    blockedJoinConsumerIds := uniqueTexts content.blockedJoinConsumerIds
    unresolvedJoinConsumerIds := uniqueTexts content.unresolvedJoinConsumerIds
    disclosures := uniqueTexts content.disclosures
    invalidAuthorityRefs := uniqueTexts content.invalidAuthorityRefs
    reasonCodes := uniqueTexts content.reasonCodes }

/-- `_freeze`, for the hash of a facet and the digits in its id. -/
def freezeFacet (sha256 digits : FacetContent → String) (content : FacetContent) :
    SemanticTruthFacet :=
  { content.unique with
    facetId := "semantic_truth_facet_" ++ digits content.unique
    authoritySha256 := sha256 content.unique }

/-- `edges_by_id`. -/
def SemanticExecutionGraph.edge? (graph : SemanticExecutionGraph) (edgeId : String) :
    Option SemanticDependencyEdge :=
  graph.edges.reverse.find? fun edge => edge.edgeId = edgeId

def SemanticExecutionGraph.requiredEdges (graph : SemanticExecutionGraph) :
    List SemanticDependencyEdge :=
  (graph.edges.filter (·.required)).insertionSort fun a b => a.edgeId ≤ b.edgeId

section Contracts

variable (hashes : SemanticHashes) (graph : SemanticExecutionGraph) (contracts : GraphContracts)

def demandFault (demand : EdgeSemanticDemand) : Option String :=
  if demand.authoritySha256 ≠ hashes.demand demand.toDemandContent then
    some ("demand:" ++ demand.demandId)
  else
    match graph.edge? demand.edgeId with
    | none => some ("demand_binding:" ++ demand.demandId)
    | some edge =>
      if demand.semanticGraphId = graph.semanticGraphId ∧
          demand.semanticGraphAuthoritySha256 = graph.authoritySha256 ∧
          demand.producerWorkUnitId = edge.producerWorkUnitId ∧
          demand.consumerWorkUnitId = edge.consumerWorkUnitId then none
      else some ("demand_binding:" ++ demand.demandId)

def offerFault (offer : SemanticOffer) : Option String :=
  if offer.authoritySha256 ≠ hashes.offer offer.toOfferContent then
    some ("offer:" ++ offer.offerId)
  else if offer.semanticGraphId = graph.semanticGraphId ∧
      offer.semanticGraphAuthoritySha256 = graph.authoritySha256 then none
  else some ("offer_binding:" ++ offer.offerId)

variable (edgeId : String)

/-- `demands_by_edge`: the last demand in order for an edge. -/
def demandOf? : Option EdgeSemanticDemand :=
  contracts.edgeSemanticDemands.reverse.find? fun demand =>
    demand.edgeId = edgeId && (demandFault hashes graph demand).isNone

/-- `offers_by_id`: the last offer in order with an id. -/
def offerById? (offerId : String) : Option SemanticOffer :=
  contracts.semanticOffers.reverse.find? fun offer =>
    offer.offerId = offerId && (offerFault hashes graph offer).isNone

def compatibilityFault (compatibility : OfferDemandCompatibility) : Option String :=
  if compatibility.authoritySha256 ≠ hashes.compatibility compatibility.toCompatibilityContent then
    some ("compatibility:" ++ compatibility.compatibilityId)
  else
    match graph.edge? compatibility.edgeId,
        contracts.edgeSemanticDemands.find? (fun demand =>
          demand.demandId = compatibility.demandId),
        offerById? hashes graph contracts compatibility.offerId with
    | some edge, some demand, some offer =>
      if compatibility.semanticGraphId = graph.semanticGraphId ∧
          compatibility.semanticGraphAuthoritySha256 = graph.authoritySha256 ∧
          compatibility.producerWorkUnitId = edge.producerWorkUnitId ∧
          compatibility.consumerWorkUnitId = edge.consumerWorkUnitId ∧
          compatibility.demandAuthoritySha256 = demand.authoritySha256 ∧
          compatibility.offerAuthoritySha256 = offer.authoritySha256 then none
      else some ("compatibility_binding:" ++ compatibility.compatibilityId)
    | _, _, _ => some ("compatibility_binding:" ++ compatibility.compatibilityId)

/-- `compatibilities_by_edge`: the last compatibility in order for an edge. -/
def compatibilityOf? : Option OfferDemandCompatibility :=
  contracts.offerDemandCompatibilities.reverse.find? fun compatibility =>
    compatibility.edgeId = edgeId &&
      (compatibilityFault hashes graph contracts compatibility).isNone

def joinFault (join : SemanticJoinEvaluation) : Option String :=
  if join.authoritySha256 ≠ hashes.join join.toJoinContent then some ("join:" ++ join.joinId)
  else if join.semanticGraphId = graph.semanticGraphId ∧
      join.semanticGraphAuthoritySha256 = graph.authoritySha256 then none
  else some ("join_binding:" ++ join.joinId)

variable (consumer : String)

/-- `joins_by_consumer`: the last join in order for a unit. -/
def joinOf? : Option SemanticJoinEvaluation :=
  contracts.semanticJoinEvaluations.reverse.find? fun join =>
    join.consumerWorkUnitId = consumer && (joinFault hashes graph join).isNone

/-- `invalid`. -/
def invalidContracts : List String :=
  (if (contracts.edgeSemanticDemands.map (·.edgeId)).Nodup then []
    else ["duplicate_edge_demand"]) ++
  (if (contracts.semanticOffers.map (·.producerWorkUnitId)).Nodup then []
    else ["duplicate_work_unit_offer"]) ++
  (if (contracts.offerDemandCompatibilities.map (·.edgeId)).Nodup then []
    else ["duplicate_edge_compatibility"]) ++
  (if (contracts.semanticJoinEvaluations.map (·.consumerWorkUnitId)).Nodup then []
    else ["duplicate_consumer_join"]) ++
  contracts.edgeSemanticDemands.filterMap (demandFault hashes graph) ++
  contracts.semanticOffers.filterMap (offerFault hashes graph) ++
  contracts.offerDemandCompatibilities.filterMap (compatibilityFault hashes graph contracts) ++
  contracts.semanticJoinEvaluations.filterMap (joinFault hashes graph)

/-- What the contracts say about a required edge. -/
inductive EdgeVerdict
  | admitted | constrained | blocked | unresolved | partialDemand
  deriving DecidableEq

/-- The body of the loop over the required edges. -/
def edgeVerdict : EdgeVerdict :=
  match demandOf? hashes graph contracts edgeId with
  | none => .unresolved
  | some demand =>
    if demand.isPartial then .partialDemand
    else
      match compatibilityOf? hashes graph contracts edgeId with
      | none => .unresolved
      | some compatibility =>
        match compatibility.decision with
        | .blocked => .blocked
        | .insufficientEvidence => .unresolved
        | .admittedWithConstraints => .constrained
        | .admitted => .admitted

def edgeDisclosures : List String :=
  match compatibilityOf? hashes graph contracts edgeId with
  | some compatibility => compatibility.disclosures ++ compatibility.effectiveConstraints
  | none => []

def edgesWith (verdicts : List EdgeVerdict) : List String :=
  (graph.requiredEdges.map (·.edgeId)).filter fun edgeId =>
    edgeVerdict hashes graph contracts edgeId ∈ verdicts

def SemanticExecutionGraph.incomingRequired (graph : SemanticExecutionGraph) (consumer : String) :
    List String :=
  (graph.requiredEdges.filter fun edge => edge.consumerWorkUnitId = consumer).map (·.edgeId)

def SemanticExecutionGraph.requiredJoinConsumers (graph : SemanticExecutionGraph) : List String :=
  ((graph.requiredEdges.map (·.consumerWorkUnitId)).eraseDups.filter fun consumer =>
    1 < (graph.incomingRequired consumer).length).insertionSort fun a b => a ≤ b

/-- The body of the loop over the units with more than one required edge. -/
def joinVerdict : EdgeVerdict :=
  let sorted : List String → List String := fun ids => ids.insertionSort fun a b => a ≤ b
  match joinOf? hashes graph contracts consumer with
  | none => .unresolved
  | some join =>
    if sorted join.requiredEdgeIds ≠ sorted (graph.incomingRequired consumer) then .unresolved
    else
      match join.decision with
      | .blocked => .blocked
      | .insufficientEvidence => .unresolved
      | .admittedWithConstraints => .constrained
      | .admitted => .admitted

def joinDisclosures : List String :=
  match joinOf? hashes graph contracts consumer with
  | some join => join.disclosures ++ join.effectiveConstraints
  | none => []

def joinsWith (verdict : EdgeVerdict) : List String :=
  graph.requiredJoinConsumers.filter fun consumer =>
    joinVerdict hashes graph contracts consumer = verdict

def contractStatus : FacetStatus × String :=
  if edgesWith hashes graph contracts [.blocked] ≠ [] ∨
      joinsWith hashes graph contracts .blocked ≠ [] then
    (.blocked, "SEMANTIC_TRUTH_REQUIRED_RELATION_BLOCKED")
  else if edgesWith hashes graph contracts [.unresolved, .partialDemand] ≠ [] ∨
      joinsWith hashes graph contracts .unresolved ≠ [] ∨
      edgesWith hashes graph contracts [.partialDemand] ≠ [] then
    (.insufficientEvidence, "SEMANTIC_TRUTH_REQUIRED_RELATION_UNRESOLVED")
  else if edgesWith hashes graph contracts [.constrained] ≠ [] ∨
      joinsWith hashes graph contracts .constrained ≠ [] then
    (.constrained, "SEMANTIC_TRUTH_SUCCESS_REQUIRES_DISCLOSURE")
  else (.ready, "SEMANTIC_TRUTH_READY")

def contractFacet (activeRevisionId : Option String) : FacetContent where
  status := (contractStatus hashes graph contracts).1
  safeToReportSuccess := (contractStatus hashes graph contracts).1 = .ready
  semanticGraphId := graph.semanticGraphId
  semanticGraphAuthoritySha256 := graph.authoritySha256
  activeRevisionId := activeRevisionId
  requiredEdgeIds := graph.requiredEdges.map (·.edgeId)
  admittedEdgeIds := edgesWith hashes graph contracts [.admitted]
  constrainedEdgeIds := edgesWith hashes graph contracts [.constrained]
  blockedEdgeIds := edgesWith hashes graph contracts [.blocked]
  unresolvedEdgeIds := edgesWith hashes graph contracts [.unresolved, .partialDemand]
  partialDemandEdgeIds := edgesWith hashes graph contracts [.partialDemand]
  requiredJoinConsumerIds := graph.requiredJoinConsumers
  constrainedJoinConsumerIds := joinsWith hashes graph contracts .constrained
  blockedJoinConsumerIds := joinsWith hashes graph contracts .blocked
  unresolvedJoinConsumerIds := joinsWith hashes graph contracts .unresolved
  disclosures :=
    (edgesWith hashes graph contracts [.constrained]).flatMap
      (edgeDisclosures hashes graph contracts) ++
    (joinsWith hashes graph contracts .constrained).flatMap
      (joinDisclosures hashes graph contracts)
  reasonCodes := [(contractStatus hashes graph contracts).2]

end Contracts

def SemanticPlan.isInvalidated (plan : SemanticPlan) : Bool :=
  match (plan.metadata.lookup "semantic_result_projection").bind (·.field? "status") with
  | some (.str status) => status = "invalidated_by_graph_revision"
  | _ => false

def facetContent (hashes : SemanticHashes) (plan : SemanticPlan) : FacetContent :=
  match plan.semanticExecutionGraph with
  | none =>
    { status := .notApplicable
      safeToReportSuccess := true
      reasonCodes := ["semantic_graph_not_present"] }
  | some graph =>
    if !hashes.verifyGraph graph then
      { status := .blocked
        safeToReportSuccess := false
        semanticGraphId := graph.semanticGraphId
        semanticGraphAuthoritySha256 := graph.authoritySha256
        invalidAuthorityRefs := ["semantic_execution_graph"]
        reasonCodes := ["SEMANTIC_TRUTH_GRAPH_AUTHORITY_INVALID"] }
    else if graph.requiredEdges.isEmpty then
      { status := .ready
        safeToReportSuccess := true
        semanticGraphId := graph.semanticGraphId
        semanticGraphAuthoritySha256 := graph.authoritySha256
        activeRevisionId := plan.activeSemanticGraphRevisionId
        reasonCodes := ["semantic_required_edges_absent"] }
    else if plan.isInvalidated then
      { status := .insufficientEvidence
        safeToReportSuccess := false
        semanticGraphId := graph.semanticGraphId
        semanticGraphAuthoritySha256 := graph.authoritySha256
        activeRevisionId := plan.activeSemanticGraphRevisionId
        requiredEdgeIds := graph.requiredEdges.map (·.edgeId)
        unresolvedEdgeIds := graph.requiredEdges.map (·.edgeId)
        reasonCodes := ["SEMANTIC_TRUTH_RESULT_PROJECTION_INVALIDATED"] }
    else if invalidContracts hashes graph plan.toGraphContracts ≠ [] then
      { status := .blocked
        safeToReportSuccess := false
        semanticGraphId := graph.semanticGraphId
        semanticGraphAuthoritySha256 := graph.authoritySha256
        activeRevisionId := plan.activeSemanticGraphRevisionId
        requiredEdgeIds := graph.requiredEdges.map (·.edgeId)
        invalidAuthorityRefs := (invalidContracts hashes graph
          plan.toGraphContracts).eraseDups.insertionSort fun a b => a ≤ b
        reasonCodes := ["SEMANTIC_TRUTH_CONTRACT_AUTHORITY_INVALID"] }
    else contractFacet hashes graph plan.toGraphContracts plan.activeSemanticGraphRevisionId

/-- `evaluate`. -/
def evaluate (hashes : SemanticHashes) (sha256 digits : FacetContent → String)
    (run : SemanticRun) : SemanticTruthFacet :=
  freezeFacet sha256 digits (facetContent hashes run.plan)

end AIpinho.Semantics
