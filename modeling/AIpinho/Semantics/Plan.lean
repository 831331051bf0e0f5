import AIpinho.Semantics.Vocabulary

/-!
# The semantic part of a plan

A `TaskRunPlan` carries the canonical execution plan of a run, its vocabulary, the semantic
execution graph, the contracts that are bound to the graph, and the history of its revisions.
Members that nothing reads are one value `details`.
-/

namespace AIpinho.Semantics

open Lib

structure CanonicalExecutionStep where
  stepId : String
  stepType : String := ""
  action : String := ""
  required : Bool := true
  sideEffect : Bool := false
  dependsOn : List String := []
  inputs : List (String × Json) := []
  expectedOutputs : List String := []
  requiredCapabilities : List String := []
  metadata : List (String × Json) := []

structure CanonicalExecutionPlan where
  executionId : String
  executionSteps : List CanonicalExecutionStep
  details : Json := .null

structure TaskSemanticVocabularyBinding where
  vocabularyId : String
  authoritySha256 : String
  revision : ℤ
  /-- The hash of what the vocabulary was compiled from. -/
  sourceSemanticsSha256 : String
  deriving DecidableEq

/-- `TaskSemanticVocabulary.binding`. -/
def TaskSemanticVocabulary.binding (vocabulary : TaskSemanticVocabulary) :
    TaskSemanticVocabularyBinding :=
  ⟨vocabulary.vocabularyId, vocabulary.authoritySha256, vocabulary.revision,
    vocabulary.sourceSemanticsSha256⟩

inductive SemanticEdgeRelation
  | semanticDependency | evidenceDependency | validationDependency | contextDependency
  | orderingConstraint
  deriving DecidableEq

/-- `SemanticWorkUnitClassificationStatus`. -/
inductive ClassificationStatus
  | explicit | interpreted | unknown
  deriving DecidableEq

structure SemanticWorkUnitContract where
  workUnitId : String
  /-- The steps of the canonical plan it stands for. -/
  sourceStepIds : List String
  semanticGoal : String
  workModes : List String
  classificationStatus : ClassificationStatus
  requiredCapabilities : List String
  requestedEffects : List String
  prohibitedEffects : List String
  expectedOutputs : List String
  sourceInputs : List (String × Json)
  required : Bool
  containsSideEffect : Bool
  vocabularyBinding : TaskSemanticVocabularyBinding
  deriving DecidableEq

structure SemanticDependencyEdge where
  edgeId : String
  producerWorkUnitId : String
  consumerWorkUnitId : String
  relation : SemanticEdgeRelation
  /-- Whether the consumer cannot do without. -/
  required : Bool
  sourceRefs : List String
  deriving DecidableEq

def SemanticDependencyEdge.signature (edge : SemanticDependencyEdge) :
    String × String × SemanticEdgeRelation :=
  (edge.producerWorkUnitId, edge.consumerWorkUnitId, edge.relation)

/-- `SemanticExecutionGraphStatus`. -/
inductive GraphStatus
  | ready | partially | blocked
  deriving DecidableEq

/-- What the authority hash of a `SemanticExecutionGraph` is computed from. -/
structure GraphContent where
  taskRunId : String
  taskId : Option String
  sourcePlanId : String
  sourceExecutionId : String
  /-- The hash of what the graph was made from. -/
  sourceSemanticsSha256 : String
  vocabularyBinding : TaskSemanticVocabularyBinding
  workUnits : List SemanticWorkUnitContract
  edges : List SemanticDependencyEdge
  /-- Whether all work units are classified. -/
  status : GraphStatus
  reasonCodes : List String
  schemaVersion : String
  deriving DecidableEq

structure SemanticExecutionGraph extends GraphContent where
  semanticGraphId : String
  authoritySha256 : String
  deriving DecidableEq

/-- `SemanticGraphRevisionWorkUnitAddition`. -/
structure WorkUnitAddition where
  /-- The key by which edges refer to the unit. -/
  additionKey : String
  sourceStepIds : List String
  semanticGoal : String
  workModes : List String := []
  classificationStatus : ClassificationStatus := .unknown
  requiredCapabilities : List String := []
  requestedEffects : List String := []
  prohibitedEffects : List String := []
  expectedOutputs : List String := []
  sourceInputs : List (String × Json) := []
  required : Bool := true
  containsSideEffect : Bool := false
  deriving DecidableEq

/-- `SemanticGraphRevisionEdgeAddition`. -/
structure EdgeAddition where
  additionKey : String
  /-- The producer: the id of a unit, or `addition:` and a key. -/
  producerRef : String
  consumerRef : String
  /-- Why the consumer needs the producer. -/
  relation : SemanticEdgeRelation
  required : Bool := true
  sourceRefs : List String := []
  deriving DecidableEq

structure SemanticGraphRevisionProposal where
  proposalId : String
  parentGraphId : String
  parentGraphAuthoritySha256 : String
  parentRevisionId : Option String := none
  revisionNumber : ℤ
  reason : String
  provenance : List (String × Json)
  addWorkUnits : List WorkUnitAddition := []
  addEdges : List EdgeAddition := []
  removeEdgeIds : List String := []
  removeWorkUnitIds : List String := []
  schemaVersion : String := "semantic_graph_revision_proposal.v1"

/-- What the authority hash of a `SemanticGraphRevision` is computed from. -/
structure RevisionContent where
  revisionNumber : ℤ
  parentRevisionId : Option String
  parentGraphId : String
  parentGraphAuthoritySha256 : String
  childGraphId : String
  childGraphAuthoritySha256 : String
  revisionIntentSha256 : String
  reason : String
  provenance : List (String × Json)
  addedWorkUnitIds : List String
  addedEdgeIds : List String
  removedWorkUnitIds : List String
  removedEdgeIds : List String
  edgesRequiringDemandRecompile : List String
  schemaVersion : String := "semantic_graph_revision.v1"

structure SemanticGraphRevision extends RevisionContent where
  revisionId : String
  authoritySha256 : String

/-- What the authority hash of an `EdgeSemanticDemand` is computed from. -/
structure DemandContent where
  edgeId : String
  semanticGraphId : String
  semanticGraphAuthoritySha256 : String
  producerWorkUnitId : String
  consumerWorkUnitId : String
  vocabularyBinding : TaskSemanticVocabularyBinding
  /-- Whether only part of the demand is known. -/
  isPartial : Bool
  consumerRequiredCapabilities : List String
  requiredDownstreamUses : List String
  requiredUseSafety : List (String × List Json)
  requiredSemanticProperties : List (String × List Json)
  requiredEvidenceDomains : List String
  requiredUpstreamEffects : List String
  prohibitedUpstreamEffects : List String
  evidenceRequired : Bool
  baseConstraints : List String
  riskConstraints : List String
  sourceConsumerStepIds : List String
  sourceRefs : List String
  reasonCodes : List String
  schemaVersion : String := "edge_semantic_demand.v1"

structure EdgeSemanticDemand extends DemandContent where
  demandId : String
  authoritySha256 : String

/-- What the authority hash of a `SemanticOffer` is computed from. -/
structure OfferContent where
  semanticGraphId : String
  semanticGraphAuthoritySha256 : String
  producerWorkUnitId : String
  details : Json := .null

structure SemanticOffer extends OfferContent where
  offerId : String
  authoritySha256 : String

/-- `CompatibilityDecision` and `NWayJoinDecision`. -/
inductive Decision
  | admitted | admittedWithConstraints | blocked | insufficientEvidence
  deriving DecidableEq

/-- What the authority hash of an `OfferDemandCompatibility` is computed from. -/
structure CompatibilityContent where
  edgeId : String
  semanticGraphId : String
  semanticGraphAuthoritySha256 : String
  producerWorkUnitId : String
  consumerWorkUnitId : String
  offerId : String
  offerAuthoritySha256 : String
  demandId : String
  demandAuthoritySha256 : String
  /-- Whether the offer meets the demand. -/
  decision : Decision
  effectiveConstraints : List String := []
  disclosures : List String := []
  details : Json := .null

structure OfferDemandCompatibility extends CompatibilityContent where
  compatibilityId : String
  authoritySha256 : String

/-- What the authority hash of a `SemanticTopologyNeighborhood` is computed from. -/
structure NeighborhoodContent where
  semanticGraphId : String
  semanticGraphAuthoritySha256 : String
  workUnitId : String
  details : Json := .null

structure SemanticTopologyNeighborhood extends NeighborhoodContent where
  neighborhoodId : String
  authoritySha256 : String

/-- What the authority hash of a `SemanticJoinEvaluation` is computed from. -/
structure JoinContent where
  semanticGraphId : String
  semanticGraphAuthoritySha256 : String
  consumerWorkUnitId : String
  requiredEdgeIds : List String
  decision : Decision
  effectiveConstraints : List String := []
  disclosures : List String := []
  details : Json := .null

structure SemanticJoinEvaluation extends JoinContent where
  joinId : String
  authoritySha256 : String

/-- The contracts that are bound to the graph of a plan. -/
structure GraphContracts where
  edgeSemanticDemands : List EdgeSemanticDemand := []
  semanticOffers : List SemanticOffer := []
  offerDemandCompatibilities : List OfferDemandCompatibility := []
  /-- The units with the edges around them. -/
  semanticTopologyNeighborhoods : List SemanticTopologyNeighborhood := []
  semanticJoinEvaluations : List SemanticJoinEvaluation := []

structure SemanticGraphHistorySnapshot extends GraphContracts where
  snapshotId : String
  revisionId : Option String
  graph : SemanticExecutionGraph
  authoritySha256 : String
  schemaVersion : String := "semantic_graph_history_snapshot.v1"

/-- `TaskRunPlan`, as far as its semantics go. -/
structure SemanticPlan extends GraphContracts where
  planId : String
  canonicalExecutionPlan : Option CanonicalExecutionPlan := none
  taskSemanticVocabulary : Option TaskSemanticVocabulary := none
  semanticExecutionGraph : Option SemanticExecutionGraph := none
  semanticGraphRevisions : List SemanticGraphRevision := []
  semanticGraphHistory : List SemanticGraphHistorySnapshot := []
  activeSemanticGraphRevisionId : Option String := none
  metadata : List (String × Json) := []

/-- `TaskRun`, as far as the semantic services read it. -/
structure SemanticRun where
  runId : String
  taskId : String
  plan : SemanticPlan

/-- The payloads whose `stable_sha256` gives the id of a work unit. -/
inductive WorkUnitIdentity
  | compiled (taskRunId vocabularySha256 : String) (sourceStepIds : List String)
  | revised (parentSha256 : String) (revisionNumber : ℤ) (addition : WorkUnitAddition)

/-- The payloads whose `stable_sha256` gives the id of an edge. -/
inductive EdgeIdentity
  | compiled (taskRunId producer consumer : String) (relation : SemanticEdgeRelation)
  | revised (parentSha256 : String) (revisionNumber : ℤ) (additionKey producer consumer : String)
    (relation : SemanticEdgeRelation) (required : Bool)

/-- The hashes of the authority services: each is `stable_sha256` of a payload, cut to 24
digits where it makes an id. -/
structure SemanticHashes where
  vocabulary : VocabularyContent → String
  source : CanonicalExecutionPlan → TaskSemanticVocabularyBinding → String
  graph : GraphContent → String
  graphId : GraphContent → String
  workUnitId : WorkUnitIdentity → String
  edgeId : EdgeIdentity → String
  intent : SemanticGraphRevisionProposal → String
  /-- The hash of the source of a revised graph: of its parent's source, of its parent and
  of the proposal. -/
  childSource : String → String → String → String
  revision : RevisionContent → String
  revisionId : RevisionContent → String
  demand : DemandContent → String
  demandId : DemandContent → String
  offer : OfferContent → String
  compatibility : CompatibilityContent → String
  neighborhood : NeighborhoodContent → String
  join : JoinContent → String
  snapshot : SemanticGraphHistorySnapshot → String
  snapshotId : SemanticGraphHistorySnapshot → String

/-- `TaskSemanticVocabularyAuthorityService.verify`. -/
def SemanticHashes.verifyVocabulary (hashes : SemanticHashes)
    (vocabulary : TaskSemanticVocabulary) : Bool :=
  hashes.vocabulary vocabulary.toVocabularyContent = vocabulary.authoritySha256

/-- `SemanticExecutionGraphAuthorityService.verify`. -/
def SemanticHashes.verifyGraph (hashes : SemanticHashes) (graph : SemanticExecutionGraph) : Bool :=
  hashes.graph graph.toGraphContent = graph.authoritySha256

/-- The ids of the concepts of a type, as `governed_view` lists them. -/
def governedIds (vocabulary : TaskSemanticVocabulary) (type : SemanticConceptType) : List String :=
  ((vocabulary.concepts.filter (·.conceptType = type)).map (·.conceptId)).insertionSort
    fun a b => a ≤ b

end AIpinho.Semantics
