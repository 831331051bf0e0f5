import AIpinho.Lib.Table
import AIpinho.Semantics.Compiler

/-!
# Revisions of semantic execution graphs

`SemanticGraphRevisionService.apply` takes the graph of a plan and a proposal and makes a child
graph and the record of the revision, or refuses. The plan itself is not changed.
-/

namespace AIpinho.Semantics

open Lib
open AIpinho.Runtime (isSpace)

def validateWorkUnitAddition (vocabulary : TaskSemanticVocabulary) (addition : WorkUnitAddition) :
    Except String Unit := do
  demand (strip isSpace addition.semanticGoal ≠ "") "GRAPH_REVISION_WORK_UNIT_GOAL_REQUIRED"
  demand (addition.sourceStepIds ≠ []) "GRAPH_REVISION_SOURCE_STEP_REQUIRED"
  demand addition.sourceStepIds.Nodup "GRAPH_REVISION_SOURCE_STEP_DUPLICATED"
  demand (∀ mode ∈ addition.workModes, mode ∈ governedIds vocabulary .workMode)
    "GRAPH_REVISION_WORK_MODE_UNGOVERNED"
  demand (∀ capability ∈ addition.requiredCapabilities,
      capability ∈ governedIds vocabulary .capability)
    "GRAPH_REVISION_CAPABILITY_UNGOVERNED"
  demand (∀ effect ∈ addition.requestedEffects ++ addition.prohibitedEffects,
      effect ∈ governedIds vocabulary .effect)
    "GRAPH_REVISION_EFFECT_UNGOVERNED"

variable (hashes : SemanticHashes)

variable (parent : SemanticExecutionGraph)

variable (proposal : SemanticGraphRevisionProposal)

def materializeWorkUnit (addition : WorkUnitAddition) : SemanticWorkUnitContract where
  workUnitId := "semantic_work_unit_" ++ hashes.workUnitId
    (.revised parent.authoritySha256 proposal.revisionNumber addition)
  sourceStepIds := addition.sourceStepIds
  semanticGoal := strip isSpace addition.semanticGoal
  workModes := addition.workModes.eraseDups
  classificationStatus := addition.classificationStatus
  requiredCapabilities := addition.requiredCapabilities.eraseDups
  requestedEffects := addition.requestedEffects.eraseDups
  prohibitedEffects := addition.prohibitedEffects.eraseDups
  expectedOutputs := addition.expectedOutputs.eraseDups
  sourceInputs := addition.sourceInputs
  required := addition.required
  containsSideEffect := addition.containsSideEffect
  vocabularyBinding := parent.vocabularyBinding

def addUnits (hashes : SemanticHashes) (parent : SemanticExecutionGraph)
    (vocabulary : TaskSemanticVocabulary) (proposal : SemanticGraphRevisionProposal) :
    KeyedUnits → List WorkUnitAddition → Except String KeyedUnits
  | added, [] => .ok added
  | added, addition :: rest => do
    demand (isConceptId addition.additionKey ∧ addition.additionKey ∉ added.map Prod.fst)
      "GRAPH_REVISION_WORK_UNIT_ADDITION_KEY_INVALID"
    validateWorkUnitAddition vocabulary addition
    addUnits hashes parent vocabulary proposal
      (added ++ [(addition.additionKey, materializeWorkUnit hashes parent proposal addition)]) rest

def resolveUnitRef (existing : Table String SemanticWorkUnitContract) (added : KeyedUnits)
    (ref : String) : Option SemanticWorkUnitContract :=
  if "addition:".toList.isPrefixOf ref.toList then
    List.lookup (String.ofList (ref.toList.drop "addition:".length)) added
  else existing.get? ref

def materializeEdge (existing : Table String SemanticWorkUnitContract) (added : KeyedUnits)
    (addition : EdgeAddition) : Except String SemanticDependencyEdge :=
  match resolveUnitRef existing added addition.producerRef,
      resolveUnitRef existing added addition.consumerRef with
  | some producer, some consumer => do
    demand (producer.workUnitId ≠ consumer.workUnitId) "GRAPH_REVISION_SELF_EDGE_INVALID"
    .ok {
      edgeId := "semantic_edge_" ++ hashes.edgeId (.revised parent.authoritySha256
        proposal.revisionNumber addition.additionKey producer.workUnitId consumer.workUnitId
        addition.relation addition.required)
      producerWorkUnitId := producer.workUnitId
      consumerWorkUnitId := consumer.workUnitId
      relation := addition.relation
      required := addition.required
      sourceRefs :=
        (addition.sourceRefs ++ ["semantic_graph_revision:" ++ proposal.proposalId]).eraseDups }
  | _, _ => .error "GRAPH_REVISION_EDGE_UNIT_UNKNOWN"

abbrev KeyedEdges := List (String × SemanticDependencyEdge)

def addEdges (hashes : SemanticHashes) (parent : SemanticExecutionGraph)
    (proposal : SemanticGraphRevisionProposal)
    (existing : Table String SemanticWorkUnitContract) (units : KeyedUnits)
    (existingEdges : List SemanticDependencyEdge) :
    KeyedEdges → List EdgeAddition → Except String KeyedEdges
  | added, [] => .ok added
  | added, addition :: rest => do
    demand (isConceptId addition.additionKey ∧ addition.additionKey ∉ added.map Prod.fst)
      "GRAPH_REVISION_EDGE_ADDITION_KEY_INVALID"
    let edge ← materializeEdge hashes parent proposal existing units addition
    demand (edge.signature ∉ (existingEdges ++ added.map Prod.snd).map (·.signature))
      "GRAPH_REVISION_DUPLICATE_EDGE"
    addEdges hashes parent proposal existing units existingEdges
      (added ++ [(addition.additionKey, edge)]) rest

/-- `_is_acyclic`, the copy in the revision service. -/
def isAcyclicRevision (workUnits : List SemanticWorkUnitContract)
    (edges : List SemanticDependencyEdge) : Bool :=
  Digraph.isAcyclic (workUnits.map (·.workUnitId))
    (edges.map fun edge => (edge.producerWorkUnitId, edge.consumerWorkUnitId))

/-- What `_validate_and_prepare` hands on. -/
structure PreparedRevision where
  addedUnits : List SemanticWorkUnitContract
  finalUnits : List SemanticWorkUnitContract
  addedEdges : List SemanticDependencyEdge
  finalEdges : List SemanticDependencyEdge

/-- `_validate_and_prepare`. -/
def prepareRevision (vocabulary : TaskSemanticVocabulary)
    (proposal : SemanticGraphRevisionProposal) :
    Except String PreparedRevision := do
  let workUnits := Table.ofItems (·.workUnitId) parent.workUnits
  let edges := Table.ofItems (·.edgeId) parent.edges
  demand proposal.removeEdgeIds.Nodup "GRAPH_REVISION_DUPLICATE_EDGE_REMOVAL"
  demand proposal.removeWorkUnitIds.Nodup "GRAPH_REVISION_DUPLICATE_WORK_UNIT_REMOVAL"
  demand (∀ edgeId ∈ proposal.removeEdgeIds, (edges.get? edgeId).isSome)
    "GRAPH_REVISION_REMOVE_EDGE_UNKNOWN"
  demand (∀ unitId ∈ proposal.removeWorkUnitIds, (workUnits.get? unitId).isSome)
    "GRAPH_REVISION_REMOVE_WORK_UNIT_UNKNOWN"
  demand (∀ unitId ∈ proposal.removeWorkUnitIds, ∀ edge ∈ parent.edges,
      edge.producerWorkUnitId = unitId ∨ edge.consumerWorkUnitId = unitId →
        edge.edgeId ∈ proposal.removeEdgeIds)
    "GRAPH_REVISION_WORK_UNIT_HAS_UNREMOVED_EDGES"
  let added ← addUnits hashes parent vocabulary proposal [] proposal.addWorkUnits
  let remaining := workUnits.keep fun unitId => unitId ∉ proposal.removeWorkUnitIds
  let final := Table.insertAll (·.workUnitId) remaining (added.map Prod.snd)
  demand (final.entries.length = remaining.entries.length + added.length)
    "GRAPH_REVISION_WORK_UNIT_ID_COLLISION"
  demand (final.values.flatMap (·.sourceStepIds)).Nodup "GRAPH_REVISION_SOURCE_STEP_DUPLICATED"
  let existingEdges := (edges.keep fun edgeId => edgeId ∉ proposal.removeEdgeIds).values
  let addedEdges ←
    addEdges hashes parent proposal remaining added existingEdges [] proposal.addEdges
  let finalEdges := existingEdges ++ addedEdges.map Prod.snd
  demand (isAcyclicRevision final.values finalEdges) "GRAPH_REVISION_CYCLE_DETECTED"
  .ok ⟨added.map Prod.snd, final.values, addedEdges.map Prod.snd, finalEdges⟩

def buildChild (prepared : PreparedRevision) : SemanticExecutionGraph :=
  let workUnits := prepared.finalUnits.insertionSort fun a b => a.workUnitId ≤ b.workUnitId
  let unknown := workUnits.filter fun unit => unit.classificationStatus = .unknown
  let content : GraphContent := {
    taskRunId := parent.taskRunId
    taskId := parent.taskId
    sourcePlanId := parent.sourcePlanId
    sourceExecutionId := parent.sourceExecutionId
    sourceSemanticsSha256 := hashes.childSource parent.sourceSemanticsSha256
      parent.authoritySha256 (hashes.intent proposal)
    vocabularyBinding := parent.vocabularyBinding
    workUnits := workUnits
    edges := prepared.finalEdges.insertionSort fun a b => a.edgeId ≤ b.edgeId
    status := if unknown.isEmpty then .ready else .partially
    reasonCodes := unknown.map fun unit => "semantic_work_mode_unknown:" ++ unit.workUnitId
    schemaVersion := parent.schemaVersion }
  { content with
    semanticGraphId := "semantic_execution_graph_" ++ hashes.graphId content
    authoritySha256 := hashes.graph content }

def buildRevision (child : SemanticExecutionGraph) (proposal : SemanticGraphRevisionProposal)
    (prepared : PreparedRevision) : SemanticGraphRevision :=
  let sorted : List String → List String := fun ids => ids.insertionSort fun a b => a ≤ b
  let content : RevisionContent := {
    revisionNumber := proposal.revisionNumber
    parentRevisionId := proposal.parentRevisionId
    parentGraphId := parent.semanticGraphId
    parentGraphAuthoritySha256 := parent.authoritySha256
    childGraphId := child.semanticGraphId
    childGraphAuthoritySha256 := child.authoritySha256
    revisionIntentSha256 := hashes.intent proposal
    reason := strip isSpace proposal.reason
    provenance := proposal.provenance
    addedWorkUnitIds := sorted (prepared.addedUnits.map (·.workUnitId))
    addedEdgeIds := sorted (prepared.addedEdges.map (·.edgeId))
    removedWorkUnitIds := sorted proposal.removeWorkUnitIds
    removedEdgeIds := sorted proposal.removeEdgeIds
    edgesRequiringDemandRecompile := sorted (child.edges.map (·.edgeId)) }
  { content with
    revisionId := "semantic_graph_revision_" ++ hashes.revisionId content
    authoritySha256 := hashes.revision content }

def SemanticExecutionGraph.ref (graph : SemanticExecutionGraph) : String × String :=
  (graph.semanticGraphId, graph.authoritySha256)

/-- The statuses of a `SemanticGraphRevisionApplication`. -/
inductive ApplicationStatus
  | applied | blocked | insufficientContractEvidence
  deriving DecidableEq

structure SemanticGraphRevisionApplication where
  status : ApplicationStatus
  revision : Option SemanticGraphRevision := none
  childGraph : Option SemanticExecutionGraph := none
  reasonCodes : List String := []

variable (plan : SemanticPlan)

def SemanticPlan.nextRevision : ℤ × Option String :=
  match plan.semanticGraphRevisions.getLast? with
  | some last => (last.revisionNumber + 1, some last.revisionId)
  | none => (1, none)

/-- The checks of `apply` on a proposal for a graph. -/
def checkProposal (parent : SemanticExecutionGraph) (proposal : SemanticGraphRevisionProposal) :
    Except String Unit := do
  demand (proposal.parentGraphId = parent.semanticGraphId ∧
      proposal.parentGraphAuthoritySha256 = parent.authoritySha256)
    "GRAPH_REVISION_PARENT_BINDING_MISMATCH"
  demand (∀ last ∈ plan.semanticGraphRevisions.getLast?,
      plan.activeSemanticGraphRevisionId = some last.revisionId)
    "GRAPH_REVISION_ACTIVE_HISTORY_MISMATCH"
  demand (proposal.revisionNumber = plan.nextRevision.1) "GRAPH_REVISION_NUMBER_INVALID"
  demand (proposal.parentRevisionId = plan.nextRevision.2)
    "GRAPH_REVISION_PARENT_REVISION_MISMATCH"
  demand (strip isSpace proposal.reason ≠ "") "GRAPH_REVISION_REASON_REQUIRED"
  demand (!proposal.provenance.isEmpty) "GRAPH_REVISION_PROVENANCE_REQUIRED"
  demand (!(proposal.addWorkUnits.isEmpty && proposal.addEdges.isEmpty &&
      proposal.removeEdgeIds.isEmpty && proposal.removeWorkUnitIds.isEmpty))
    "GRAPH_REVISION_NO_CHANGES"

/-- The graph and the vocabulary that `apply` revises. -/
def revisionParent : Except String (SemanticExecutionGraph × TaskSemanticVocabulary) :=
  match plan.semanticExecutionGraph with
  | none => .error "GRAPH_REVISION_PARENT_GRAPH_REQUIRED"
  | some parent => do
    demand (hashes.verifyGraph parent) "GRAPH_REVISION_PARENT_GRAPH_AUTHORITY_INVALID"
    match plan.taskSemanticVocabulary with
    | none => .error "GRAPH_REVISION_VOCABULARY_REQUIRED"
    | some vocabulary => do
      demand (hashes.verifyVocabulary vocabulary) "GRAPH_REVISION_VOCABULARY_AUTHORITY_INVALID"
      demand (parent.vocabularyBinding = vocabulary.binding)
        "GRAPH_REVISION_VOCABULARY_BINDING_MISMATCH"
      .ok (parent, vocabulary)

/-- `apply`. -/
def applyRevision (proposal : SemanticGraphRevisionProposal) : SemanticGraphRevisionApplication :=
  match revisionParent hashes plan with
  | .error reason => { status := .insufficientContractEvidence, reasonCodes := [reason] }
  | .ok (parent, vocabulary) =>
    match checkProposal plan parent proposal with
    | .error reason => { status := .blocked, reasonCodes := [reason] }
    | .ok () =>
      match prepareRevision hashes parent vocabulary proposal with
      | .error reason => { status := .blocked, reasonCodes := [reason] }
      | .ok prepared =>
        let child := buildChild hashes parent proposal prepared
        { status := .applied
          revision := some (buildRevision hashes parent child proposal prepared)
          childGraph := some child }

def SemanticPlan.revised (revision : SemanticGraphRevision) (child : SemanticExecutionGraph) :
    SemanticPlan :=
  { plan with
    semanticExecutionGraph := some child
    semanticGraphRevisions := plan.semanticGraphRevisions ++ [revision]
    activeSemanticGraphRevisionId := some revision.revisionId }

/-- A call of `apply`: the graph of the plan and the proposal. -/
structure RevisionCall where
  parent : SemanticExecutionGraph
  proposal : SemanticGraphRevisionProposal

/-- A chain of calls whose revisions were applied, from one plan to another. -/
inductive Revisions (hashes : SemanticHashes) :
    SemanticPlan → List RevisionCall → SemanticPlan → Prop
  | nil (plan : SemanticPlan) : Revisions hashes plan [] plan
  | cons {plan last : SemanticPlan} {call : RevisionCall} {calls : List RevisionCall}
      {revision : SemanticGraphRevision} {child : SemanticExecutionGraph}
      (hparent : plan.semanticExecutionGraph = some call.parent)
      (happlied : applyRevision hashes plan call.proposal =
        { status := .applied, revision := some revision, childGraph := some child })
      (hrest : Revisions hashes (plan.revised revision child) calls last) :
      Revisions hashes plan (call :: calls) last

end AIpinho.Semantics
