import AIpinho.Lib.Digraph
import AIpinho.Semantics.Plan
import Mathlib.Data.Rat.Defs

/-!
# Compiling semantic execution graphs

`SemanticExecutionGraphCompilerService` builds the graph of a plan, with one work unit for each
step or from a proposed grouping that covers the steps, realises their dependencies and has no
cycle.
-/

namespace AIpinho.Semantics

open Lib
open AIpinho.Runtime (isSpace)

structure SemanticWorkUnitCandidate where
  unitKey : String
  sourceStepIds : List String
  semanticGoal : String
  workModes : List String
  requiredCapabilities : List String := []
  requestedEffects : List String := []
  prohibitedEffects : List String := []

structure SemanticDependencyEdgeCandidate where
  producerUnitKey : String
  consumerUnitKey : String
  relation : SemanticEdgeRelation
  /-- Whether the consumer cannot do without. -/
  required : Bool := true
  deriving DecidableEq

structure SemanticWorkDecompositionCandidate where
  workUnits : List SemanticWorkUnitCandidate
  edges : List SemanticDependencyEdgeCandidate
  confidence : ℚ
  rationale : String

/-- `_context`. -/
structure CompilerContext where
  run : SemanticRun
  canonical : CanonicalExecutionPlan
  vocabularyBinding : TaskSemanticVocabularyBinding
  workModes : List String
  effects : List String
  capabilities : List String
  /-- The hash of what the graph is made from. -/
  sourceSemanticsSha256 : String

variable (hashes : SemanticHashes)

/-- `_context`, with the code of what is missing. -/
def compilerContext (run : SemanticRun) : Except String CompilerContext :=
  match run.plan.canonicalExecutionPlan, run.plan.taskSemanticVocabulary with
  | none, _ => .error "SEMANTIC_WORK_GRAPH_CANONICAL_PLAN_REQUIRED"
  | some _, none => .error "SEMANTIC_WORK_GRAPH_TASK_VOCABULARY_REQUIRED"
  | some canonical, some vocabulary => do
    let stepIds := canonical.executionSteps.map (·.stepId)
    demand (hashes.verifyVocabulary vocabulary)
      "SEMANTIC_WORK_GRAPH_TASK_VOCABULARY_AUTHORITY_INVALID"
    demand (stepIds ≠ []) "SEMANTIC_WORK_GRAPH_CANONICAL_STEPS_REQUIRED"
    demand ((stepIds.filter (· ≠ "")).dedup.length = stepIds.length)
      "SEMANTIC_WORK_GRAPH_SOURCE_STEP_IDS_INVALID"
    .ok {
      run := run
      canonical := canonical
      vocabularyBinding := vocabulary.binding
      workModes := governedIds vocabulary .workMode
      effects := governedIds vocabulary .effect
      capabilities := governedIds vocabulary .capability
      sourceSemanticsSha256 := hashes.source canonical vocabulary.binding }

namespace CompilerContext

variable (context : CompilerContext)

def steps : List CanonicalExecutionStep :=
  context.canonical.executionSteps

/-- `steps_by_id`. -/
def step? (stepId : String) : Option CanonicalExecutionStep :=
  context.steps.find? fun step => step.stepId = stepId

def dependencies : List (String × String) :=
  context.steps.flatMap fun step => step.dependsOn.map fun source => (source, step.stepId)

variable (hashes : SemanticHashes)

def workUnit (context : CompilerContext) (sourceStepIds : List String) (semanticGoal : String)
    (workModes : List String) (status : ClassificationStatus)
    (capabilities requestedEffects prohibitedEffects : List String) : SemanticWorkUnitContract :=
  let stepIds := sourceStepIds.eraseDups.insertionSort fun a b => a ≤ b
  let steps := stepIds.filterMap context.step?
  { workUnitId := "semantic_work_unit_" ++ hashes.workUnitId
      (.compiled context.run.runId context.vocabularyBinding.authoritySha256 stepIds)
    sourceStepIds := stepIds
    semanticGoal := semanticGoal
    workModes := workModes
    classificationStatus := status
    requiredCapabilities := capabilities
    requestedEffects := requestedEffects
    prohibitedEffects := prohibitedEffects
    expectedOutputs := ((steps.flatMap (·.expectedOutputs)).filter (· ≠ "")).eraseDups
    sourceInputs := (steps.filter fun step => !step.inputs.isEmpty).map fun step =>
      (step.stepId, .obj step.inputs)
    required := steps.any (·.required)
    containsSideEffect := steps.any (·.sideEffect)
    vocabularyBinding := context.vocabularyBinding }

def edge (context : CompilerContext) (producer consumer : String)
    (relation : SemanticEdgeRelation) (required : Bool) (sourceRefs : List String) :
    SemanticDependencyEdge where
  edgeId := "semantic_edge_" ++
    hashes.edgeId (.compiled context.run.runId producer consumer relation)
  producerWorkUnitId := producer
  consumerWorkUnitId := consumer
  relation := relation
  required := required
  sourceRefs := sourceRefs

def freezeGraph (context : CompilerContext) (workUnits : List SemanticWorkUnitContract)
    (edges : List SemanticDependencyEdge) (status : GraphStatus) (reasonCodes : List String) :
    SemanticExecutionGraph :=
  let content : GraphContent := {
    taskRunId := context.run.runId
    taskId := if context.run.taskId = "" then none else some context.run.taskId
    sourcePlanId := context.run.plan.planId
    sourceExecutionId := context.canonical.executionId
    sourceSemanticsSha256 := context.sourceSemanticsSha256
    vocabularyBinding := context.vocabularyBinding
    workUnits := workUnits
    edges := edges
    status := status
    reasonCodes := reasonCodes
    schemaVersion := "semantic_execution_graph.v1" }
  { content with
    semanticGraphId := "semantic_execution_graph_" ++ hashes.graphId content
    authoritySha256 := hashes.graph content }

end CompilerContext

variable (str : Json → String)

/-- `_is_acyclic`. -/
def isAcyclicGraph (workUnits : List SemanticWorkUnitContract)
    (edges : List SemanticDependencyEdge) : Bool :=
  Digraph.isAcyclic (workUnits.map (·.workUnitId))
    (edges.map fun edge => (edge.producerWorkUnitId, edge.consumerWorkUnitId))

/-- `_string_list`, for a `str` of JSON values. -/
def stringList : Option Json → List String
  | some (.list items) => ((items.map str).filter (· ≠ "")).eraseDups
  | _ => []

def structuralGoal (step : CanonicalExecutionStep) : String :=
  let goal := (step.metadata.lookup "semantic_goal").getD .null
  if goal.truthy then str goal
  else if step.action ≠ "" then step.action
  else if step.stepType ≠ "" then step.stepType
  else step.stepId

/-- The body of the loop of `compile_structural_for_run`. -/
def structuralUnit (context : CompilerContext) (step : CanonicalExecutionStep) :
    Except String SemanticWorkUnitContract := do
  let modes := stringList str (step.metadata.lookup "work_modes")
  let requested := stringList str (step.metadata.lookup "requested_effects")
  let prohibited := stringList str (step.metadata.lookup "prohibited_effects")
  demand (∀ mode ∈ modes, mode ∈ context.workModes)
    "SEMANTIC_WORK_GRAPH_EXPLICIT_WORK_MODE_UNGOVERNED"
  demand (∀ effect ∈ requested ++ prohibited, effect ∈ context.effects)
    "SEMANTIC_WORK_GRAPH_EXPLICIT_EFFECT_UNGOVERNED"
  demand (∀ capability ∈ step.requiredCapabilities, capability ∈ context.capabilities)
    "SEMANTIC_WORK_GRAPH_CAPABILITY_UNGOVERNED"
  demand (step.stepId ≠ "") "SEMANTIC_WORK_GRAPH_SOURCE_STEP_ID_REQUIRED"
  .ok (context.workUnit hashes [step.stepId] (structuralGoal str step) modes
    (if modes.isEmpty then .unknown else .explicit) step.requiredCapabilities requested
    prohibited)

/-- `step_to_unit`: the last unit that stands for a step. -/
def unitOfStep? (workUnits : List SemanticWorkUnitContract) (stepId : String) :
    Option SemanticWorkUnitContract :=
  workUnits.reverse.find? fun unit => unit.sourceStepIds.contains stepId

/-- The loops of `_explicit_dependency_edges`. -/
def dependencyEdges (hashes : SemanticHashes) (context : CompilerContext)
    (workUnits : List SemanticWorkUnitContract) :
    List SemanticDependencyEdge → List (String × String) →
      Except String (List SemanticDependencyEdge)
  | edges, [] => .ok edges
  | edges, (sourceId, targetId) :: dependencies =>
    match unitOfStep? workUnits sourceId, unitOfStep? workUnits targetId with
    | some source, some target =>
      if source.workUnitId = target.workUnitId ||
          edges.any fun edge => (edge.producerWorkUnitId, edge.consumerWorkUnitId) =
            (source.workUnitId, target.workUnitId) then
        dependencyEdges hashes context workUnits edges dependencies
      else
        dependencyEdges hashes context workUnits
          (edges ++ [context.edge hashes source.workUnitId target.workUnitId
            .orderingConstraint true
            ["canonical_execution_step:" ++ targetId ++ ":depends_on:" ++ sourceId]]) dependencies
    | _, _ => .error "SEMANTIC_WORK_GRAPH_EXPLICIT_DEPENDENCY_UNKNOWN"

/-- `compile_structural_for_run`: the graph, or the reason code of the refusal. -/
def compileStructural (run : SemanticRun) : Except String SemanticExecutionGraph := do
  let context ← compilerContext hashes run
  let workUnits ← context.steps.mapM (structuralUnit hashes str context)
  let edges ← dependencyEdges hashes context workUnits [] context.dependencies
  demand (isAcyclicGraph workUnits edges) "SEMANTIC_WORK_GRAPH_EXPLICIT_DEPENDENCY_CYCLE"
  let unknown := workUnits.filter fun unit => unit.classificationStatus = .unknown
  .ok (context.freezeGraph hashes workUnits edges
    (if unknown.isEmpty then .ready else .partially)
    (unknown.map fun unit => "semantic_work_mode_unknown:" ++ unit.workUnitId))

def minimumConfidence : ℚ := 65 / 100

def capabilitiesForSteps (context : CompilerContext) (sourceStepIds : List String) : List String :=
  ((sourceStepIds.filterMap context.step?).flatMap fun step =>
    step.requiredCapabilities.filter (· ≠ "")).eraseDups

abbrev KeyedUnits := List (String × SemanticWorkUnitContract)

def KeyedUnits.coverage? (units : KeyedUnits) (stepId : String) : Option String :=
  (units.find? fun entry => entry.2.sourceStepIds.contains stepId).map Prod.fst

/-- The body of the loop of `compile_candidate_for_run` over the proposed units. -/
def compileUnit (context : CompilerContext) (units : KeyedUnits)
    (proposed : SemanticWorkUnitCandidate) : Except String KeyedUnits := do
  let key := strip isSpace proposed.unitKey
  let sourceStepIds := proposed.sourceStepIds.eraseDups
  let capabilities := capabilitiesForSteps context sourceStepIds
  demand (isConceptId key ∧ key ∉ units.map Prod.fst)
    "SEMANTIC_WORK_DECOMPOSITION_UNIT_KEY_INVALID"
  demand (sourceStepIds ≠ []) "SEMANTIC_WORK_DECOMPOSITION_SOURCE_STEPS_REQUIRED"
  demand (∀ stepId ∈ sourceStepIds, (context.step? stepId).isSome)
    "SEMANTIC_WORK_DECOMPOSITION_SOURCE_STEP_UNKNOWN"
  demand (∀ stepId ∈ sourceStepIds, units.coverage? stepId = none)
    "SEMANTIC_WORK_DECOMPOSITION_SOURCE_STEP_DUPLICATED"
  demand (proposed.workModes ≠ []) "SEMANTIC_WORK_DECOMPOSITION_WORK_MODE_REQUIRED"
  demand (∀ mode ∈ proposed.workModes, mode ∈ context.workModes)
    "SEMANTIC_WORK_DECOMPOSITION_WORK_MODE_UNGOVERNED"
  demand ((∀ capability ∈ proposed.requiredCapabilities, capability ∈ capabilities) ∧
      ∀ capability ∈ capabilities, capability ∈ proposed.requiredCapabilities)
    "SEMANTIC_WORK_DECOMPOSITION_CAPABILITY_MISMATCH"
  demand (∀ effect ∈ proposed.requestedEffects ++ proposed.prohibitedEffects,
      effect ∈ context.effects)
    "SEMANTIC_WORK_DECOMPOSITION_EFFECT_UNGOVERNED"
  demand (strip isSpace proposed.semanticGoal ≠ "")
    "SEMANTIC_WORK_DECOMPOSITION_GOAL_REQUIRED"
  .ok (units ++ [(key, context.workUnit hashes sourceStepIds
    (strip isSpace proposed.semanticGoal) proposed.workModes.eraseDups .interpreted capabilities
    proposed.requestedEffects.eraseDups proposed.prohibitedEffects.eraseDups)])

def compileUnits (hashes : SemanticHashes) (context : CompilerContext) :
    KeyedUnits → List SemanticWorkUnitCandidate → Except String KeyedUnits
  | units, [] => .ok units
  | units, proposed :: rest => do
    let units ← compileUnit hashes context units proposed
    compileUnits hashes context units rest

def compileEdges (hashes : SemanticHashes) (context : CompilerContext) (units : KeyedUnits) :
    List SemanticDependencyEdge → List SemanticDependencyEdgeCandidate →
      Except String (List SemanticDependencyEdge)
  | edges, [] => .ok edges
  | edges, proposed :: rest =>
    match List.lookup proposed.producerUnitKey units,
        List.lookup proposed.consumerUnitKey units with
    | some producer, some consumer =>
      if producer.workUnitId = consumer.workUnitId then
        .error "SEMANTIC_WORK_DECOMPOSITION_SELF_EDGE_INVALID"
      else if (edges.map (·.signature)).contains
          (producer.workUnitId, consumer.workUnitId, proposed.relation) then
        compileEdges hashes context units edges rest
      else
        compileEdges hashes context units
          (edges ++ [context.edge hashes producer.workUnitId consumer.workUnitId
            proposed.relation proposed.required ["semantic_work_decomposition_candidate"]]) rest
    | _, _ => .error "SEMANTIC_WORK_DECOMPOSITION_EDGE_UNIT_UNKNOWN"

def isRealised (units : KeyedUnits) (edges : List SemanticDependencyEdge)
    (dependency : String × String) : Bool :=
  match (units.coverage? dependency.1).bind fun key => List.lookup key units,
      (units.coverage? dependency.2).bind fun key => List.lookup key units with
  | some source, some target =>
    source.workUnitId = target.workUnitId ||
      edges.any fun edge => (edge.producerWorkUnitId, edge.consumerWorkUnitId) =
        (source.workUnitId, target.workUnitId)
  | _, _ => false

def missingExplicitDependencies (context : CompilerContext) (units : KeyedUnits)
    (edges : List SemanticDependencyEdge) : List (String × String) :=
  context.dependencies.filter fun dependency => !isRealised units edges dependency

/-- `compile_candidate_for_run`: the graph, or the reason code of the refusal. -/
def compileCandidate (run : SemanticRun) (candidate : SemanticWorkDecompositionCandidate) :
    Except String SemanticExecutionGraph := do
  let context ← compilerContext hashes run
  demand (¬candidate.confidence < minimumConfidence)
    "SEMANTIC_WORK_DECOMPOSITION_CONFIDENCE_INSUFFICIENT"
  demand (strip isSpace candidate.rationale ≠ "")
    "SEMANTIC_WORK_DECOMPOSITION_RATIONALE_REQUIRED"
  demand (candidate.workUnits ≠ []) "SEMANTIC_WORK_DECOMPOSITION_UNITS_REQUIRED"
  let units ← compileUnits hashes context [] candidate.workUnits
  demand (∀ step ∈ context.steps, (units.coverage? step.stepId).isSome)
    "SEMANTIC_WORK_DECOMPOSITION_SOURCE_STEP_COVERAGE_INCOMPLETE"
  let edges ← compileEdges hashes context units [] candidate.edges
  demand (missingExplicitDependencies context units edges = [])
    "SEMANTIC_WORK_DECOMPOSITION_EXPLICIT_DEPENDENCY_MISSING"
  demand (isAcyclicGraph (units.map Prod.snd) edges)
    "SEMANTIC_WORK_DECOMPOSITION_CYCLE_DETECTED"
  .ok (context.freezeGraph hashes (units.map Prod.snd) edges .ready [])

end AIpinho.Semantics
