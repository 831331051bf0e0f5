import AIpinho.Runtime.PayloadRefs

/-!
# Task runs

A run with its plan, the phases and the graph nodes that mirror its steps, and the result.
Everything in the document that no modelled service reads is one JSON value.
-/

namespace AIpinho.Runtime

open Lib

inductive TaskRunStatus
  | created | queued | waitingDelegation | running | waitingInput
  | completed | partially | failed | cancelled | blocked | expired
  deriving DecidableEq

def TaskRunStatus.text : TaskRunStatus → String
  | .created => "created"
  | .queued => "queued"
  | .waitingDelegation => "waiting_delegation"
  | .running => "running"
  | .waitingInput => "waiting_input"
  | .completed => "completed"
  | .partially => "partial"
  | .failed => "failed"
  | .cancelled => "cancelled"
  | .blocked => "blocked"
  | .expired => "expired"

/-- The status of a step. An executor may report any text; `other` holds one
that `TaskRunStepStatus` does not list. -/
inductive StepStatus
  | pending | running | completed | partially | failed | skipped | blocked | cancelled
  | other (text : String)
  deriving DecidableEq

def StepStatus.text : StepStatus → String
  | .pending => "pending"
  | .running => "running"
  | .completed => "completed"
  | .partially => "partial"
  | .failed => "failed"
  | .skipped => "skipped"
  | .blocked => "blocked"
  | .cancelled => "cancelled"
  | .other text => text

/-- The status of a workflow phase. -/
inductive PhaseStatus
  | pending | running | completed | partially | skipped | blocked | failed | cancelled
  deriving DecidableEq

def PhaseStatus.text : PhaseStatus → String
  | .pending => "pending"
  | .running => "running"
  | .completed => "completed"
  | .partially => "partial"
  | .skipped => "skipped"
  | .blocked => "blocked"
  | .failed => "failed"
  | .cancelled => "cancelled"

/-- The status of a workflow. -/
inductive WorkflowStatus
  | created | running | completed | blocked | failed
  deriving DecidableEq

/-- `ExecutionNodeStatus`. -/
inductive NodeStatus
  | pending | ready | waiting | running | completed | partially | blocked | failed | cancelled
  | skipped | timeout
  deriving DecidableEq

def NodeStatus.text : NodeStatus → String
  | .pending => "pending"
  | .ready => "ready"
  | .waiting => "waiting"
  | .running => "running"
  | .completed => "completed"
  | .partially => "partial"
  | .blocked => "blocked"
  | .failed => "failed"
  | .cancelled => "cancelled"
  | .skipped => "skipped"
  | .timeout => "timeout"

/-- `ExecutionGraphStatus`. -/
inductive GraphStatus
  | created | ready | waiting | running | completed | partially | blocked | failed | cancelled
  | timeout
  deriving DecidableEq

structure TaskRunStep where
  stepId : String
  /-- The kind of step, which selects the handler. -/
  stepType : String
  action : String
  /-- Whether the run depends on the step. -/
  required : Bool
  /-- Whether the step changes anything outside the run. -/
  sideEffect : Bool
  status : StepStatus
  warnings : List String
  /-- Violations of the last execution or guard decision. -/
  violations : List String

structure TaskRunPlan where
  status : String
  steps : List TaskRunStep
  /-- The identifier of the canonical execution plan. -/
  executionId : Option String

structure WorkflowPhaseDependency where
  dependencyId : String
  producerPhaseId : String
  consumerPhaseId : String
  requiredStatus : PhaseStatus
  requiredArtifacts : List String
  requiredValidations : List String
  /-- Whether the dependency needs an admission of its own. -/
  evaluationRequired : Bool

structure WorkflowPhase where
  phaseId : String
  sourceStepId : String
  /-- Whether the workflow depends on the phase. -/
  required : Bool
  status : PhaseStatus
  producedArtifacts : List String
  validationRefs : List String
  validationPassed : Bool
  blockedReasons : List String

structure WorkflowRuntimeInstance where
  status : WorkflowStatus
  phases : List WorkflowPhase
  dependencies : List WorkflowPhaseDependency
  blockedReasons : List String

structure ExecutionEdge where
  fromNodeId : String
  toNodeId : String
  required : Bool

structure ExecutionNode where
  nodeId : String
  stepId : Option String
  status : NodeStatus
  warnings : List String
  violations : List String

structure ExecutionGraph where
  status : GraphStatus
  nodes : List ExecutionNode
  edges : List ExecutionEdge

structure TaskRun where
  /-- The identifier of the run, which is the name of its directory. -/
  runId : String
  taskId : Option String
  operationId : Option String
  approvalId : Option String
  contractType : String
  status : TaskRunStatus
  plan : TaskRunPlan
  workflow : Option WorkflowRuntimeInstance
  executionGraph : Option ExecutionGraph
  currentStepId : Option String
  approvalSnapshot : Json
  autoRunRequested : Bool
  cancellationRequested : Bool
  cancellationReason : Option String
  revision : ℕ
  createdAt : String
  startedAt : Option String
  finishedAt : Option String
  warnings : List String
  blockedReasons : List String
  /-- The remaining members of the document. -/
  evidence : List (String × Json)

def StepStatus.isKnown : StepStatus → Bool
  | .other _ => false
  | _ => true

/-- Whether the document of a run passes the schema when it is read. -/
def TaskRun.isValid (run : TaskRun) : Bool := run.plan.steps.all (·.status.isKnown)

def objectItems (fields : List (String × Json)) (name : String) : List (List (String × Json)) :=
  match fields.lookup name with
  | some (.list items) => items.filterMap fun v =>
      match v with
      | .obj members => some members
      | _ => none
  | _ => []

/-- `run.produced_artifacts`, as far as the items are objects. -/
def TaskRun.artifacts (run : TaskRun) : List (List (String × Json)) :=
  objectItems run.evidence "produced_artifacts"

/-- The status of a result. -/
inductive ResultStatus
  | completed | completedWithLimitations | partially | failed | cancelled | blocked
  deriving DecidableEq

def ResultStatus.text : ResultStatus → String
  | .completed => "completed"
  | .completedWithLimitations => "completed_with_limitations"
  | .partially => "partial"
  | .failed => "failed"
  | .cancelled => "cancelled"
  | .blocked => "blocked"

structure TaskCompletionEvaluation where
  status : ResultStatus
  safeToReportSuccess : Bool
  expectedOutcomes : List String
  fulfilledOutcomes : List String
  missingOutcomes : List String
  warnings : List String
  limitations : List String

variable (f : String → String)

structure TaskRunResult where
  status : ResultStatus
  summary : String
  finishedAt : Option String
  limitations : List String
  blockedItems : List String
  warnings : List String
  /-- The number of events when the result was built. -/
  eventsCount : ℕ
  validationReason : Option String
  completion : Option TaskCompletionEvaluation

def TaskRunStep.mapText (step : TaskRunStep) : TaskRunStep :=
  { step with
    stepId := f step.stepId, stepType := f step.stepType, action := f step.action
    warnings := step.warnings.map f, violations := step.violations.map f }

def WorkflowPhaseDependency.mapText (d : WorkflowPhaseDependency) : WorkflowPhaseDependency :=
  { d with
    dependencyId := f d.dependencyId, producerPhaseId := f d.producerPhaseId
    consumerPhaseId := f d.consumerPhaseId, requiredArtifacts := d.requiredArtifacts.map f
    requiredValidations := d.requiredValidations.map f }

def WorkflowPhase.mapText (phase : WorkflowPhase) : WorkflowPhase :=
  { phase with
    phaseId := f phase.phaseId, sourceStepId := f phase.sourceStepId
    producedArtifacts := phase.producedArtifacts.map f
    validationRefs := phase.validationRefs.map f
    blockedReasons := phase.blockedReasons.map f }

def WorkflowRuntimeInstance.mapText (w : WorkflowRuntimeInstance) : WorkflowRuntimeInstance :=
  { w with
    phases := w.phases.map (·.mapText f), dependencies := w.dependencies.map (·.mapText f)
    blockedReasons := w.blockedReasons.map f }

def ExecutionGraph.mapText (graph : ExecutionGraph) : ExecutionGraph :=
  { graph with
    nodes := graph.nodes.map fun node =>
      { node with
        nodeId := f node.nodeId, stepId := node.stepId.map f
        warnings := node.warnings.map f, violations := node.violations.map f }
    edges := graph.edges.map fun edge =>
      { edge with fromNodeId := f edge.fromNodeId, toNodeId := f edge.toNodeId } }

def TaskRun.mapText (run : TaskRun) : TaskRun :=
  { run with
    taskId := run.taskId.map f, operationId := run.operationId.map f
    approvalId := run.approvalId.map f, contractType := f run.contractType
    plan :=
      { status := f run.plan.status, steps := run.plan.steps.map (·.mapText f)
        executionId := run.plan.executionId.map f }
    workflow := run.workflow.map (·.mapText f)
    executionGraph := run.executionGraph.map (·.mapText f)
    currentStepId := run.currentStepId.map f
    cancellationReason := run.cancellationReason.map f, createdAt := f run.createdAt
    startedAt := run.startedAt.map f, finishedAt := run.finishedAt.map f
    warnings := run.warnings.map f, blockedReasons := run.blockedReasons.map f }

/-- A run as `_write` saves it: sanitized, and with its large values spilled. -/
def TaskRun.stored (codec : Codec) (run : TaskRun) : TaskRun :=
  { run.mapText sanitizeText with
    approvalSnapshot := lightenForInline codec run.runId "approval_snapshot" "approval_snapshot"
      (sanitizeValue run.approvalSnapshot)
    evidence := lightenFields codec run.runId "" (sanitizeFields run.evidence) }

def TaskRun.spilled (run : TaskRun) : List Json :=
  spilledPayloads "approval_snapshot" (sanitizeValue run.approvalSnapshot) ++
    spilledFields (sanitizeFields run.evidence)

def TaskRun.hydrated (files : PayloadFiles) (run : TaskRun) : TaskRun :=
  { run with
    approvalSnapshot := hydratePayloadRefs files run.approvalSnapshot
    evidence := hydrateFields files run.evidence }

/-- A saved run as listings see it. -/
def TaskRun.projected (run : TaskRun) : TaskRun :=
  { run with
    approvalSnapshot := projectPayloadRefsForModel run.approvalSnapshot
    evidence := projectFields run.evidence }

def TaskRunResult.mapText (result : TaskRunResult) : TaskRunResult :=
  { result with
    summary := f result.summary
    finishedAt := result.finishedAt.map f, limitations := result.limitations.map f
    blockedItems := result.blockedItems.map f, warnings := result.warnings.map f
    validationReason := result.validationReason.map f
    completion := result.completion.map fun c =>
      { c with
        expectedOutcomes := c.expectedOutcomes.map f
        fulfilledOutcomes := c.fulfilledOutcomes.map f
        missingOutcomes := c.missingOutcomes.map f, warnings := c.warnings.map f
        limitations := c.limitations.map f } }

section SavedFields

variable (codec : Codec) (files : PayloadFiles) (run : TaskRun)

@[simp] theorem TaskRun.stored_isValid : (run.stored codec).isValid = run.isValid := by
  simp [TaskRun.isValid, TaskRun.stored, TaskRun.mapText, TaskRunStep.mapText, List.all_map,
    Function.comp_def]

@[simp] theorem TaskRun.hydrated_isValid : (run.hydrated files).isValid = run.isValid := rfl

end SavedFields

end AIpinho.Runtime
