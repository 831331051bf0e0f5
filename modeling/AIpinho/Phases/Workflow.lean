import AIpinho.Lib.Runs
import AIpinho.Phases.Dependency
import AIpinho.Runtime.Workflow

/-!
# Workflows with admissions

`WorkflowRuntimeService` with everything a dependency remembers: the compiled demand of its
consumer, the evaluation of what its producer has left, and the admission that rests on it. Both
are made once; the admission is validated whenever the consumer asks.
-/

namespace AIpinho.Phases

open Lib
open AIpinho.Runtime (PhaseStatus WorkflowStatus)

/-- `PhaseSemanticDemandCompilation`, as far as the workflow reads it. -/
structure DemandCompilation where
  /-- Whether its status is `compiled`. -/
  isCompiled : Bool
  reasonCodes : List String
  requirements : Option Requirements

/-- The status of a dependency. -/
inductive DependencyStatus
  | pending | completed | missing
  deriving DecidableEq

structure WorkflowPhaseDependency extends Runtime.WorkflowPhaseDependency where
  status : DependencyStatus
  missingReasons : List String
  demandCompilation : Option DemandCompilation
  requirements : Option Requirements
  evaluation : Option Evaluation
  admission : Option Admission

structure WorkflowPhase extends Runtime.WorkflowPhase where
  action : String
  /-- What the step says about its result. -/
  semanticOutcome : List (String × Json)

structure WorkflowRuntimeInstance where
  taskRunId : String
  operationId : Option String
  status : WorkflowStatus
  phases : List WorkflowPhase
  dependencies : List WorkflowPhaseDependency
  blockedReasons : List String

def isEndedOption (phase : Runtime.WorkflowPhase) : Bool :=
  !phase.required && phase.status.isTerminal

/-- The services the workflow uses. -/
structure WorkflowServices where
  phases : PhaseServices
  str : Json → String

/-- The names and times one evaluation, authorization and validation gets. -/
structure Stamp where
  evaluationId : String
  evaluatedAt : ℤ
  admissionId : String
  authorizedAt : ℤ
  admittedAt : ℤ
  validatedAt : ℤ

def iterate? : Json → Option (List Json)
  | .list items => some items
  | .str text => some (text.toList.map fun c => .str (String.singleton c))
  | .obj fields => some (fields.map fun field => .str field.1)
  | _ => none

/-- The texts under a name of an outcome, without empty ones; nothing if the value
cannot be iterated. -/
def textsUnder (services : WorkflowServices) (outcome : List (String × Json)) (name : String) :
    Option (List String) :=
  (iterate? ((outcome.lookup name).getD (.list []))).map fun items =>
    (items.map services.str).filter (· ≠ "")

def pair? (item : Json) : Option (String × Json) :=
  match iterate? item with
  | some [.str name, value] => some (name, value)
  | _ => none

def mappingUnder (outcome : List (String × Json)) (name : String) : Option (List (String × Json)) :=
  let value := (outcome.lookup name).getD .null
  if !value.truthy then some []
  else match value with
    | .obj fields => some fields
    | _ => do
      let pairs ← (← iterate? value).mapM pair?
      pure (pairs.foldl (fun fields pair => Json.setField pair.1 pair.2 fields) [])

def dependencyStatusOf : PhaseStatus → String
  | .completed => "satisfied"
  | .partially => "satisfied_with_limitations"
  | status => status.text

namespace WorkflowRuntimeInstance

variable (services : WorkflowServices)

def snapshot? (w : WorkflowRuntimeInstance) (producer : WorkflowPhase)
    (d : WorkflowPhaseDependency) : Option Snapshot := do
  let outcome := producer.semanticOutcome
  pure
    { dependencyId := d.dependencyId
      producerTaskRunId := w.taskRunId
      producerOperationId := w.operationId
      producerPhaseId := d.producerPhaseId
      upstreamResultRef := producer.validationRefs.getLast?.getD w.taskRunId
      dependencyStatus := dependencyStatusOf producer.status
      evidenceRefs := (producer.producedArtifacts ++ producer.validationRefs).eraseDups
      limitations := ← textsUnder services outcome "limitations"
      requiredDisclosures := ← textsUnder services outcome "required_disclosures"
      missingTruth := ← textsUnder services outcome "missing_truth"
      riskConstraints := ← textsUnder services outcome "risk_constraints"
      allowedDownstreamUses := ← textsUnder services outcome "allowed_downstream_uses"
      forbiddenDownstreamUses := []
      forbiddenClaims := []
      useSafety := ← mappingUnder outcome "use_safety"
      semanticProperties := ← mappingUnder outcome "semantic_properties" }

variable (w : WorkflowRuntimeInstance)

def presented (d : WorkflowPhaseDependency) (requirements : Requirements) : Identities :=
  { consumerTaskRunId := w.taskRunId
    consumerOperationId := w.operationId.getD ""
    consumerOperationType := requirements.operationType
    producerTaskRunId := w.taskRunId
    producerOperationId := w.operationId
    dependencyId := d.dependencyId
    producerPhaseId := d.producerPhaseId
    consumerPhaseId := d.consumerPhaseId }

/-- `phase_for_step`. -/
def phaseForStep (stepId : String) : Option WorkflowPhase :=
  w.phases.find? fun phase => phase.sourceStepId = stepId

/-- `phase`. -/
def phase (w : WorkflowRuntimeInstance) (phaseId : String) : Option WorkflowPhase :=
  w.phases.find? fun phase => phase.phaseId = phaseId

def evaluationOf (w : WorkflowRuntimeInstance) (stamp : Stamp) (producer : WorkflowPhase)
    (d : WorkflowPhaseDependency) (requirements : Requirements) : Option Evaluation :=
  match d.evaluation with
  | some evaluation => some evaluation
  | none => (w.snapshot? services producer d).map fun snapshot =>
      evaluate services.phases
        { snapshot := snapshot
          requirements := requirements
          consumerTaskRunId := w.taskRunId
          consumerOperationId := w.operationId.getD ""
          consumerOperationType := requirements.operationType
          evaluationId := stamp.evaluationId
          now := stamp.evaluatedAt }

def admissionOf (w : WorkflowRuntimeInstance) (stamp : Stamp) (d : WorkflowPhaseDependency)
    (requirements : Requirements) (evaluation : Evaluation) : Admission :=
  d.admission.getD
    (authorize services.phases none
      { evaluation := evaluation
        requirements := requirements
        presented := w.presented d requirements
        now := stamp.authorizedAt
        admissionId := stamp.admissionId
        admittedAt := stamp.admittedAt }).1

def refusal (reason : Option String) : String :=
  if reason.getD "" = "" then "phase_dependency_not_admitted" else reason.getD ""

/-- `_dependency_admission_reason`: the dependency with what it
remembers from now on, and why it is not admitted; nothing if the outcome of the
producer cannot be read. -/
def dependencyAdmissionReason (w : WorkflowRuntimeInstance) (stamp : Stamp)
    (producer : Option WorkflowPhase) (d : WorkflowPhaseDependency) :
    Option (WorkflowPhaseDependency × Option String) :=
  if producer.any (isEndedOption ·.toWorkflowPhase) then some (d, none)
  else if !d.evaluationRequired then some (d, none)
  else match d.demandCompilation with
    | none => some (d, some "PHASE_DEPENDENCY_DOWNSTREAM_DEMAND_NOT_COMPILED")
    | some compilation =>
      if !compilation.isCompiled then
        some (d, some
          (compilation.reasonCodes.headD "PHASE_DEPENDENCY_INSUFFICIENT_CONTRACT_EVIDENCE"))
      else match d.requirements, producer with
        | some requirements, some producer => do
          let evaluation ← w.evaluationOf services stamp producer d requirements
          let admission := w.admissionOf services stamp d requirements evaluation
          let verdict := validateAdmission services.phases admission evaluation
            requirements (w.presented d requirements) stamp.validatedAt
          pure ({ d with evaluation := some evaluation, admission := some admission },
            if verdict.1 then none else some (refusal verdict.2))
        | _, _ => some (d, some "phase_dependency_evaluation_required")

/-- What asking for one dependency leaves. -/
structure Asked where
  dependency : WorkflowPhaseDependency
  missing : List String
  raised : Bool

/-- One round of the loop of `can_start_phase`. -/
def askDependency (w : WorkflowRuntimeInstance) (stamp : Stamp) (d : WorkflowPhaseDependency) :
    Asked :=
  let producer := w.phase d.producerPhaseId
  let reasons := Runtime.WorkflowRuntimeInstance.dependencyMissingReasons
    (producer.map (·.toWorkflowPhase)) d.toWorkflowPhaseDependency
  if reasons.isEmpty then
    let d := { d with status := .completed, missingReasons := [] }
    match w.dependencyAdmissionReason services stamp producer d with
    | none => ⟨d, [], true⟩
    | some (d, none) => ⟨d, [], false⟩
    | some (d, some reason) =>
      ⟨{ d with status := .missing, missingReasons := [reason] },
        [d.dependencyId ++ ":" ++ reason], false⟩
  else
    ⟨{ d with status := .missing, missingReasons := reasons },
      reasons.map (d.dependencyId ++ ":" ++ ·), false⟩

/-- The loop of `can_start_phase` over the dependencies from a position on. An exception
leaves the dependencies after it as they are. -/
def askDependencies (services : WorkflowServices) (w : WorkflowRuntimeInstance)
    (stamps : ℕ → Stamp) (consumerPhaseId : String) :
    ℕ → List WorkflowPhaseDependency → List WorkflowPhaseDependency × List String × Bool
  | _, [] => ([], [], false)
  | i, d :: ds =>
    if d.consumerPhaseId ≠ consumerPhaseId then
      let (ds, missing, raised) := askDependencies services w stamps consumerPhaseId (i + 1) ds
      (d :: ds, missing, raised)
    else
      let asked := w.askDependency services (stamps i) d
      if asked.raised then (asked.dependency :: ds, [], true)
      else
        let (ds, missing, raised) := askDependencies services w stamps consumerPhaseId (i + 1) ds
        (asked.dependency :: ds, asked.missing ++ missing, raised)

/-- `_refresh`. -/
def refresh : WorkflowRuntimeInstance :=
  { w with
    status := Runtime.WorkflowRuntimeInstance.statusOf (w.phases.map (·.toWorkflowPhase)) }

def updatePhase (stepId : String) (f : WorkflowPhase → WorkflowPhase)
    (w : WorkflowRuntimeInstance) : WorkflowRuntimeInstance :=
  { w with phases := updateFirst (fun phase => phase.sourceStepId = stepId) f w.phases }

/-- What `can_start_phase` answers. -/
inductive StartAnswer
  | allowed | refused (reasons : List String) | raised
  deriving DecidableEq

/-- `can_start_phase`. -/
def canStartPhase (stamps : ℕ → Stamp) (stepId : String) (w : WorkflowRuntimeInstance) :
    StartAnswer × WorkflowRuntimeInstance :=
  match w.phaseForStep stepId with
  | none => (.refused ["workflow_phase_not_found"], w)
  | some phase =>
    let (dependencies, missing, raised) :=
      w.askDependencies services stamps phase.phaseId 0 w.dependencies
    let w := { w with dependencies := dependencies }
    if raised then (.raised, w)
    else if missing.isEmpty then (.allowed, w)
    else
      let reasons := "missing_required_phase_dependencies" :: missing
      (.refused reasons.eraseDups,
        refresh (updatePhase stepId
          (fun phase =>
            { phase with
              status := .blocked
              blockedReasons := (phase.blockedReasons ++ reasons).eraseDups })
          { w with blockedReasons := (w.blockedReasons ++ reasons).eraseDups }))

/-- `start_phase_for_step`. -/
def startPhaseForStep (stepId : String) (w : WorkflowRuntimeInstance) : WorkflowRuntimeInstance :=
  match w.phaseForStep stepId with
  | none => w
  | some _ => refresh (updatePhase stepId (fun phase => { phase with status := .running }) w)

/-- How a step has ended. -/
structure Outcome where
  status : String
  artifacts : List String
  validationRef : Option String
  violations : List String
  /-- What the step says about its result. -/
  semanticOutcome : List (String × Json)

def successStatus? (status : String) : Option PhaseStatus :=
  if status = "completed" then some .completed
  else if status = "partial" then some .partially
  else if status = "skipped" then some .skipped
  else none

def finished (outcome : Outcome) (phase : WorkflowPhase) : WorkflowPhase :=
  let validationRefs :=
    if outcome.validationRef.getD "" = "" then phase.validationRefs
    else (phase.validationRefs ++ outcome.validationRef.toList).eraseDups
  let phase : WorkflowPhase :=
    { phase with
      producedArtifacts := (phase.producedArtifacts ++ outcome.artifacts).eraseDups
      semanticOutcome := outcome.semanticOutcome
      validationRefs := validationRefs }
  match successStatus? outcome.status, outcome.violations with
  | some status, [] => { phase with status := status, validationPassed := true }
  | _, violations =>
    { phase with
      status := if outcome.status = "blocked" then .blocked else .failed
      validationPassed := false
      blockedReasons :=
        (phase.blockedReasons ++ violations ++ ["phase_validation_failed"]).eraseDups }

/-- `finish_phase_for_step`. -/
def finishPhaseForStep (stepId : String) (outcome : Outcome) (w : WorkflowRuntimeInstance) :
    WorkflowRuntimeInstance :=
  match w.phaseForStep stepId with
  | none => w
  | some _ => refresh (updatePhase stepId (finished outcome) w)

end WorkflowRuntimeInstance

def phaseOfStep (position : ℕ) (step : Runtime.TaskRunStep) : WorkflowPhase :=
  { Runtime.phaseOfStep position step with action := step.action, semanticOutcome := [] }

/-- `_phase_dependency`; `compile` stands for the compiler of the
demands of a consumer. -/
def phaseDependency (compile : WorkflowPhase → DemandCompilation)
    (producer consumer : WorkflowPhase) (explicit : Bool) : WorkflowPhaseDependency :=
  let compilation := if explicit then some (compile consumer) else none
  { Runtime.phaseDependency producer.toWorkflowPhase consumer.toWorkflowPhase explicit with
    status := .pending
    missingReasons := []
    demandCompilation := compilation
    requirements := compilation.bind (·.requirements)
    evaluation := none
    admission := none }

def sequenceDependencies (compile : WorkflowPhase → DemandCompilation)
    (explicit : List (String × List String)) : List WorkflowPhase → List WorkflowPhaseDependency
  | producer :: consumer :: phases =>
    phaseDependency compile producer consumer
        (Runtime.isExplicit explicit producer.toWorkflowPhase consumer.toWorkflowPhase) ::
      sequenceDependencies compile explicit (consumer :: phases)
  | _ => []

def isBetween (producer consumer : WorkflowPhase) (d : WorkflowPhaseDependency) : Bool :=
  d.producerPhaseId = producer.phaseId && d.consumerPhaseId = consumer.phaseId

variable (compile : WorkflowPhase → DemandCompilation)

/-- An explicit dependency of the plan: the dependency of the pair is upgraded in place,
or there is a new one. -/
def addExplicit (producer consumer : WorkflowPhase) (dependencies : List WorkflowPhaseDependency) :
    List WorkflowPhaseDependency :=
  let upgraded := phaseDependency compile producer consumer true
  if dependencies.any (isBetween producer consumer) then
    updateFirst (isBetween producer consumer) (fun d =>
        if d.evaluationRequired then d
        else
          { d with
            evaluationRequired := true
            demandCompilation := upgraded.demandCompilation
            requirements := upgraded.requirements })
      dependencies
  else dependencies ++ [upgraded]

/-- The pairs of steps of the plan in which the second waits for the first. -/
def explicitPairs (explicit : List (String × List String)) : List (String × String) :=
  explicit.flatMap fun entry => entry.2.map (·, entry.1)

def phaseByStep (phases : List WorkflowPhase) (stepId : String) : Option WorkflowPhase :=
  phases.reverse.find? fun phase => phase.sourceStepId = stepId

def addExplicitStep (phases : List WorkflowPhase) (dependencies : List WorkflowPhaseDependency)
    (pair : String × String) : List WorkflowPhaseDependency :=
  match phaseByStep phases pair.1, phaseByStep phases pair.2 with
  | some producer, some consumer =>
    if producer.phaseId = consumer.phaseId then dependencies
    else addExplicit compile producer consumer dependencies
  | _, _ => dependencies

/-- `create_for_run`, for a run with a plan, the steps each step of
its canonical plan depends on, and the demands of its phases. -/
def createForRun (explicit : List (String × List String)) (taskRunId : String)
    (operationId : Option String) (plan : Runtime.TaskRunPlan) : WorkflowRuntimeInstance :=
  let phases := plan.steps.mapIdx fun i step => phaseOfStep (i + 1) step
  WorkflowRuntimeInstance.refresh
    { taskRunId := taskRunId
      operationId := operationId
      status := .created
      phases := phases
      dependencies := (explicitPairs explicit).foldl (addExplicitStep compile phases)
        (sequenceDependencies compile explicit phases)
      blockedReasons := [] }

end AIpinho.Phases
