import AIpinho.Runtime.ExecutionGraph

/-!
# The workflow of a plan

`WorkflowRuntimeService` keeps one phase for each step of a plan. A phase may start when the
phases it depends on have succeeded; the admission of a dependency that needs an evaluation of
its own is a parameter.
-/

namespace AIpinho.Runtime

open Lib

/-- `_SUCCESS_STATUSES`. -/
def PhaseStatus.isSuccess : PhaseStatus → Bool
  | .completed | .partially | .skipped => true
  | _ => false

/-- `_TERMINAL_STATUSES`. -/
def PhaseStatus.isTerminal : PhaseStatus → Bool
  | .completed | .partially | .failed | .blocked | .cancelled => true
  | _ => false

def StepStatus.successPhase? : StepStatus → Option PhaseStatus
  | .completed => some .completed
  | .partially => some .partially
  | .skipped => some .skipped
  | _ => none

/-- `_phase_satisfied`. -/
def WorkflowPhase.isSatisfied (phase : WorkflowPhase) : Bool :=
  phase.status.isSuccess || (!phase.required && phase.status.isTerminal)

def WorkflowPhase.isStopping (phase : WorkflowPhase) : Bool :=
  phase.required && (phase.status = .blocked || phase.status = .failed)

namespace WorkflowRuntimeInstance

def statusOf (phases : List WorkflowPhase) : WorkflowStatus :=
  if phases.isEmpty then .completed
  else if phases.any (·.isStopping) then
    if phases.any (fun p => p.isStopping && p.status = .blocked) then .blocked else .failed
  else if phases.all (·.isSatisfied) then .completed
  else if phases.any (·.status = .running) then .running
  else .created

variable (w : WorkflowRuntimeInstance)

/-- `_refresh`. -/
def refresh : WorkflowRuntimeInstance :=
  { w with status := statusOf w.phases }

variable (stepId : String)

def isPhaseOf (phase : WorkflowPhase) : Bool := phase.sourceStepId = stepId

/-- `phase_for_step`. -/
def phaseForStep : Option WorkflowPhase :=
  w.phases.find? (isPhaseOf stepId)

/-- `phase`. -/
def phase (phaseId : String) : Option WorkflowPhase :=
  w.phases.find? (·.phaseId = phaseId)

/-- `_dependency_missing_reasons`. -/
def dependencyMissingReasons (producer : Option WorkflowPhase) (d : WorkflowPhaseDependency) :
    List String :=
  match producer with
  | none => ["producer_phase_missing"]
  | some p =>
    if !p.required && p.status.isTerminal then []
    else
      (if p.status ≠ d.requiredStatus ∧ p.status.isSuccess = false then
        ["producer_status:" ++ p.status.text] else []) ++
      (d.requiredArtifacts.filter fun id => !p.producedArtifacts.contains id).map
        ("artifact_missing:" ++ ·) ++
      (d.requiredValidations.filter fun id =>
        !p.validationRefs.contains id && !p.validationPassed).map ("validation_missing:" ++ ·)

variable (admission : WorkflowPhase → WorkflowPhaseDependency → Option String)

/-- `_dependency_admission_reason`; `admission` stands for the
evaluation of a dependency that requires one. -/
def dependencyAdmissionReason (producer : Option WorkflowPhase) (d : WorkflowPhaseDependency) :
    Option String :=
  match producer with
  | none => if d.evaluationRequired then some "phase_dependency_evaluation_required" else none
  | some p =>
    if !p.required && p.status.isTerminal then none
    else if d.evaluationRequired then admission p d else none

def missingOf (w : WorkflowRuntimeInstance) (d : WorkflowPhaseDependency) : List String :=
  let producer := w.phase d.producerPhaseId
  let reasons := dependencyMissingReasons producer d
  if reasons.isEmpty then
    (dependencyAdmissionReason admission producer d).toList.map (d.dependencyId ++ ":" ++ ·)
  else reasons.map (d.dependencyId ++ ":" ++ ·)

/-- `can_start_phase`: the reasons why the phase of a step
may not start, and the workflow, in which such a phase is blocked. -/
def canStartPhase (stepId : String) (w : WorkflowRuntimeInstance) :
    List String × WorkflowRuntimeInstance :=
  match w.phaseForStep stepId with
  | none => (["workflow_phase_not_found"], w)
  | some phase =>
    let missing := (w.dependencies.filter (·.consumerPhaseId = phase.phaseId)).flatMap
      (w.missingOf admission)
    if missing.isEmpty then ([], w)
    else
      let reasons := "missing_required_phase_dependencies" :: missing
      (reasons.eraseDups,
        refresh
          { w with
            blockedReasons := (w.blockedReasons ++ reasons).eraseDups
            phases := updateFirst (isPhaseOf stepId) (fun phase =>
                { phase with
                  status := .blocked
                  blockedReasons := (phase.blockedReasons ++ reasons).eraseDups })
              w.phases })

/-- `start_phase_for_step`. -/
def startPhaseForStep (w : WorkflowRuntimeInstance) : WorkflowRuntimeInstance :=
  if w.phases.any (isPhaseOf stepId) then
    refresh
      { w with
        phases := updateFirst (isPhaseOf stepId) (fun phase => { phase with status := .running })
          w.phases }
  else w

def finishedStatus (status : StepStatus) (violations : List String) : PhaseStatus :=
  match status.successPhase? with
  | some success => if violations.isEmpty then success else .failed
  | none => if status = .blocked then .blocked else .failed

def passesValidation (status : StepStatus) (violations : List String) : Bool :=
  status.successPhase?.isSome && violations.isEmpty

/-- `finish_phase_for_step`. -/
def finishPhaseForStep (status : StepStatus) (violations : List String) (validationRef : String)
    (w : WorkflowRuntimeInstance) : WorkflowRuntimeInstance :=
  if w.phases.any (isPhaseOf stepId) then
    refresh
      { w with
        phases := updateFirst (isPhaseOf stepId) (fun phase =>
            { phase with
              status := finishedStatus status violations
              validationRefs := (phase.validationRefs ++ [validationRef]).eraseDups
              validationPassed := passesValidation status violations
              blockedReasons :=
                if passesValidation status violations then phase.blockedReasons
                else
                  (phase.blockedReasons ++ violations ++ ["phase_validation_failed"]).eraseDups })
          w.phases }
  else w

end WorkflowRuntimeInstance

/-- `_safe_id`, for ASCII texts. -/
def safeId (text : String) : String :=
  let safe := text.toList.map fun c => if c.isAlphanum then c.toLower else '_'
  let trimmed := ((safe.dropWhile (· = '_')).reverse.dropWhile (· = '_')).reverse
  if trimmed.isEmpty then "phase" else String.ofList trimmed

def threeDigits (n : ℕ) : String :=
  let digits := (toString n).toList
  String.ofList (List.replicate (3 - digits.length) '0' ++ digits)

def phaseOfStep (position : ℕ) (step : TaskRunStep) : WorkflowPhase :=
  let kind := if step.stepType = "" then step.action else step.stepType
  { phaseId := "phase_" ++ threeDigits position ++ "_" ++ safeId kind
    sourceStepId := step.stepId, required := step.required
    status := .pending, producedArtifacts := [], validationRefs := []
    validationPassed := false, blockedReasons := [] }

/-- `_phase_dependency`. -/
def phaseDependency (producer consumer : WorkflowPhase) (explicit : Bool) :
    WorkflowPhaseDependency :=
  { dependencyId := "phase_dependency_" ++ producer.phaseId ++ "_" ++ consumer.phaseId
    producerPhaseId := producer.phaseId, consumerPhaseId := consumer.phaseId
    requiredStatus := .completed, requiredArtifacts := [], requiredValidations := []
    evaluationRequired := explicit }

variable (explicit : List (String × List String))

/-- Whether the plan says that a phase depends on another. -/
def isExplicit (producer consumer : WorkflowPhase) : Bool :=
  ((explicit.lookup consumer.sourceStepId).getD []).contains producer.sourceStepId

def sequenceDependencies (explicit : List (String × List String)) :
    List WorkflowPhase → List WorkflowPhaseDependency
  | producer :: consumer :: phases =>
    phaseDependency producer consumer (isExplicit explicit producer consumer) ::
      sequenceDependencies explicit (consumer :: phases)
  | _ => []

def explicitDependencies (sequential : List WorkflowPhaseDependency) (phases : List WorkflowPhase) :
    List WorkflowPhaseDependency :=
  phases.flatMap fun consumer =>
    (phases.filter fun producer =>
      producer.phaseId ≠ consumer.phaseId && isExplicit explicit producer consumer &&
        !sequential.any (fun d =>
          d.producerPhaseId = producer.phaseId && d.consumerPhaseId = consumer.phaseId)).map
      fun producer => phaseDependency producer consumer true

/-- `create_for_run`, for a plan and the steps each step
of its canonical plan depends on. -/
def createForRun (plan : TaskRunPlan) : WorkflowRuntimeInstance :=
  let phases := plan.steps.mapIdx fun i step => phaseOfStep (i + 1) step
  let sequential := sequenceDependencies explicit phases
  WorkflowRuntimeInstance.refresh
    { status := .created
      phases := phases
      dependencies := sequential ++ explicitDependencies explicit sequential phases
      blockedReasons := [] }

end AIpinho.Runtime
