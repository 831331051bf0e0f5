import AIpinho.Runtime.Completion
import AIpinho.Runtime.Watchdogs
import AIpinho.Runtime.Workflow

/-!
# The supervised execution loop

`SupervisedExecutionLoop.run` as a program over the files of the run. The loop writes its own
copy of the run as a whole at several points of each step, and reads the stored run again only
to find a request to cancel. What other services answer is an input. The history of the steps it
reached is recorded for statements only.
-/

namespace AIpinho.Runtime

open Lib

/-- What the guard checks a step against. -/
structure GuardPolicy where
  allowedStepTypes : List String
  allowsSideEffects : Bool
  allowedActions : List String
  blockedActions : List String
  maxSteps : ℕ
  /-- The microseconds a run may take. -/
  maxRuntime : ℤ

/-- `TaskRunGuard._blocked_reason`. -/
def blockedReason (action : String) : String :=
  if ["write_files", "delete_files", "move_files"].contains action then "write_action_blocked"
  else if ["apply_patch", "patch_apply"].contains action then "patch_action_blocked"
  else if ["run_command", "shell"].contains action then "shell_action_blocked"
  else "blocked_action:" ++ action

def cancellationRequestedReason : String := "cancellation_requested"

/-- `TaskRunGuard.check_step`: the reasons why a step may not be executed. -/
def GuardPolicy.checkStep (guard : GuardPolicy) (run : TaskRun) (step : TaskRunStep) (index : ℕ)
    (elapsed : ℤ) : List String :=
  ((if run.cancellationRequested then [cancellationRequestedReason] else []) ++
    (if !guard.allowedStepTypes.isEmpty && !guard.allowedStepTypes.contains step.stepType then
      ["step_not_allowed_by_profile:" ++ step.stepType] else []) ++
    (if step.sideEffect && !guard.allowsSideEffects then
      ["side_effect_not_allowed_by_profile"] else []) ++
    (if guard.blockedActions.contains step.action then [blockedReason step.action]
      else if guard.allowedActions.contains step.action then []
      else ["action_not_allowed:" ++ step.action]) ++
    (if guard.maxSteps ≤ index then ["step_limit_exceeded"] else []) ++
    (if guard.maxRuntime < elapsed then ["runtime_timeout_exceeded"] else [])).eraseDups

/-- `TaskStepOutcome`. -/
structure StepOutcome where
  status : StepStatus
  summary : List (String × Json)
  warnings : List String
  violations : List String
  limitations : List String
  blockedItems : List String

/-- What the executor leaves: its outcome, the context it worked on, and the
evidence it added to the run. -/
structure StepReply where
  outcome : StepOutcome
  context : TaskRunContext
  evidence : List (String × Json)

/-- Everything the loop asks other services for. -/
structure LoopInputs where
  services : StoreServices
  clock : Clock
  /-- `TaskRunGuard.check_run` up to its last two checks. -/
  checkRun : TaskRun → List String
  guard : GuardPolicy
  /-- The microseconds since the start when a step is checked. -/
  elapsed : ℕ → ℤ
  admission : WorkflowPhase → WorkflowPhaseDependency → Option String
  /-- `TaskRunContextService.build`. -/
  buildContext : TaskRun → TaskRunContext
  /-- `TaskRunExecutor.execute_step` for the step at an index. -/
  execute : ℕ → TaskRun → TaskRunStep → TaskRunContext → StepReply
  completion : CompletionPolicy
  validate : TaskRun → List TaskRunEvent → Option String
  summary : TaskRun → ResultStatus → String
  /-- `SemanticResultProjectionService.project`: the evidence of the run after
  its result was projected. -/
  project : TaskRun → TaskRunResult → List (String × Json)

/-- What happened at a step the loop reached. -/
inductive StepEvent
  /-- The guard found a request to cancel. -/
  | cancelled
  /-- The guard did not allow the step. -/
  | guardBlocked (reasons : List String)
  | dependencySkipped (reasons : List String)
  /-- The dependencies of a required step are missing. -/
  | dependencyBlocked (reasons : List String)
  | executed (outcome : StepOutcome)

/-- The local state of the loop. -/
structure LoopState where
  run : TaskRun
  context : TaskRunContext
  /-- Whether a required step was only partially completed. -/
  sawPartial : Bool
  history : List StepEvent

namespace TaskRun

def modifyStep (index : ℕ) (f : TaskRunStep → TaskRunStep) (run : TaskRun) : TaskRun :=
  { run with plan := { run.plan with steps := run.plan.steps.modify index f } }

def addBlockedReasons (reasons : List String) (run : TaskRun) : TaskRun :=
  { run with blockedReasons := (run.blockedReasons ++ reasons).eraseDups }

end TaskRun

namespace LoopState

def observe (latest : Option TaskRun) (s : LoopState) : LoopState :=
  match latest with
  | some stored =>
    if stored.cancellationRequested then
      { s with run := { s.run with
        cancellationRequested := true
        cancellationReason := stored.cancellationReason } }
    else s
  | none => s

variable (index : ℕ)

def cancelStep (s : LoopState) : LoopState :=
  { s with
    run := s.run.modifyStep index fun step => { step with status := .cancelled }
    history := s.history ++ [.cancelled] }

def blockStep (reasons : List String) (event : StepEvent) (s : LoopState) : LoopState :=
  { s with
    run := (s.run.modifyStep index fun step =>
      { step with status := .blocked, violations := step.violations ++ reasons }).addBlockedReasons
        reasons
    history := s.history ++ [event] }

/-- `can_start_phase` for a step, on the workflow of the run. -/
def checkDependencies (admission : WorkflowPhase → WorkflowPhaseDependency → Option String)
    (step : TaskRunStep) (s : LoopState) : List String × LoopState :=
  match s.run.workflow with
  | none => ([], s)
  | some workflow =>
    let (reasons, workflow) := workflow.canStartPhase admission step.stepId
    (reasons, { s with run := { s.run with workflow := some workflow } })

variable (step : TaskRunStep)

def skipWarnings (reasons : List String) : List String :=
  (step.warnings ++ "optional_phase_dependency_unavailable" :: reasons).eraseDups

def skipStep (reasons : List String) (s : LoopState) : LoopState :=
  let warnings := skipWarnings step reasons
  { s with
    run := { s.run.modifyStep index fun step =>
        { step with status := .skipped, warnings := warnings } with
      executionGraph := s.run.executionGraph.map
        (·.markStepFinished step.stepId .skipped warnings []) }
    context := { s.context with warnings := s.context.warnings ++ warnings }
    history := s.history ++ [.dependencySkipped reasons] }

def finishPhase (status : StepStatus) (violations : List String) (eventId : String)
    (s : LoopState) : LoopState :=
  { s with run := { s.run with
    workflow := s.run.workflow.map (·.finishPhaseForStep step.stepId status violations eventId)
    currentStepId := none
    revision := s.run.revision + 1 } }

def startStep (s : LoopState) : LoopState :=
  { s with run := { s.run.modifyStep index fun step => { step with status := .running } with
    currentStepId := some step.stepId
    executionGraph := s.run.executionGraph.map (·.markStepStarted step.stepId)
    revision := s.run.revision + 1 } }

def startPhase (s : LoopState) : LoopState :=
  { s with run := { s.run with workflow := s.run.workflow.map (·.startPhaseForStep step.stepId) } }

/-- The outputs of a step are handed on under its action and its type, unless
they are there. -/
def addOutput (name : String) (summary : List (String × Json))
    (outputs : List (String × Json)) : List (String × Json) :=
  if (outputs.lookup name).isSome then outputs else outputs ++ [(name, .obj summary)]

def finishContext (outcome : StepOutcome) (context : TaskRunContext) : TaskRunContext :=
  let summary := sanitizeFields outcome.summary
  let outputs :=
    if (outcome.status = .completed ∨ outcome.status = .partially) ∧ summary.isEmpty = false then
      addOutput step.stepType summary (addOutput step.action summary context.outputs)
    else context.outputs
  if step.required then
    { outputs := outputs
      limitations := context.limitations ++ outcome.limitations
      blockedItems := context.blockedItems ++ outcome.blockedItems
      warnings := context.warnings ++ outcome.warnings }
  else
    { outputs := outputs
      limitations := context.limitations
      blockedItems := context.blockedItems
      warnings := context.warnings ++ outcome.limitations ++ outcome.blockedItems ++
        outcome.warnings }

def finishStep (reply : StepReply) (s : LoopState) : LoopState :=
  let outcome := reply.outcome
  let run := { s.run.modifyStep index fun step =>
      { step with
        status := outcome.status
        warnings := outcome.warnings.eraseDups
        violations := outcome.violations.eraseDups } with
    executionGraph := s.run.executionGraph.map (·.markStepFinished step.stepId outcome.status
      outcome.warnings.eraseDups outcome.violations.eraseDups)
    evidence := reply.evidence }
  { run :=
      if outcome.status = .blocked then
        run.addBlockedReasons (outcome.violations ++ outcome.blockedItems)
      else run
    context := finishContext step outcome reply.context
    sawPartial := s.sawPartial || (outcome.status = .partially && step.required)
    history := s.history ++ [.executed outcome] }

end LoopState

def StepStatus.finishedEventType : StepStatus → String
  | .completed => "step_completed"
  | .partially => "step_partial"
  | .failed => "step_failed"
  | .blocked => "step_blocked"
  | .cancelled => "step_cancelled"
  | _ => "step_failed"

def StepStatus.stops? : StepStatus → Option RunOutcome
  | .blocked => some .blocked
  | .failed => some .failed
  | _ => none

def startStep (inputs : LoopInputs) (index : ℕ) (step : TaskRunStep) (s : LoopState) :
    RunProgram LoopState := do
  let now := inputs.clock.now
  let s := s.startStep index step
  let _ ← createStepEvent now "StepStarted" "running"
    ("Canonical step " ++ step.stepType ++ " started.") step.stepId []
  let _ ← createStepEvent now "step_started" "running"
    ("Step " ++ step.stepType ++ " started.") step.stepId []
  let s := s.startPhase step
  RunProgram.updateRun s.run
  RunProgram.updateRun s.run
  pure s

def finishStep (inputs : LoopInputs) (index : ℕ) (step : TaskRunStep) (reply : StepReply)
    (s : LoopState) : RunProgram LoopState := do
  let now := inputs.clock.now
  let outcome := reply.outcome
  let s := s.finishStep index step reply
  let _ ← createStepEvent now "StepFinished" outcome.status.text
    ("Canonical step " ++ step.stepType ++ " finished.") step.stepId []
  let eventId ← createStepEvent now outcome.status.finishedEventType outcome.status.text
    ("Step " ++ step.stepType ++ " finished with status " ++ outcome.status.text ++ ".")
    step.stepId []
  let s := s.finishPhase step outcome.status outcome.violations eventId
  RunProgram.updateRun s.run
  pure s

def skipStep (inputs : LoopInputs) (index : ℕ) (step : TaskRunStep) (reasons : List String)
    (s : LoopState) : RunProgram LoopState := do
  let s := s.skipStep index step reasons
  let eventId ← createStepEvent inputs.clock.now "step_skipped" "skipped"
    "Optional step skipped because governed workflow dependency evidence was unavailable."
    step.stepId []
  let s := s.finishPhase step .skipped [] eventId
  RunProgram.updateRun s.run
  pure s

variable (inputs : LoopInputs)

/-- One step, for the run that was read before it. It returns the outcome the
loop stops with, if it stops. -/
def runStep (index : ℕ) (step : TaskRunStep) (latest : Option TaskRun) (s : LoopState) :
    RunProgram (LoopState × Option RunOutcome) :=
  let now := inputs.clock.now
  let s := s.observe latest
  let reasons := inputs.guard.checkStep s.run step index (inputs.elapsed index)
  if !reasons.isEmpty then
    if reasons.contains cancellationRequestedReason then do
      let _ ← createStepEvent now "step_cancelled" "cancelled"
        "Step cancelled before execution." step.stepId []
      pure (s.cancelStep index, some .cancelled)
    else do
      let _ ← createStepEvent now "step_blocked" "blocked" "Step blocked by TaskRunGuard."
        step.stepId [("reasons", .list (reasons.map .str))]
      pure (s.blockStep index reasons (.guardBlocked reasons), some .blocked)
  else
    let (missing, s) := s.checkDependencies inputs.admission step
    if missing.isEmpty then do
      let s ← startStep inputs index step s
      RunProgram.executeStep index
      let reply := inputs.execute index s.run step s.context
      let s ← finishStep inputs index step reply s
      pure (s, if step.required then reply.outcome.status.stops? else none)
    else if !step.required then do
      let s ← skipStep inputs index step missing s
      pure (s, none)
    else do
      let s := s.blockStep index missing (.dependencyBlocked missing)
      let _ ← createStepEvent now "step_blocked" "blocked"
        "Step blocked by Workflow dependency runtime." step.stepId
        [("reasons", .list (missing.map .str))]
      RunProgram.updateRun s.run
      pure (s, some .blocked)

def runSteps (inputs : LoopInputs) :
    ℕ → List TaskRunStep → LoopState → RunProgram (LoopState × Option RunOutcome)
  | _, [], s => pure (s, none)
  | index, step :: rest, s => do
    let latest ← RunProgram.getLatest index
    let (s, stopped) ← runStep inputs index step latest s
    match stopped with
    | some outcome => pure (s, some outcome)
    | none => runSteps inputs (index + 1) rest s

/-- `SupervisedExecutionLoop._timeline_bootstrap_reasons`. -/
def timelineBootstrapReasons (events : List TaskRunEvent) : List String :=
  let events := bySequence events
  if events.isEmpty then ["timeline_events_missing"]
  else
    (if events.map (·.sequence) = (List.range events.length).map (fun i : ℕ => (i : ℤ) + 1) then []
      else ["event_sequence_not_contiguous"]) ++
    (if events.any (·.type = "run_created") then [] else ["timeline_missing_run_created"]) ++
    (if events.any (·.type = "task_bootstrap_created") then []
      else ["timeline_missing_task_bootstrap_created"])

/-- `TaskRunGuard.check_run`. -/
def checkRunReasons (run : TaskRun) : List String :=
  (inputs.checkRun run ++
    (if run.cancellationRequested then [cancellationRequestedReason] else []) ++
    (if run.status.isTerminal then ["task_run_terminal"] else [])).eraseDups

variable (now : String)

/-- `SupervisedExecutionLoop._record_block`. -/
def recordBlock (message : String) : RunProgram Unit := do
  let _ ← createEvent now "policy_decision" "blocked"
    "A runtime policy decision blocked the task." []
  let _ ← createEvent now "task_blocked" "blocked" message []
  let _ ← createEvent now "run_blocked" "blocked" message []
  pure ()

/-- `SupervisedExecutionLoop._finalize_result`. -/
def finalizeResult (run : TaskRun) (context : TaskRunContext)
    (completion : Option TaskCompletionEvaluation) : RunProgram (TaskRun × TaskRunResult) := do
  let counted ← RunProgram.getEvents
  let events ← RunProgram.getEvents
  let result := buildResult (inputs.summary run) run context completion
    (inputs.validate run events) counted.length
  let run := { run with evidence := inputs.project run result }
  RunProgram.updateRun run
  RunProgram.saveResult inputs.clock.now result
  pure (run, result)

/-- What the loop returns, with the state after its last step and the status it
proposed there, if it came to the steps. -/
structure LoopReturn where
  run : TaskRun
  result : Option TaskRunResult
  steps : Option (LoopState × RunOutcome)

def blockBeforeStart (reasons : List String) (message : String) (run : TaskRun) :
    RunProgram LoopReturn := do
  let run ← RunProgram.ofExcept
    ((run.addBlockedReasons reasons).transition inputs.clock.now .blocked)
  recordBlock inputs.clock.now message
  RunProgram.updateRun run
  let (run, result) ← finalizeResult inputs run (inputs.buildContext run) none
  pure ⟨run, some result, none⟩

def queueRun (run : TaskRun) : RunProgram TaskRun :=
  if run.status = .created then do
    let run ← RunProgram.ofExcept (run.transition now .queued)
    let _ ← createEvent now "run_queued" "queued"
      "TaskRun queued for explicit synchronous execution." []
    pure run
  else pure run

def recordApproval (run : TaskRun) : RunProgram Unit :=
  if run.approvalId.getD "" ≠ "" then do
    let _ ← createEvent now "ExecutionPlanApproved" "approved"
      "ExecutionPlan approval observed before execution."
      [("approval_id", .str (run.approvalId.getD ""))]
    pure ()
  else pure ()

def startRun (run : TaskRun) : RunProgram TaskRun := do
  let now := inputs.clock.now
  let run ← queueRun now run
  recordApproval now run
  let run ← RunProgram.ofExcept (run.transition now .running)
  let _ ← createEvent now "ExecutionStarted" "running"
    "Canonical ExecutionPlan execution started." []
  let _ ← createEvent now "run_started" "running" "Supervised read-only execution started." []
  RunProgram.updateRun run
  pure run

variable (s : LoopState)

def proposedOutcome : Option RunOutcome → RunOutcome
  | some outcome => outcome
  | none =>
    if s.sawPartial = true ∨ s.context.limitations ≠ [] ∨ s.context.blockedItems ≠ [] then
      .partially
    else .completed

def ResultStatus.outcome : ResultStatus → RunOutcome
  | .completed => .completed
  | .completedWithLimitations => .partially
  | .partially => .partially
  | .failed => .failed
  | .cancelled => .cancelled
  | .blocked => .blocked

variable (proposed : RunOutcome)

/-- The status the loop ends in: a completed run is lowered if its completion
contract is not met. -/
def finalOutcome (completion : TaskCompletionEvaluation) : RunOutcome :=
  if proposed = .completed ∧ completion.status ≠ .completed then completion.status.outcome
  else proposed

def recordEnd (terminal : RunOutcome) : RunProgram Unit :=
  if terminal = .blocked then
    recordBlock now "TaskRun finished blocked by a governed runtime decision."
  else do
    let _ ← createEvent now "SpeakerTruthGenerated" terminal.status.text
      ("Speaker Truth state can be derived from timeline, validation, artifacts and " ++
        "completion.") []
    let _ ← createEvent now terminal.eventType terminal.status.text
      ("TaskRun finished with status " ++ terminal.status.text ++ ".") []
    pure ()

def LoopState.completion (inputs : LoopInputs) (s : LoopState) (proposed : RunOutcome) :
    TaskCompletionEvaluation :=
  inputs.completion.resolve inputs.services.codec s.run s.context proposed

def LoopState.terminal : RunOutcome :=
  finalOutcome proposed (s.completion inputs proposed)

def TaskRun.closed (terminal : RunOutcome) (run : TaskRun) : TaskRun :=
  { run with
    executionGraph :=
      if terminal = .cancelled then run.executionGraph.map (·.markCancelled)
      else run.executionGraph }

def LoopState.finalContext : TaskRunContext :=
  { s.context with
    limitations := s.context.limitations ++ (s.completion inputs proposed).limitations
    warnings := s.context.warnings ++ (s.completion inputs proposed).warnings }

def recordCompletion (completion : TaskCompletionEvaluation) : RunProgram Unit := do
  let _ ← createEvent now "ValidationStarted" "validating"
    "Validation phase started from execution outputs." []
  let _ ← createEvent now "ValidationFinished" completion.status.text
    "Validation phase finished." []
  let _ ← createEvent now "ArtifactsCreated" "observed"
    "Artifact expectations reconciled for execution." []
  let _ ← createEvent now "CompletionGenerated" completion.status.text
    "Completion generated from timeline and validation." []
  let _ ← createEvent now "task_completion_evaluated" completion.status.text
    "Task completion contract evaluated." []
  pure ()

def closeRun (run : TaskRun) : RunProgram LoopReturn := do
  recordEnd inputs.clock.now (s.terminal inputs proposed)
  let run := { run with currentStepId := none }
  RunProgram.updateRun run
  let (run, result) ← finalizeResult inputs run (s.finalContext inputs proposed)
    (some (s.completion inputs proposed))
  pure ⟨run, some result, some (s, proposed)⟩

def finishRun : RunProgram LoopReturn := do
  let terminal := s.terminal inputs proposed
  recordCompletion inputs.clock.now (s.completion inputs proposed)
  let run ← RunProgram.ofExcept
    ((s.run.closed terminal).transition inputs.clock.now terminal.status)
  closeRun inputs s proposed run

def superviseRun (run : TaskRun) : RunProgram LoopReturn := do
  let existing ← getResult inputs.services inputs.clock
  if run.status.isTerminal ∨ run.status = .running then
    pure ⟨run, existing, none⟩
  else
    let events ← RunProgram.getEvents
    let timelineReasons := timelineBootstrapReasons events
    let guardReasons := checkRunReasons inputs run
    if !timelineReasons.isEmpty then
      blockBeforeStart inputs timelineReasons
        "TaskRun blocked because the runtime timeline is incomplete." run
    else if !guardReasons.isEmpty then
      blockBeforeStart inputs guardReasons "TaskRun blocked by initial guard." run
    else
      let run ← startRun inputs run
      let (s, stopped) ← runSteps inputs 0 run.plan.steps ⟨run, inputs.buildContext run, false, []⟩
      finishRun inputs s (proposedOutcome s stopped)

/-- `SupervisedExecutionLoop.run`. -/
def supervisedRun : RunProgram LoopReturn := do
  let run ← RunProgram.getRun "task_run_not_found"
  superviseRun inputs run

end AIpinho.Runtime
