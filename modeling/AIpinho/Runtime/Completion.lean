import AIpinho.Runtime.Lifecycle

/-!
# The completion contract

`TaskCompletionResolver.resolve` compares what a contract asks for with what the steps have
left, and turns the proposed status into the reported one. `TaskRunResultService.build` makes
the result; its validation can lower a completed result.
-/

namespace AIpinho.Runtime

open Lib

/-- The status in which the loop ends a run. -/
inductive RunOutcome
  | completed | partially | failed | cancelled | blocked
  deriving DecidableEq

def RunOutcome.status : RunOutcome → TaskRunStatus
  | .completed => .completed
  | .partially => .partially
  | .failed => .failed
  | .cancelled => .cancelled
  | .blocked => .blocked

def RunOutcome.eventType : RunOutcome → String
  | .completed => "run_completed"
  | .partially => "run_partial"
  | .failed => "run_failed"
  | .cancelled => "run_cancelled"
  | .blocked => "run_blocked"

/-- `TaskRunContext`: what the steps hand on. -/
structure TaskRunContext where
  outputs : List (String × Json)
  limitations : List String
  blockedItems : List String
  warnings : List String

/-- The completion policy. -/
structure CompletionPolicy where
  requiredOutputs : String → List String
  /-- Whether a contract asks for the requested deliverables. -/
  deliverablesEnabled : String → Bool
  outputAliases : String → List String

def isNotBlank (s : String) : Bool := s.toList.any fun c => !isSpace c

namespace CompletionPolicy

variable (policy : CompletionPolicy)

/-- `TaskCompletionResolver._output_value`. -/
def outputValue (context : TaskRunContext) (outputId : String) : Option Json :=
  (outputId :: policy.outputAliases outputId).findSome? fun name =>
    match context.outputs.lookup name with
    | some .null => none
    | value => value

def expectedOutputs (contractType : String) : List String :=
  (policy.requiredOutputs contractType).filter isNotBlank

variable (codec : Codec)

def listTexts (fields : List (String × Json)) (name : String) : List String :=
  match fields.lookup name with
  | some (.list items) => items.map (valueText codec)
  | _ => []

variable (run : TaskRun)

def requestedDeliverables : List String :=
  match run.evidence.lookup "intent_map" with
  | some (.obj intent) => (listTexts codec intent "requested_deliverables").filter isNotBlank
  | _ => []

def deliverableFulfilled (context : TaskRunContext) (item : String) : Bool :=
  match policy.outputValue context "project_report" with
  | some (.obj report) =>
    (listTexts codec report "fulfilled_deliverables").contains item &&
      !(listTexts codec report "missing_deliverables").contains item
  | _ => false

def expectedDeliverables : List String :=
  if policy.deliverablesEnabled run.contractType then requestedDeliverables codec run else []

def missing (context : TaskRunContext) : List String :=
  ((policy.expectedOutputs run.contractType).filter fun id =>
      (policy.outputValue context id).isNone) ++
    ((policy.expectedDeliverables codec run).filter fun item =>
      !policy.deliverableFulfilled codec context item).map ("deliverable:" ++ ·)

def fulfilled (context : TaskRunContext) : List String :=
  ((policy.expectedOutputs run.contractType).filter fun id =>
      (policy.outputValue context id).isSome) ++
    ((policy.expectedDeliverables codec run).filter fun item =>
      policy.deliverableFulfilled codec context item).map ("deliverable:" ++ ·)

def resolvedStatus (proposed : RunOutcome) (missing : List String) : ResultStatus :=
  match proposed with
  | .failed => .failed
  | .blocked => .blocked
  | .partially => .partially
  | _ => if missing.isEmpty then .completed else .partially

/-- `TaskCompletionResolver.resolve`. -/
def resolve (context : TaskRunContext) (proposed : RunOutcome) : TaskCompletionEvaluation :=
  let missing := policy.missing codec run context
  let status := resolvedStatus proposed missing
  { status := status
    safeToReportSuccess := status = .completed && missing.isEmpty
    expectedOutcomes :=
      (policy.expectedOutputs run.contractType ++
        (policy.expectedDeliverables codec run).map ("deliverable:" ++ ·)).eraseDups
    fulfilledOutcomes := (policy.fulfilled codec run context).eraseDups
    missingOutcomes := missing.eraseDups
    warnings := []
    limitations :=
      if missing.isEmpty then []
      else ["missing_required_expected_outcomes:" ++ ",".intercalate missing] }

theorem resolve_status_eq_completed_iff (context : TaskRunContext) (proposed : RunOutcome) :
    (policy.resolve codec run context proposed).status = .completed ↔
      (proposed = .completed ∨ proposed = .cancelled) ∧ policy.missing codec run context = [] := by
  cases proposed <;> simp [resolve, resolvedStatus]

theorem resolve_safe_iff (context : TaskRunContext) (proposed : RunOutcome) :
    (policy.resolve codec run context proposed).safeToReportSuccess = true ↔
      (policy.resolve codec run context proposed).status = .completed := by
  rw [resolve_status_eq_completed_iff]
  cases proposed <;> simp [resolve, resolvedStatus]

end CompletionPolicy

def TaskRunStatus.resultStatus : TaskRunStatus → ResultStatus
  | .completed => .completed
  | .partially => .partially
  | .cancelled => .cancelled
  | .blocked => .blocked
  | _ => .failed

def loweringStatuses : List String := ["failed", "rejected", "degraded", "needs_review", "blocked"]

def effectiveValidation (status : ResultStatus) (verdict : String) : String :=
  if verdict = "passed" then
    match status with
    | .blocked => "blocked"
    | .failed => "failed"
    | .cancelled => "failed"
    | _ => verdict
  else verdict

def lowersCompleted (verdict : Option String) : Bool :=
  verdict.any fun v => loweringStatuses.contains v

/-- `TaskRunResultService.build`, with the text for a reader as a parameter. The
verdict of the validation gate is missing if the gate fails. -/
def buildResult (summary : ResultStatus → String) (run : TaskRun) (context : TaskRunContext)
    (completion : Option TaskCompletionEvaluation) (verdict : Option String) (eventsCount : ℕ) :
    TaskRunResult :=
  let status := run.status.resultStatus
  let stepWarnings := (run.plan.steps.filter (·.status = .partially)).flatMap (·.warnings)
  let stepViolations := (run.plan.steps.filter (·.status = .blocked)).flatMap (·.violations)
  let limitations := (context.limitations ++ stepWarnings).eraseDups
  let limitations :=
    if run.status = .partially ∧ limitations.isEmpty then
      ["one_or_more_steps_completed_partially"] else limitations
  let effective := verdict.map (effectiveValidation status)
  let notes := match effective with
    | some v => if loweringStatuses.contains v then ["validation_status:" ++ v] else []
    | none => []
  let status' :=
    if status = .completed ∧ lowersCompleted effective = true then .partially else status
  { status := status'
    summary := summary status'
    finishedAt := none
    limitations := (limitations ++ notes).eraseDups
    blockedItems := (context.blockedItems ++ stepViolations).eraseDups
    warnings := (run.warnings ++ context.warnings ++
      (if effective.isNone then ["validation_dependency_failed"] else notes)).eraseDups
    eventsCount := eventsCount
    validationReason := none
    completion := completion }

theorem buildResult_status (summary : ResultStatus → String) (run : TaskRun)
    (context : TaskRunContext) (completion : Option TaskCompletionEvaluation)
    (verdict : Option String) (eventsCount : ℕ) :
    (buildResult summary run context completion verdict eventsCount).status =
      if run.status = .completed ∧ lowersCompleted verdict = true then .partially
      else run.status.resultStatus := by
  have heffective : run.status.resultStatus = .completed →
      verdict.map (effectiveValidation run.status.resultStatus) = verdict := by
    intro hstatus
    cases verdict with
    | none => rfl
    | some v => simp [hstatus, effectiveValidation]
  have hcompleted : run.status.resultStatus = .completed ↔ run.status = .completed := by
    cases run.status <;> simp [TaskRunStatus.resultStatus]
  simp only [buildResult]
  by_cases hstatus : run.status = .completed
  · rw [heffective (hcompleted.mpr hstatus)]
    simp [hstatus, TaskRunStatus.resultStatus]
  · have hne : ¬run.status.resultStatus = .completed := fun h => hstatus (hcompleted.mp h)
    simp [hstatus, hne]

end AIpinho.Runtime
