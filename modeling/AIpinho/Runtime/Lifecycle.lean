import AIpinho.Runtime.Store

/-!
# The lifecycle of a run, and cancelling one

`TaskRunLifecycleService` with the transitions of its policy, and
`TaskRunCancellationService.cancel`. A run that has not started is cancelled at once; for a
running one only the request is recorded.
-/

namespace AIpinho.Runtime

open Lib

/-- The transitions of the lifecycle policy. -/
def TaskRunStatus.targets : TaskRunStatus → List TaskRunStatus
  | .created => [.queued, .waitingDelegation, .waitingInput, .blocked, .cancelled, .expired]
  | .queued => [.running, .waitingInput, .cancelled, .blocked, .expired]
  | .waitingDelegation =>
    [.running, .waitingInput, .completed, .failed, .cancelled, .blocked, .expired]
  | .running => [.completed, .partially, .failed, .cancelled, .waitingInput, .blocked]
  | .waitingInput => [.running, .blocked, .cancelled, .expired]
  | _ => []

/-- `TaskRunLifecycleService.is_terminal`. -/
def TaskRunStatus.isTerminal : TaskRunStatus → Bool
  | .completed | .partially | .failed | .cancelled | .blocked | .expired => true
  | _ => false

/-- `TaskRunLifecycleService.can_cancel`. -/
def TaskRunStatus.canCancel : TaskRunStatus → Bool
  | .created | .queued | .waitingDelegation | .running | .waitingInput => true
  | _ => false

def TaskRun.moved (now : String) (target : TaskRunStatus) (run : TaskRun) : TaskRun :=
  { run with
    status := target
    revision := run.revision + 1
    startedAt :=
      if target = .running ∧ run.startedAt.getD "" = "" then some now else run.startedAt
    finishedAt := if target.isTerminal then some now else run.finishedAt }

/-- `TaskRunLifecycleService.transition`. -/
def TaskRun.transition (now : String) (target : TaskRunStatus) (run : TaskRun) :
    Except String TaskRun :=
  if run.status = target then .ok run
  else if target ∈ run.status.targets then .ok (run.moved now target)
  else .error ("invalid_task_run_transition:" ++ run.status.text ++ "->" ++ target.text)

def RunProgram.ofExcept {α : Type} : Except String α → RunProgram α
  | .ok a => pure a
  | .error e => .raise e

theorem TaskRun.transition_eq_ok {now : String} {target : TaskRunStatus} {run run' : TaskRun}
    (h : run.transition now target = .ok run') :
    run' = run ∧ run.status = target ∨
      target ∈ run.status.targets ∧ run' = run.moved now target := by
  rw [TaskRun.transition] at h
  split at h
  · rename_i hstatus
    exact .inl ⟨(Except.ok.inj h).symm, hstatus⟩
  · split at h
    · rename_i htarget
      exact .inr ⟨htarget, (Except.ok.inj h).symm⟩
    · cases h

theorem TaskRun.transition_of_mem {now : String} {target : TaskRunStatus} {run : TaskRun}
    (h : target ∈ run.status.targets) (hne : run.status ≠ target) :
    run.transition now target = .ok (run.moved now target) := by
  rw [TaskRun.transition, if_neg hne, if_pos h]

structure TaskCancellationResult where
  status : TaskRunStatus
  cancellationRequested : Bool
  message : String

def TaskRun.withCancellation (reason : String) (run : TaskRun) : TaskRun :=
  { run with
    cancellationRequested := true
    cancellationReason := some reason
    revision := run.revision + 1 }

def TaskRunStatus.cancelsAtOnce : TaskRunStatus → Bool
  | .created | .queued | .waitingInput => true
  | _ => false

/-- `TaskRunCancellationService.cancel`. -/
def cancel (now reason : String) : RunProgram TaskCancellationResult := do
  let run ← RunProgram.getRun "task_run_not_found"
  if !run.status.canCancel then
    pure ⟨run.status, false, "terminal_task_run_cannot_be_cancelled"⟩
  else
    let run := run.withCancellation reason
    let _ ← createEvent now "run_cancel_requested" run.status.text
      "TaskRun cancellation requested." [("reason", .str reason)]
    if run.status.cancelsAtOnce then
      let run ← RunProgram.ofExcept (run.transition now .cancelled)
      let _ ← createEvent now "run_cancelled" "cancelled"
        "TaskRun cancelled before the next step." []
      RunProgram.updateRun run
      pure ⟨run.status, true, "cancellation_recorded"⟩
    else
      RunProgram.updateRun run
      pure ⟨run.status, true, "cancellation_recorded"⟩

end AIpinho.Runtime
