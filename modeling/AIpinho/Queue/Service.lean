import AIpinho.Approvals.Service

/-!
# The task queue

`reconcile` goes over the runs that have not ended, on copies without their
payloads: it repairs those whose approval was decided, ends those whose artifact is silent, and
cancels those that have waited too long or are too many.
-/

namespace AIpinho.Queue

open Lib AIpinho.Runtime AIpinho.Approvals

/-- The runs by the names of their directories, in the order in which these are listed,
and the approvals. -/
structure QueueState where
  runs : Table String RunFiles
  approvals : ApprovalTable

def noFiles : RunFiles := ⟨none, none, [], none, []⟩

def hasNoFile (files : RunFiles) : Bool :=
  files.run.isNone && files.index.isNone && files.events.isEmpty && files.result.isNone &&
    files.payloads.isEmpty

namespace QueueState

def filesOf (q : QueueState) (runId : String) : RunFiles := (q.runs.get? runId).getD noFiles

def setFiles (runId : String) (files : RunFiles) (q : QueueState) : QueueState :=
  if (q.runs.get? runId).isNone && hasNoFile files then q
  else { q with runs := q.runs.insert runId files }

end QueueState

variable (statuses : List TaskRunStatus)

/-- The runs that `list_queue_runs` finds in a directory: it looks at the document only
if the index, or the document itself if there is no index, has one of the statuses. -/
def listed (files : RunFiles) : Except String (Option TaskRun) :=
  if files.index.any (fun status => !statuses.contains status) ||
      (files.index.isNone && files.result.isSome) then .ok none
  else
    match files.getRunLightweight with
    | .missing => .ok none
    | .invalid => .error "ValidationError"
    | .found run =>
      if files.index.isSome || statuses.contains run.status then .ok (some run) else .ok none

/-- The directory after the listing, which writes a missing index. -/
def withIndex (run : TaskRun) (files : RunFiles) : RunFiles :=
  { files with index := some (files.index.getD run.status) }

/-- The listing of the directories, up to the first document that fails the schema. -/
def listEntries (statuses : List TaskRunStatus) : List (String × RunFiles) →
    Except String (List (String × TaskRun)) × List (String × RunFiles)
  | [] => (.ok [], [])
  | (runId, files) :: rest =>
    match listed statuses files with
    | .error e => (.error e, (runId, files) :: rest)
    | .ok none =>
      ((listEntries statuses rest).1, (runId, files) :: (listEntries statuses rest).2)
    | .ok (some run) =>
      ((listEntries statuses rest).1.map ((runId, run) :: ·),
        (runId, withIndex run files) :: (listEntries statuses rest).2)

theorem map_fst_listEntries (entries : List (String × RunFiles)) :
    (listEntries statuses entries).2.map Prod.fst = entries.map Prod.fst := by
  induction entries with
  | nil => rfl
  | cons e entries ih =>
    obtain ⟨runId, files⟩ := e
    rw [listEntries]
    split
    · rfl
    · simp only [List.map_cons, ih]
    · simp only [List.map_cons, ih]

def newestFirst (runs : List (String × TaskRun)) : List (String × TaskRun) :=
  runs.insertionSort fun a b => b.2.createdAt ≤ a.2.createdAt

def oldestFirst (runs : List (String × TaskRun)) : List (String × TaskRun) :=
  runs.insertionSort fun a b => a.2.createdAt ≤ b.2.createdAt

namespace QueueState

/-- What `TaskRunStore.list_queue_runs` returns. Each run comes with the name of its
directory, which is its identifier. -/
def queueRuns (limit : ℕ) (q : QueueState) : Except String (List (String × TaskRun)) :=
  (listEntries statuses q.runs.entries).1.map fun runs =>
    (newestFirst runs).take (max 1 (min limit 1000))

/-- The state after `TaskRunStore.list_queue_runs`. -/
def indexed (q : QueueState) : QueueState :=
  { q with runs :=
    ⟨(listEntries statuses q.runs.entries).2, by
      rw [map_fst_listEntries]
      exact q.runs.nodup⟩ }

end QueueState

/-- The operations of the queue. -/
inductive QueueOp
  | run (runId : String) (op : RunOp)
  | approval (op : ApprovalOp)
  | listQueueRuns (statuses : List TaskRunStatus) (limit : ℕ)

def queueStore : Signature where
  Op := QueueOp
  Answer
    | .run _ op => runStore.Answer op
    | .approval op => approvalStore.Answer op
    | .listQueueRuns .. => Except String (List (String × TaskRun))

/-- A service that works on runs and approvals. -/
abbrev QueueProgram (α : Type) : Type := Program queueStore α

/-- What the operations do. -/
def queueHandler (codec : Codec) : Handler queueStore QueueState
  | .run runId op, q =>
    ((runHandler codec runId op (q.filesOf runId)).1,
      q.setFiles runId (runHandler codec runId op (q.filesOf runId)).2)
  | .approval op, q =>
    ((approvalHandler op q.approvals).1, { q with approvals := (approvalHandler op q.approvals).2 })
  | .listQueueRuns statuses limit, q => (q.queueRuns statuses limit, q.indexed statuses)

def runInclusion (runId : String) : runStore.Inclusion queueStore where
  op := .run runId
  answer _ a := a

def approvalInclusion : approvalStore.Inclusion queueStore where
  op := .approval
  answer _ a := a

def onRun {α : Type} (runId : String) (p : RunProgram α) : QueueProgram α :=
  p.hoist (runInclusion runId)

def onApprovals {α : Type} (p : ApprovalProgram α) : QueueProgram α := p.hoist approvalInclusion

def listQueueRuns (limit : ℕ) : QueueProgram (List (String × TaskRun)) := do
  match ← Program.perform (S := queueStore) (.listQueueRuns statuses limit) with
  | .error e => .raise e
  | .ok runs => pure runs

/-- The properties of `TaskQueueService`. -/
structure TaskQueuePolicy where
  /-- Whether the queue is reconciled at all. -/
  enabled : Bool
  maxPendingTasks : ℕ
  maxWaitSeconds : ℤ
  /-- Whether tasks that waited too long are cancelled. -/
  autoCancelExpired : Bool
  cancelLinkedPendingApproval : Bool
  /-- What happens to tasks that are too many. -/
  overflowStrategy : String
  activeStates : List TaskRunStatus
  pendingStates : List TaskRunStatus
  statePriority : List (TaskRunStatus × ℕ)
  /-- How many microseconds an artifact may be silent. -/
  artifactCreationTerminality : ℤ

/-- The settings of `task_queue_policy.yaml`, without settings in the environment. -/
def taskQueuePolicy : TaskQueuePolicy where
  enabled := true
  maxPendingTasks := 25
  maxWaitSeconds := 86400
  autoCancelExpired := true
  cancelLinkedPendingApproval := true
  overflowStrategy := "cancel_oldest_pending"
  activeStates := [.running]
  pendingStates := [.waitingInput, .queued, .created]
  statePriority := [(.running, 0), (.waitingInput, 1), (.queued, 2), (.created, 3)]
  artifactCreationTerminality := 60000000

/-- What the queue asks other services for, and its settings. -/
structure QueueServices where
  store : StoreServices
  approvals : ApprovalServices
  policy : TaskQueuePolicy

variable (policy : TaskQueuePolicy)

def TaskQueuePolicy.queueStatuses : List TaskRunStatus :=
  policy.pendingStates ++ policy.activeStates

variable (clock : Clock)

/-- `_age_seconds`; a time that cannot be parsed is now. -/
def ageSeconds (createdAt : String) : ℤ :=
  max 0 ((clock.elapsed createdAt).getD 0 / 1000000)

/-- The warnings of `_parse_datetime`. -/
def createdAtWarnings (createdAt : String) : List String :=
  if (clock.elapsed createdAt).isNone then ["task_queue_invalid_created_at"] else []

def errorClass (e : String) : String :=
  if e = "ValidationError" ∨ e = "TypeError" then e else "ValueError"

variable (services : QueueServices)

/-- What a reconciliation has done so far. -/
structure QueueReport where
  cancelledRuns : List String
  cancelledApprovals : List String
  warnings : List String

def QueueReport.warn (warning : String) (report : QueueReport) : QueueReport :=
  { report with warnings := report.warnings ++ [warning] }

def cancelLinkedApproval (clock : Clock) (approvalId : String) : ApprovalProgram Bool := do
  match ← getApproval clock approvalId with
  | none => pure false
  | some approval =>
    if approval.status = .pending then do
      let _ ← decideApproval services.approvals clock approvalId .cancelled
      pure true
    else pure false

def QueueReport.cancelledRun (runId : String) (result : TaskCancellationResult)
    (report : QueueReport) : QueueReport :=
  if result.cancellationRequested then
    { report with cancelledRuns := report.cancelledRuns ++ [runId] }
  else report

def QueueReport.cancelledApproval (approvalId : String) (result : Except String Bool)
    (report : QueueReport) : QueueReport :=
  match result with
  | .ok true => { report with cancelledApprovals := report.cancelledApprovals ++ [approvalId] }
  | .ok false => report
  | .error e =>
    report.warn ("task_queue_approval_cancel_failed:" ++ approvalId ++ ":" ++ errorClass e)

variable (now : String)

/-- `_cancel_run`. -/
def cancelRun (clock : Clock) (runId : String) (approvalId : Option String) (reason : String)
    (report : QueueReport) :
    QueueProgram QueueReport := do
  match ← (onRun runId (cancel clock.now reason)).attempt with
  | .error e =>
    pure (report.warn ("task_queue_cancel_failed:" ++ runId ++ ":" ++ errorClass e))
  | .ok result =>
    let report := report.cancelledRun runId result
    if approvalId.getD "" = "" ∨ services.policy.cancelLinkedPendingApproval = false then
      pure report
    else do
      let linked := approvalId.getD ""
      let cancelled ← (onApprovals (cancelLinkedApproval services clock linked)).attempt
      pure (report.cancelledApproval linked cancelled)

def awaitApproval (approvalId : String) (run : TaskRun) : RunProgram TaskRun := do
  let run ← RunProgram.ofExcept (run.transition now .waitingInput)
  RunProgram.updateRun run
  let _ ← createEvent now "run_waiting_input" "waiting_input"
    "TaskRun is waiting for an explicit approval decision." [("approval_id", .str approvalId)]
  pure run

def withoutApprovalRequired (reasons : List String) : List String :=
  reasons.filter (· ≠ "approval_required")

def withApproval (approvalId : String) (approval : ApprovalRequest) (run : TaskRun) : TaskRun :=
  { run with
    blockedReasons := withoutApprovalRequired run.blockedReasons
    approvalSnapshot := sanitizeValue (approval.modelDump approvalId)
    autoRunRequested := true }

def queueApproved (run : TaskRun) : RunProgram TaskRun :=
  if run.status = .created ∧ .queued ∈ run.status.targets then
    RunProgram.ofExcept (run.transition now .queued)
  else pure run

/-- `_resume_approved_approval`. -/
def resumeApprovedApproval (approvalId : String) (approval : ApprovalRequest) (run : TaskRun) :
    RunProgram TaskRun := do
  let run ← queueApproved now (withApproval approvalId approval run)
  RunProgram.updateRun run
  let _ ← createEvent now "approval_approved" run.status.text
    "Approval aprovado; TaskRun liberada para execucao governada."
    [("approval_id", .str approvalId)]
  let _ ← createEvent now "task_resumed_after_approval" run.status.text
    "TaskRun marcada para retomada pela fila governada."
    [("approval_id", .str approvalId), ("auto_run_requested", .bool true)]
  pure run

def withApprovalDenied (reasons : List String) : List String :=
  if "approval_denied" ∈ withoutApprovalRequired reasons then withoutApprovalRequired reasons
  else withoutApprovalRequired reasons ++ ["approval_denied"]

/-- `_cancel_denied_approval`. The block cause and the trace are not part
of the model. -/
def cancelDeniedApproval (approvalId : String) (run : TaskRun) : RunProgram TaskRun := do
  let run := { run with blockedReasons := withApprovalDenied run.blockedReasons }
  let run ← RunProgram.ofExcept (run.transition now .blocked)
  let denied ← createEvent now "approval_denied" "blocked"
    "The required approval was denied; no side effect will be executed."
    [("approval_id", .str approvalId)]
  let _ ← createEvent now "task_blocked" "blocked"
    "Task blocked because the required approval was denied."
    [("approval_denied_event_id", .str denied)]
  RunProgram.updateRun run
  pure run

def repaired (runId : String) (run : TaskRun) (failure : String)
    (result : Except String TaskRun) (report : QueueReport) : (String × TaskRun) × QueueReport :=
  match result with
  | .ok run => ((runId, run), report)
  | .error e => ((runId, run), report.warn (failure ++ ":" ++ runId ++ ":" ++ errorClass e))

def repairForApproval (clock : Clock) (runId approvalId : String) (run : TaskRun)
    (report : QueueReport) :
    Option ApprovalRequest → QueueProgram ((String × TaskRun) × QueueReport)
  | none => do
    let report ← cancelRun services clock runId none "linked_approval_missing" report
    pure ((runId, run), report)
  | some approval =>
    match approval.status with
    | .pending =>
      if run.status = .created ∨ run.status = .queued then do
        let run ← onRun runId (awaitApproval clock.now approvalId run)
        pure ((runId, run), report)
      else pure ((runId, run), report)
    | .approved => do
      let result ←
        (onRun runId (resumeApprovedApproval clock.now approvalId approval run)).attempt
      pure (repaired runId run "task_queue_approval_resume_failed" result report)
    | .rejected => do
      let result ← (onRun runId (cancelDeniedApproval clock.now approvalId run)).attempt
      pure (repaired runId run "task_queue_approval_cancel_failed" result report)
    | status => do
      let report ← cancelRun services clock runId none ("linked_approval_" ++ status.text) report
      pure ((runId, run), report)

/-- One step of `_reconcile_approval_states`. It returns the copy of the
run as it is afterwards. -/
def reconcileApprovalState (clock : Clock) (entry : String × TaskRun) (report : QueueReport) :
    QueueProgram ((String × TaskRun) × QueueReport) :=
  let approvalId := entry.2.approvalId.getD ""
  if entry.2.status.isTerminal = true ∨ approvalId = "" then pure (entry, report)
  else do
    match ← (onApprovals (getApproval clock approvalId)).attempt with
    | .error e =>
      pure (entry,
        report.warn ("task_queue_approval_read_failed:" ++ approvalId ++ ":" ++ errorClass e))
    | .ok approval =>
      repairForApproval services clock entry.1 approvalId entry.2 report approval

/-- `_reconcile_approval_states`. -/
def reconcileApprovalStates (services : QueueServices) (clock : Clock) :
    List (String × TaskRun) → QueueReport →
      QueueProgram (List (String × TaskRun) × QueueReport)
  | [], report => pure ([], report)
  | entry :: rest, report => do
    let (entry, report) ← reconcileApprovalState services clock entry report
    let (rest, report) ← reconcileApprovalStates services clock rest report
    pure (entry :: rest, report)

/-- The reason code of a run whose artifact is silent. -/
def artifactTimeout : String := "ARTIFACT_CREATION_TIMEOUT_WITHOUT_TERMINAL_ARTIFACT"

/-- One step of `_reconcile_artifact_creation_terminality_gaps`. -/
def reconcileArtifactGap (clock : Clock) (entry : String × TaskRun) (report : QueueReport) :
    QueueProgram QueueReport :=
  if entry.2.status ∉ services.policy.activeStates then pure report
  else do
    match ← onRun entry.1 (terminalizeIfArtifactCreationStalled services.store clock
        services.policy.artifactCreationTerminality artifactTimeout
        "artifact_worker_terminalization_guard") with
    | none => pure report
    | some result =>
      pure (report.warn ("artifact_creation_terminality_gap_reconciled:" ++ entry.1 ++ ":" ++
        result.validationReason.getD "None"))

def isOverdue (run : TaskRun) : Bool :=
  policy.pendingStates.contains run.status &&
    policy.maxWaitSeconds < ageSeconds clock run.createdAt

def overdueWarnings (runs : List (String × TaskRun)) : List String :=
  (runs.filter fun entry => policy.pendingStates.contains entry.2.status).flatMap fun entry =>
    createdAtWarnings clock entry.2.createdAt

def cancelRuns (clock : Clock) (reason : String) (runs : List (String × TaskRun))
    (report : QueueReport) : QueueProgram QueueReport :=
  Program.passEach (fun entry report =>
    cancelRun services clock entry.1 entry.2.approvalId reason report) runs report

def cancelOverdue (clock : Clock) (runs : List (String × TaskRun)) (report : QueueReport) :
    QueueProgram QueueReport :=
  if services.policy.autoCancelExpired then
    cancelRuns services clock "queue_wait_timeout_exceeded"
      (oldestFirst (runs.filter fun entry => isOverdue services.policy clock entry.2))
      { report with warnings := report.warnings ++ overdueWarnings services.policy clock runs }
  else pure report

def pendingRuns (runs : List (String × TaskRun)) : List (String × TaskRun) :=
  runs.filter fun entry => policy.pendingStates.contains entry.2.status

def overflowRuns (runs : List (String × TaskRun)) : List (String × TaskRun) :=
  (oldestFirst (pendingRuns policy runs)).take
    ((pendingRuns policy runs).length - policy.maxPendingTasks)

def cancelOverflow (clock : Clock) (runs : List (String × TaskRun)) (report : QueueReport) :
    QueueProgram QueueReport :=
  if services.policy.overflowStrategy = "cancel_oldest_pending" then
    cancelRuns services clock "queue_capacity_exceeded" (overflowRuns services.policy runs) report
  else pure report

structure TaskQueueItem where
  runId : String
  sessionId : Option String
  status : TaskRunStatus
  priority : ℕ
  createdAt : String
  ageSeconds : ℤ
  approvalId : Option String
  approvalStatus : Option String
  autoRunRequested : Bool
  requiresDecision : Bool
  /-- Whether the run has waited too long. -/
  expiredByPolicy : Bool

structure TaskQueueSnapshot where
  status : String
  policy : TaskQueuePolicy
  activeCount : ℕ
  pendingCount : ℕ
  /-- The runs somebody has to decide. -/
  requiresDecisionCount : ℕ
  totalVisible : ℕ
  items : List TaskQueueItem
  lastReconciledAt : String
  warnings : List String

def queueItem (entry : String × TaskRun) (approvalStatus : Option String) : TaskQueueItem :=
  let run := entry.2
  { runId := entry.1
    sessionId := textField? run.evidence "session_id"
    status := run.status
    priority := (policy.statePriority.lookup run.status).getD 100
    createdAt := run.createdAt
    ageSeconds := ageSeconds clock run.createdAt
    approvalId := run.approvalId
    approvalStatus := approvalStatus
    autoRunRequested := run.autoRunRequested
    requiresDecision :=
      approvalStatus = some "pending" || (run.status = .waitingInput && approvalStatus.isNone)
    expiredByPolicy := isOverdue policy clock run }

def snapshotItem (entry : String × TaskRun) : QueueProgram TaskQueueItem := do
  if entry.2.approvalId.getD "" = "" then pure (queueItem policy clock entry none)
  else
    match ← onApprovals (getApproval clock (entry.2.approvalId.getD "")) with
    | none => pure (queueItem policy clock entry (some "missing"))
    | some approval => pure (queueItem policy clock entry (some approval.status.text))

def snapshotItems (policy : TaskQueuePolicy) (clock : Clock) :
    List (String × TaskRun) → QueueProgram (List TaskQueueItem)
  | [] => pure []
  | entry :: rest =>
    if entry.2.status.isTerminal then snapshotItems policy clock rest
    else do
      let item ← snapshotItem policy clock entry
      let items ← snapshotItems policy clock rest
      pure (item :: items)

/-- Whether a time is not before another; a time that cannot be parsed is the oldest. -/
def isNewer (createdAt createdAt' : String) : Bool :=
  match clock.elapsed createdAt, clock.elapsed createdAt' with
  | some elapsed, some elapsed' => elapsed ≤ elapsed'
  | none, some _ => false
  | _, none => true

def itemBefore (a b : TaskQueueItem) : Bool :=
  a.priority < b.priority ||
    (a.priority = b.priority && isNewer clock a.createdAt b.createdAt)

/-- `_build_snapshot`. -/
def buildSnapshot (clock : Clock) (warnings : List String) : QueueProgram TaskQueueSnapshot := do
  let policy := services.policy
  let runs ← listQueueRuns policy.queueStatuses 1000
  let items ← snapshotItems policy clock runs
  let sorted := items.insertionSort fun a b => itemBefore clock a b
  let warnings := warnings ++
    (items.flatMap fun item => createdAtWarnings clock item.createdAt) ++
    items.flatMap fun item => createdAtWarnings clock item.createdAt
  pure
    { status := if warnings.isEmpty then "ok" else "degraded"
      policy := policy
      activeCount := sorted.countP fun item => policy.activeStates.contains item.status
      pendingCount := sorted.countP fun item => policy.pendingStates.contains item.status
      requiresDecisionCount := sorted.countP (·.requiresDecision)
      totalVisible := sorted.length
      items := sorted
      lastReconciledAt := clock.now
      warnings := warnings.eraseDups }

structure TaskQueueReconciliationResult where
  /-- Whether there were warnings, or the queue is disabled. -/
  status : String
  report : QueueReport
  snapshot : TaskQueueSnapshot

def reconcilePasses (clock : Clock) : QueueProgram QueueReport := do
  let statuses := services.policy.queueStatuses
  let runs ← listQueueRuns statuses 1000
  let (runs, report) ← reconcileApprovalStates services clock runs ⟨[], [], []⟩
  let report ← Program.passEach (reconcileArtifactGap services clock) runs report
  let runs ← listQueueRuns statuses 1000
  let report ← cancelOverdue services clock runs report
  let runs ← listQueueRuns statuses 1000
  cancelOverflow services clock runs report

/-- `reconcile`. -/
def reconcile (clock : Clock) : QueueProgram TaskQueueReconciliationResult :=
  if services.policy.enabled then do
    let report ← reconcilePasses services clock
    let snapshot ← buildSnapshot services clock report.warnings
    pure ⟨if report.warnings.isEmpty then "ok" else "degraded", report, snapshot⟩
  else do
    let snapshot ← buildSnapshot services clock ["task_queue_disabled"]
    pure ⟨"disabled", ⟨[], [], snapshot.warnings⟩, snapshot⟩

end AIpinho.Queue
