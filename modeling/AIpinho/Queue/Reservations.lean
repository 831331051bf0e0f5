import AIpinho.Mission.Children
import AIpinho.Queue.TerminalEvents

/-!
# Reserved runs

`reserve_run` saves a run before anything is planned, and `create_run` saves the planned run in
its place. In between the run may be cancelled, or the queue may end it; `create_run` does not
look at its status. The answers of the planning services are an input.
-/

namespace AIpinho.Queue

open Lib AIpinho.Runtime AIpinho.Approvals
open AIpinho.Mission (objectField)

/-- `TaskRunRequest`, as far as the two calls read it. -/
structure TaskRunRequest where
  /-- The identifier of the run, if there is one already. -/
  taskRunId : Option String
  /-- The identifier of the task, if there is one already. -/
  taskId : Option String
  /-- The identifier of the operation, if there is one already. -/
  operationId : Option String
  approvalId : Option String
  contractType : String
  /-- What was understood of the task. -/
  intentMap : List (String × Json)
  startImmediately : Bool

/-- The identifiers of a run. -/
structure TaskIdentity where
  taskId : String
  operationId : String
  taskRunId : String

def givenOr (text : Option String) (other : String) : String :=
  if text.getD "" = "" then other else text.getD ""

def operationIdFrom (request : TaskRunRequest) (fresh : String) : String :=
  match request.intentMap.lookup "operation_id" with
  | some (.str candidate) =>
    if ["op_", "chatop_", "operation_"].any fun start =>
        start.toList.isPrefixOf candidate.toList then candidate
    else fresh
  | _ => fresh

/-- `TaskBootstrapRuntimeService.bootstrap`: what is not given gets a fresh name. -/
def bootstrap (request : TaskRunRequest) (fresh : TaskIdentity) : TaskIdentity where
  taskId := givenOr request.taskId fresh.taskId
  operationId := givenOr request.operationId (operationIdFrom request fresh.operationId)
  taskRunId := givenOr request.taskRunId fresh.taskRunId

/-- What the services answer that give a run its identity. -/
structure Bootstrapped where
  fresh : TaskIdentity
  context : List (String × Json)
  createdAt : String
  /-- The remaining members of the document of the run. -/
  others : List (String × Json)

/-- What the services answer that plan a run. -/
structure Planned where
  bootstrapped : Bootstrapped
  plan : TaskRunPlan
  planReasons : List String
  executionStatus : Option String
  workflow : Option WorkflowRuntimeInstance
  executionGraph : Option ExecutionGraph
  /-- Why the injected context was refused. -/
  contextReasons : List String
  contextWarnings : List String
  workspace : Option String
  guardReasons : Except String (List String)
  /-- Whether the queue starts runs by itself. -/
  autoRunEnabled : Bool

def reservationPending : Json := .str "durable_pending_enrichment"

def reservationEnriched : Json := .str "enriched"

/-- `bootstrap_context["reservation_status"]`. -/
def reservationStatus (run : TaskRun) : Option Json :=
  (objectField run.evidence "bootstrap_context").lookup "reservation_status"

/-- The run that `reserve_run` saves. -/
def reservedRun (request : TaskRunRequest) (answers : Bootstrapped) : TaskRun :=
  let task := bootstrap request answers.fresh
  { runId := task.taskRunId
    taskId := some task.taskId
    operationId := some task.operationId
    approvalId := request.approvalId
    contractType := request.contractType
    status := .created
    plan := ⟨"pending", [], none⟩
    workflow := none
    executionGraph := none
    currentStepId := none
    approvalSnapshot := .obj []
    autoRunRequested := request.startImmediately
    cancellationRequested := false
    cancellationReason := none
    revision := 1
    createdAt := answers.createdAt
    startedAt := none
    finishedAt := none
    warnings := []
    blockedReasons := []
    evidence :=
      [("bootstrap_context",
          .obj (Json.setField "reservation_status" reservationPending answers.context)),
        ("intent_map", .obj request.intentMap)] ++ answers.others }

/-- `TaskRunStore.create_run`. -/
def createStored (run : TaskRun) : RunProgram Unit := do
  match ← RunProgram.getRun? with
  | some _ => .raise "task_run_already_exists"
  | none => RunProgram.updateRun run

variable (now : String)

def announceRun (message : String) : RunProgram Unit := do
  let _ ← createEvent now "run_created" "created" message []
  let _ ← createEvent now "task_bootstrap_created" "created"
    "Universal Task identity created before execution." []
  pure ()

/-- What `reserve_run` does once the run has its identity. -/
def saveReserved (run : TaskRun) : RunProgram TaskRun := do
  match ← RunProgram.getRun? with
  | some _ => .raise "task_run_already_exists"
  | none => do
    createStored run
    announceRun now "TaskRun identity durably reserved before runtime enrichment."
    pure run

/-- `TaskRuntimeService.reserve_run`. The metadata of the events are left out. -/
def reserveRun (request : TaskRunRequest) (answers : Except String Bootstrapped) :
    QueueProgram TaskRun :=
  match answers with
  | .error e => .raise e
  | .ok answers =>
    onRun (bootstrap request answers.fresh).taskRunId
      (saveReserved now (reservedRun request answers))

def findReserved (request : TaskRunRequest) : QueueProgram (Option TaskRun) :=
  if request.taskRunId.getD "" = "" then pure none
  else onRun (request.taskRunId.getD "") RunProgram.getRun?

/-- What `create_run` refuses of a reservation. -/
def refusal (request : TaskRunRequest) (reserved : TaskRun) : Option String :=
  if reservationStatus reserved ≠ some reservationPending then some "task_run_already_exists"
  else if request.operationId ≠ reserved.operationId then
    some "task_run_reservation_operation_mismatch"
  else if request.taskId ≠ reserved.taskId then some "task_run_reservation_task_mismatch"
  else none

def approvalSnapshot (clock : Clock) (approvalId : Option String) : ApprovalProgram Json :=
  if approvalId.getD "" = "" then pure (.obj [])
  else do
    match ← getApproval clock (approvalId.getD "") with
    | none => pure (.obj [])
    | some approval => pure (sanitizeValue (approval.modelDump (approvalId.getD "")))

/-- The run that `create_run` makes of the plan. -/
def plannedRun (request : TaskRunRequest) (planned : Planned) (snapshot : Json) : TaskRun :=
  let task := bootstrap request planned.bootstrapped.fresh
  { runId := task.taskRunId
    taskId := some task.taskId
    operationId := some task.operationId
    approvalId := request.approvalId
    contractType := request.contractType
    status := .created
    plan := planned.plan
    workflow := planned.workflow
    executionGraph := planned.executionGraph
    currentStepId := none
    approvalSnapshot := snapshot
    autoRunRequested := request.startImmediately
    cancellationRequested := false
    cancellationReason := none
    revision := 1
    createdAt := planned.bootstrapped.createdAt
    startedAt := none
    finishedAt := none
    warnings :=
      ((if request.startImmediately && !planned.autoRunEnabled then ["auto_run_disabled_by_policy"]
        else []) ++ planned.contextWarnings).eraseDups
    blockedReasons :=
      planned.contextReasons ++ if planned.plan.status = "blocked" then planned.planReasons else []
    evidence :=
      [("bootstrap_context", .obj planned.bootstrapped.context),
        ("intent_map", .obj request.intentMap)] ++ planned.bootstrapped.others }

def keepBoundary (reserved fields : List (String × Json)) : List (String × Json) :=
  match reserved.lookup "public_response_boundary" with
  | some v => Json.setField "public_response_boundary" v fields
  | none => fields

def enrichedRun (latest run : TaskRun) : TaskRun :=
  let context := Json.setField "reservation_status" reservationEnriched
    (keepBoundary (objectField latest.evidence "bootstrap_context")
      (objectField run.evidence "bootstrap_context"))
  let intent := keepBoundary (objectField latest.evidence "intent_map")
    (objectField run.evidence "intent_map")
  { run with
    createdAt := latest.createdAt
    revision := max run.revision (latest.revision + 1)
    evidence := Json.setField "intent_map" (.obj intent)
      (Json.setField "bootstrap_context" (.obj context) run.evidence) }

def savePlanned (reserved : Option TaskRun) (run : TaskRun) : RunProgram TaskRun :=
  match reserved with
  | none => do
    createStored run
    pure run
  | some reserved => do
    let latest ← RunProgram.getRun?
    let run := enrichedRun (latest.getD reserved) run
    RunProgram.updateRun run
    pure run

def checkReserved (request : TaskRunRequest) : QueueProgram (Option TaskRun) := do
  let reserved ← findReserved request
  match reserved.bind (refusal request) with
  | some e => .raise e
  | none => pure reserved

/-- `ApprovalService.attach_runtime_context`. The dump of the plan is left out. -/
def attachRuntimeContext (clock : Clock) (workspace : Option String) (run : TaskRun)
    (approvalId : String) : ApprovalProgram Unit := do
  match ← getApproval clock approvalId with
  | none => pure ()
  | some approval => do
    let members := Json.setField "task_id" (Mission.textJson run.taskId)
      (Json.setField "run_id" (.str run.runId) approval.members)
    let members :=
      if workspace.getD "" ≠ "" ∧ textField? members "workspace_path" = none then
        Json.setField "workspace_path" (Mission.textJson workspace) members
      else members
    let members :=
      if run.plan.executionId.getD "" ≠ "" then
        Json.setField "execution_id" (Mission.textJson run.plan.executionId) members
      else members
    ApprovalProgram.save approvalId { approval with updatedAt := clock.now, members := members }
    ApprovalProgram.appendEvent approvalId
      ⟨"approval_runtime_context_attached", clock.now,
        "Approval vinculado a uma TaskRun resumivel."⟩

def attachApproval (clock : Clock) (id : String) (workspace : Option String) (run : TaskRun) :
    QueueProgram TaskRun :=
  if run.approvalId.getD "" = "" then pure run
  else do
    onApprovals (attachRuntimeContext clock workspace run (run.approvalId.getD ""))
    let snapshot ← onApprovals (approvalSnapshot clock run.approvalId)
    let run := { run with approvalSnapshot := snapshot }
    onRun id (RunProgram.updateRun run)
    pure run

def isApprovalReason (reason : String) : Bool :=
  reason = "approval_required" ||
    "permission_requires_approval:".toList.isPrefixOf reason.toList

def announcePlan (planned : Planned) : RunProgram Unit := do
  let _ ← createEvent now "PlanningStarted" "planning"
    "Canonical planning started before execution." []
  let _ ← createEvent now "PlanningFinished"
    (if planned.plan.status = "blocked" then "blocked" else "planned")
    "Canonical planning finished." []
  let _ ← createEvent now "ExecutionPlanCreated"
    (planned.executionStatus.getD "missing")
    "Canonical ExecutionPlan created as execution boundary." []
  pure ()

def place (status : TaskRunStatus) (run : TaskRun) : RunProgram TaskRun := do
  let run ← RunProgram.ofExcept (run.transition now status)
  RunProgram.updateRun run
  pure run

/-- The end of the creation: the run is blocked, waits for its approval, is queued, or stays as
it is. -/
def placeRun (request : TaskRunRequest) (planned : Planned) (guardReasons : List String)
    (run : TaskRun) : RunProgram TaskRun := do
  let markers := guardReasons.filter isApprovalReason
  let hard := guardReasons.filter fun reason => !isApprovalReason reason
  let unapproved := decide (run.approvalId.getD "" = "")
  let missing := !markers.isEmpty && unapproved
  if !hard.isEmpty || planned.plan.status = "blocked" || !run.blockedReasons.isEmpty || missing then
    let reasons := run.blockedReasons ++ hard ++ if missing then markers else []
    let run ← place now .blocked { run with blockedReasons := reasons.eraseDups }
    if missing || !hard.isEmpty || planned.plan.status = "blocked" then
      let _ ← createEvent now "policy_blocked_no_approval_possible" "blocked"
        "Policy blocked the TaskRun without an actionable approval path." []
    recordBlock now "TaskRun blocked during creation guard."
    RunProgram.updateRun run
    pure run
  else if !markers.isEmpty && !unapproved then
    let run ← place now .waitingInput run
    let _ ← createEvent now "run_waiting_input" "waiting_input"
      "TaskRun queued and waiting for explicit approval." []
    let _ ← createEvent now "approval_preview_created" "pending"
      "TaskRun tem preview e ApprovalRequest acionavel antes de qualquer side effect." []
    let _ ← createEvent now "approval_required" "pending"
      "Explicit approval is required before execution." []
    pure run
  else if request.startImmediately && planned.autoRunEnabled then
    let run ← place now .queued run
    let _ ← createEvent now "run_queued" "queued" "TaskRun entered the governed queue." []
    let _ ← createEvent now "run_auto_start_requested" "queued"
      "Auto-run requested; queue order and runtime guards still apply." []
    pure run
  else pure run

/-- `create_run` with a plan. -/
def createPlanned (services : QueueServices) (clock : Clock) (request : TaskRunRequest)
    (planned : Planned) (reserved : Option TaskRun) : QueueProgram TaskRun := do
  let id := (bootstrap request planned.bootstrapped.fresh).taskRunId
  let snapshot ← onApprovals (approvalSnapshot clock request.approvalId)
  let run ← onRun id (savePlanned reserved (plannedRun request planned snapshot))
  let run ← attachApproval clock id planned.workspace run
  onRun id (do
    if reserved.isNone then announceRun clock.now "TaskRun created without execution."
    announcePlan clock.now planned)
  let run ← onRun id (do
    let guardReasons ← RunProgram.ofExcept planned.guardReasons
    placeRun clock.now request planned guardReasons run)
  let _ ← reconcile services clock
  let final ← onRun id RunProgram.getRun?
  pure (final.getD run)

/-- `TaskRuntimeService.create_run`. The metadata of the events are left out. -/
def createRun (services : QueueServices) (clock : Clock) (request : TaskRunRequest)
    (planned : Except String Planned) : QueueProgram TaskRun := do
  let reserved ← checkReserved request
  match planned with
  | .error e => .raise e
  | .ok planned => createPlanned services clock request planned reserved

def Has (runId : String) (status : TaskRunStatus) (id : String) (files : RunFiles) : Prop :=
  id = runId → files.HasStatus status

theorem hasStatus_unique {files : RunFiles} {status status' : TaskRunStatus}
    (h : files.HasStatus status) (h' : files.HasStatus status') : status = status' := by
  obtain ⟨run, hrun, rfl⟩ := h
  obtain ⟨run', hrun', rfl⟩ := h'
  rw [hrun] at hrun'
  cases hrun'
  rfl

section

variable {codec : Codec} {runId : String} {status : TaskRunStatus} {α : Type}

theorem keeps_has_of_ne {id : String} (h : id ≠ runId) (p : RunProgram α) :
    p.Keeps (runHandler codec id) (Has runId status id) :=
  fun _ _ hid => absurd hid h

/-- A property of one run that it has only once it has ended. -/
structure OfEnded (runId : String) (P : String → RunFiles → Prop) : Prop where
  index : ∀ id files index, P id files → P id { files with index := index }
  others : ∀ id files, id ≠ runId → P id files
  ended : ∀ files, P runId files → ∃ status, status.isTerminal = true ∧ files.HasStatus status

theorem ofEnded_has (hterminal : status.isTerminal = true) : OfEnded runId (Has runId status) where
  index _ _ _ h hid := h hid
  others _ _ hne hid := absurd hid hne
  ended _ h := ⟨status, hterminal, h rfl⟩

namespace OfEnded

variable {P : String → RunFiles → Prop} (h : OfEnded runId P)
include h

theorem cancel (id now reason : String) :
    (cancel now reason).Keeps (runHandler codec id) (P id) := by
  by_cases hid : id = runId
  · subst hid
    refine (getRun_holds "task_run_not_found").bind (fun run => ?_) (fun _ _ h => h.1)
    rintro files ⟨hfiles, hrun⟩
    obtain ⟨status, hterminal, hstatus⟩ := h.ended files hfiles
    have hsame : run.status = status := hasStatus_unique (hrun run rfl) hstatus
    have hnot : run.status.canCancel = false := by
      by_contra hcan
      have hopen := TaskRunStatus.not_isTerminal_of_canCancel (by simpa using hcan)
      rw [hsame, hterminal] at hopen
      cases hopen
    rw [hnot]
    exact hfiles
  · exact fun _ _ => h.others id _ hid

theorem invariant : RunInvariant codec P :=
  ⟨h.index, fun id now reason => h.cancel id now reason⟩

variable (services : QueueServices) (clock : Clock)

theorem artifactWatch (id : String) :
    (artifactWatch services clock).Keeps (runHandler codec id) (P id) := by
  intro files hfiles
  by_cases hid : id = runId
  · subst hid
    obtain ⟨status, hterminal, hstatus⟩ := h.ended files hfiles
    have hinactive : ∀ run, files.getRun = .found run → run.status.isActive = false := by
      intro run hread
      have hsame := hasStatus_unique (RunFiles.hasStatus_of_getRun hread) hstatus
      by_contra hactive
      have hopen := TaskRunStatus.not_isTerminal_of_isActive (by simpa using hactive)
      rw [hsame, hterminal] at hopen
      cases hopen
    rw [Queue.artifactWatch, run_terminalize_of_inactive _ _ _ (.inr hinactive)]
    exact hfiles
  · exact h.others id _ hid

theorem reconcile : (reconcile services clock).Keeps (queueHandler codec) (QueueState.Each P) := by
  intro q hq
  have hinvariant : RunInvariant codec P := h.invariant
  cases henabled : services.policy.enabled with
  | false => exact reconcile_each_of_not_listed services clock hinvariant hq (.inl henabled)
  | true =>
    cases hruns : q.queueRuns services.policy.queueStatuses 1000 with
    | error e => exact reconcile_each_of_not_listed services clock hinvariant hq (.inr ⟨e, hruns⟩)
    | ok runs =>
      refine reconcile_each services clock hinvariant (P := P)
        (fun entry _ _ => h.artifactWatch services clock entry.1) (fun _ _ h => h) henabled hruns ?_
      have hindexed : (q.indexed services.policy.queueStatuses).Each P :=
        indexed_each hinvariant hq _
      intro id
      by_cases hid : id = runId
      · by_cases hlisted : id ∈ runs.map Prod.fst
        · obtain ⟨entry, hentry, rfl⟩ := List.mem_map.mp hlisted
          obtain ⟨-, hread, -⟩ := mem_queueRuns hruns hentry
          obtain ⟨status, hterminal, hstatus⟩ := h.ended _ (hid ▸ hq entry.1)
          have hsame : entry.2.status = status :=
            hasStatus_unique (hasStatus_of_getRunLightweight hread) (hid ▸ hstatus)
          have hskip : repairOf clock q.approvals entry.2 = .skip := by
            rw [repairOf, linkedApproval, if_pos (.inl (by rw [hsame, hterminal]))]
          rw [filesOf_repairAll clock codec (nodup_queueRuns hruns) hentry]
          change P entry.1 ((repairOf clock q.approvals entry.2).files codec clock.now entry.1
            entry.2 ((q.indexed services.policy.queueStatuses).filesOf entry.1))
          rw [hskip]
          exact hindexed entry.1
        · rw [filesOf_repairAll_of_notMem clock codec hlisted]
          exact hindexed id
      · exact h.others id _ hid

end OfEnded

variable (services : QueueServices) (clock : Clock)

omit services clock in
theorem getRun_ne_missing {files : RunFiles} (h : files.HasStatus status) :
    files.getRun ≠ .missing := by
  obtain ⟨stored, hstored, -⟩ := h
  rw [RunFiles.getRun, hstored, Option.map_some, RunRead.ofRun]
  split <;> simp

omit services clock in
theorem createStored_raises (run : TaskRun) :
    (createStored run).Holds (runHandler codec runId) (RunFiles.HasStatus status)
      fun r files => files.HasStatus status ∧ ∃ e, r = .error e := by
  intro files h
  have hthere := getRun_ne_missing h
  dsimp only [createStored, RunProgram.getRun?, Program.perform, bind, Program.bind, Program.run,
    runHandler]
  cases hread : files.getRun with
  | missing => exact absurd hread hthere
  | invalid | found => exact ⟨h, _, rfl⟩

omit services clock in
theorem savePlanned_raises (run : TaskRun) :
    (savePlanned none run).Holds (runHandler codec runId) (RunFiles.HasStatus status)
      fun r files => files.HasStatus status ∧ ∃ e, r = .error e :=
  (createStored_raises run).raises_bind _

omit services clock in
theorem onRun_raises {p : RunProgram α}
    (hp : p.Holds (runHandler codec runId) (RunFiles.HasStatus status)
      fun r files => files.HasStatus status ∧ ∃ e, r = .error e) :
    (onRun runId p).Holds (queueHandler codec) (QueueState.Each (Has runId status))
      fun r q => q.Each (Has runId status) ∧ ∃ e, r = .error e := by
  intro q h
  obtain ⟨hresult, hself, hother⟩ := filesOf_run_onRun codec p q
  obtain ⟨hkept, hraised⟩ := hp (q.filesOf runId) (h runId rfl)
  refine ⟨fun id hid => ?_, ?_⟩
  · rw [hid, hself]
    exact hkept
  · rw [hresult]
    exact hraised

theorem createPlanned_of_none (request : TaskRunRequest) (planned : Planned)
    (hid : (bootstrap request planned.bootstrapped.fresh).taskRunId = runId) :
    (createPlanned services clock request planned none).Keeps (queueHandler codec)
      (QueueState.Each (Has runId status)) := by
  rw [createPlanned, hid]
  refine (onApprovals_keeps _).bind fun snapshot => ?_
  have hsave : (onRun runId (savePlanned none (plannedRun request planned snapshot))).Holds
      (queueHandler codec) (QueueState.Each (Has runId status))
      fun r q => q.Each (Has runId status) ∧ ∃ e, r = .error e :=
    onRun_raises (savePlanned_raises _)
  exact (hsave.raises_bind _).mono (fun _ h => h) fun _ _ h => h.1

theorem createPlanned_of_ne (hterminal : status.isTerminal = true) (request : TaskRunRequest)
    (planned : Planned) (reserved : Option TaskRun)
    (hid : (bootstrap request planned.bootstrapped.fresh).taskRunId ≠ runId) :
    (createPlanned services clock request planned reserved).Keeps (queueHandler codec)
      (QueueState.Each (Has runId status)) := by
  have hrun : ∀ {β : Type} (p : RunProgram β),
      (onRun (bootstrap request planned.bootstrapped.fresh).taskRunId p).Keeps (queueHandler codec)
        (QueueState.Each (Has runId status)) := fun p => onRun_keeps (keeps_has_of_ne hid p)
  refine (onApprovals_keeps _).bind fun snapshot => ?_
  refine (hrun _).bind fun run => ?_
  refine Program.Keeps.bind ?_ fun run => ?_
  · rw [attachApproval]
    split
    · exact Program.keeps_done _
    · refine (onApprovals_keeps _).bind fun _ => ?_
      refine (onApprovals_keeps _).bind fun _ => ?_
      exact (hrun _).bind fun _ => Program.keeps_done _
  · refine (hrun _).bind fun _ => ?_
    refine (hrun _).bind fun run => ?_
    refine ((ofEnded_has hterminal).reconcile services clock).bind fun _ => ?_
    exact (hrun _).bind fun _ => Program.keeps_done _

omit services clock in
theorem checkReserved_keeps (request : TaskRunRequest) :
    (checkReserved request).Keeps (queueHandler codec) (QueueState.Each (Has runId status)) := by
  refine Program.Keeps.bind ?_ fun reserved => ?_
  · rw [findReserved]
    split
    · exact Program.keeps_done _
    · refine onRun_keeps ?_
      intro files h
      dsimp only [RunProgram.getRun?, Program.perform, bind, Program.bind, Program.run, runHandler]
      cases files.getRun <;> exact h
  · split
    · exact Program.keeps_raise _
    · exact Program.keeps_done _

end

/-- `create_run` refuses a reservation, or fails before it saves the run. -/
def Refuses (q : QueueState) (request : TaskRunRequest) (planned : Except String Planned)
    (reserved : TaskRun) : Prop :=
  (refusal request reserved).isSome = true ∨ planned.toOption.isNone = true ∨
    request.approvalId.getD "" ≠ "" ∧ q.approvals.read (request.approvalId.getD "") = .invalid

/-- What happens to runs, one after the other. -/
inductive ReservationOp
  /-- `reserve_run`. -/
  | reserve (now : String) (request : TaskRunRequest) (answers : Except String Bootstrapped)
  /-- `TaskRunCancellationService.cancel`. -/
  | cancel (now runId reason : String)
  /-- `TaskQueueService.reconcile`. -/
  | reconcile (services : QueueServices) (clock : Clock)
  /-- `create_run`. -/
  | create (services : QueueServices) (clock : Clock) (request : TaskRunRequest)
    (planned : Except String Planned)

def ReservationOp.step (codec : Codec) (q : QueueState) : ReservationOp → QueueState
  | .reserve now request answers =>
    ((reserveRun now request answers).run (queueHandler codec) q).2
  | .cancel now runId reason =>
    ((onRun runId (Runtime.cancel now reason)).run (queueHandler codec) q).2
  | .reconcile services clock => ((Queue.reconcile services clock).run (queueHandler codec) q).2
  | .create services clock request planned =>
    ((createRun services clock request planned).run (queueHandler codec) q).2

def SparesRead (q : QueueState) (request : TaskRunRequest) (planned : Except String Planned) :
    RunRead → Prop
  | .found reserved =>
    request.taskRunId.getD "" ≠ "" → reserved.status.isTerminal = true →
      Refuses q request planned reserved
  | .missing => True
  | .invalid => True

/-- A creation spares the run that it finds. -/
def ReservationOp.SparesEnded (q : QueueState) : ReservationOp → Prop
  | .create _ _ request planned =>
    SparesRead q request planned (q.filesOf (request.taskRunId.getD "")).getRun
  | .reserve .. => True
  | .cancel .. => True
  | .reconcile .. => True

instance decidableRefuses (q : QueueState) (request : TaskRunRequest)
    (planned : Except String Planned) (reserved : TaskRun) :
    Decidable (Refuses q request planned reserved) :=
  inferInstanceAs (Decidable (_ ∨ _ ∨ _))

instance decidableSparesRead (q : QueueState) (request : TaskRunRequest)
    (planned : Except String Planned) : (read : RunRead) →
      Decidable (SparesRead q request planned read)
  | .found _ => inferInstanceAs (Decidable (_ → _ → _))
  | .missing => inferInstanceAs (Decidable True)
  | .invalid => inferInstanceAs (Decidable True)

instance decidableSparesEnded (q : QueueState) : (op : ReservationOp) → Decidable (op.SparesEnded q)
  | .create _ _ _ _ => decidableSparesRead _ _ _ _
  | .reserve .. => inferInstanceAs (Decidable True)
  | .cancel .. => inferInstanceAs (Decidable True)
  | .reconcile .. => inferInstanceAs (Decidable True)

section

variable {codec : Codec} {runId : String} {status : TaskRunStatus} {q : QueueState}

theorem reserveRun_keeps (now : String) (request : TaskRunRequest)
    (answers : Except String Bootstrapped) :
    (reserveRun now request answers).Keeps (queueHandler codec)
      (QueueState.Each (Has runId status)) := by
  cases answers with
  | error e => exact Program.keeps_raise e
  | ok answers =>
    change (onRun (bootstrap request answers.fresh).taskRunId
      (saveReserved now (reservedRun request answers))).Keeps _ _
    by_cases hid : (bootstrap request answers.fresh).taskRunId = runId
    · rw [hid]
      have hsave : (saveReserved now (reservedRun request answers)).Holds (runHandler codec runId)
          (RunFiles.HasStatus status)
          fun r files => files.HasStatus status ∧ ∃ e, r = .error e := by
        intro files h
        have hthere := getRun_ne_missing h
        dsimp only [saveReserved, RunProgram.getRun?, Program.perform, bind, Program.bind,
          Program.run, runHandler]
        cases hread : files.getRun with
        | missing => exact absurd hread hthere
        | invalid | found => exact ⟨h, _, rfl⟩
      exact (onRun_raises hsave).mono (fun _ h => h) fun _ _ h => h.1
    · exact onRun_keeps (keeps_has_of_ne hid _)

theorem hasRun_of_hasStatus (h : (q.filesOf runId).HasStatus status) : q.HasRun runId := by
  obtain ⟨run, hrun, -⟩ := h
  rw [QueueState.filesOf] at hrun
  rw [QueueState.HasRun]
  cases hfiles : q.runs.get? runId with
  | none =>
    rw [hfiles] at hrun
    cases hrun
  | some files => rfl

variable {request : TaskRunRequest}

variable (codec) in
theorem run_checkReserved (hid : request.taskRunId.getD "" = runId) (hgiven : runId ≠ "")
    (hstatus : (q.filesOf runId).HasStatus status) :
    ((checkReserved request).run (queueHandler codec) q).2 = q ∧
      ((∃ e, ((checkReserved request).run (queueHandler codec) q).1 = .error e) ∨
        ∃ run, (q.filesOf runId).getRun = .found run ∧ refusal request run = none ∧
          ((checkReserved request).run (queueHandler codec) q).1 = .ok (some run)) := by
  have hfind : findReserved request = onRun runId RunProgram.getRun? := by
    rw [findReserved, hid, if_neg hgiven]
  have hread : (findReserved request).run (queueHandler codec) q =
      ((RunProgram.getRun?.run (runHandler codec runId) (q.filesOf runId)).1, q) := by
    have hsame : (RunProgram.getRun?.run (runHandler codec runId) (q.filesOf runId)).2 =
        q.filesOf runId := by
      dsimp only [RunProgram.getRun?, Program.perform, bind, Program.bind, Program.run, runHandler]
      cases (q.filesOf runId).getRun <;> rfl
    rw [hfind, run_onRun codec (hasRun_of_hasStatus hstatus), hsame, QueueState.setFiles_filesOf]
  have hresult := congrArg Prod.fst hread
  rw [checkReserved]
  cases hrun : (q.filesOf runId).getRun with
  | missing => exact absurd hrun (getRun_ne_missing hstatus)
  | invalid =>
    simp only [RunProgram.getRun?, Program.perform, bind, Program.bind, Program.run, runHandler,
      hrun] at hresult
    rw [Program.run_bind_of_error _ hresult, hread]
    exact ⟨rfl, .inl ⟨_, rfl⟩⟩
  | found run =>
    simp only [RunProgram.getRun?, Program.perform, bind, Program.bind, Program.run, runHandler,
      hrun] at hresult
    rw [Program.run_bind_of_ok _ hresult, hread, Option.bind_some]
    cases hrefusal : refusal request run with
    | none => exact ⟨rfl, .inr ⟨run, rfl, hrefusal, rfl⟩⟩
    | some e => exact ⟨rfl, .inl ⟨e, rfl⟩⟩

variable (services : QueueServices)

theorem createPlanned_raises (clock : Clock) (happroval : request.approvalId.getD "" ≠ "")
    (hinvalid : q.approvals.read (request.approvalId.getD "") = .invalid) (planned : Planned)
    (reserved : Option TaskRun) (h : q.Each (Has runId status)) :
    ((createPlanned services clock request planned reserved).run (queueHandler codec) q).2.Each
      (Has runId status) := by
  have hraised : ((onApprovals (approvalSnapshot clock request.approvalId)).run
      (queueHandler codec) q).1 = .error "ValidationError" := by
    have hcurrent : q.approvals.current clock (request.approvalId.getD "") =
        .error "ValidationError" := by
      rw [ApprovalTable.current, hinvalid]
    have hread : ((getApproval clock (request.approvalId.getD "")).run approvalHandler
        q.approvals).1 = .error "ValidationError" := by
      rw [ApprovalTable.run_getApproval, hcurrent]
    rw [run_onApprovals, approvalSnapshot, if_neg happroval, Program.run_bind_of_error _ hread]
  rw [createPlanned, Program.run_bind_of_error _ hraised]
  exact onApprovals_keeps _ q h

theorem createRun_of_refused (clock : Clock) {planned : Except String Planned}
    (hid : request.taskRunId.getD "" = runId) (hgiven : runId ≠ "")
    (hrefuses : ∀ reserved, (q.filesOf runId).getRun = .found reserved →
      Refuses q request planned reserved) (h : q.Each (Has runId status)) :
    ((createRun services clock request planned).run (queueHandler codec) q).2.Each
      (Has runId status) := by
  obtain ⟨hsame, ⟨e, hresult⟩ | ⟨run, hread, hnone, hresult⟩⟩ :=
    run_checkReserved codec hid hgiven (h runId rfl)
  · rw [createRun, Program.run_bind_of_error _ hresult, hsame]
    exact h
  · rw [createRun, Program.run_bind_of_ok _ hresult, hsame]
    rcases hrefuses run hread with hrefused | hplanned | ⟨happroval, hinvalid⟩
    · rw [hnone] at hrefused
      cases hrefused
    · cases planned with
      | error e => exact h
      | ok planned => cases hplanned
    · cases planned with
      | error e => exact h
      | ok planned => exact createPlanned_raises services clock happroval hinvalid planned _ h

/-- `create_run` leaves the status of a run that has ended, if it refuses that run. -/
theorem createRun_keeps_has (clock : Clock) (hterminal : status.isTerminal = true)
    {planned : Except String Planned}
    (hspares : (ReservationOp.create services clock request planned).SparesEnded q)
    (h : q.Each (Has runId status)) :
    ((createRun services clock request planned).run (queueHandler codec) q).2.Each
      (Has runId status) := by
  by_cases hgiven : request.taskRunId.getD "" = ""
  · have hfind : checkReserved request = pure none := by
      rw [checkReserved, findReserved, if_pos hgiven]
      rfl
    rw [createRun, hfind]
    cases planned with
    | error e => exact h
    | ok planned =>
      by_cases hid : (bootstrap request planned.bootstrapped.fresh).taskRunId = runId
      · exact createPlanned_of_none services clock request planned hid q h
      · exact createPlanned_of_ne services clock hterminal request planned none hid q h
  · by_cases hid : request.taskRunId.getD "" = runId
    · refine createRun_of_refused services clock hid (hid ▸ hgiven) (fun reserved hread => ?_) h
      rw [ReservationOp.SparesEnded, hid, hread] at hspares
      have hstatus := hasStatus_unique (RunFiles.hasStatus_of_getRun hread) (h runId rfl)
      exact hspares (hid ▸ hgiven) (hstatus ▸ hterminal)
    · refine (checkReserved_keeps request).bind (fun reserved => ?_) q h
      cases planned with
      | error e => exact Program.keeps_raise e
      | ok planned =>
        refine createPlanned_of_ne services clock hterminal request planned reserved ?_
        have hsame : (bootstrap request planned.bootstrapped.fresh).taskRunId =
            request.taskRunId.getD "" := if_neg hgiven
        rw [hsame]
        exact hid

theorem ReservationOp.step_keeps_has (hterminal : status.isTerminal = true) (q : QueueState)
    (op : ReservationOp) (h : q.Each (Has runId status)) (hspares : op.SparesEnded q) :
    (op.step codec q).Each (Has runId status) := by
  cases op with
  | reserve now request answers => exact reserveRun_keeps now request answers q h
  | cancel now id reason =>
    exact onRun_keeps ((ofEnded_has hterminal).cancel id now reason) q h
  | reconcile services clock => exact (ofEnded_has hterminal).reconcile services clock q h
  | create services clock request planned =>
    exact createRun_keeps_has services clock hterminal hspares h

end

/-- In every sequence of calls in which `create_run` refuses each run that has ended, or fails
before it saves it, a run that has once ended keeps its status. -/
theorem reserved_runs_stay_ended (codec : Codec) (q : QueueState)
    (before after : List ReservationOp)
    (hcond : Along (fun q op => ReservationOp.step codec q op)
      (fun q op => ReservationOp.SparesEnded q op) q (before ++ after))
    (runId : String) (status : TaskRunStatus) (hterminal : status.isTerminal = true)
    (hended : ((run (fun q op => ReservationOp.step codec q op) q before).filesOf runId).HasStatus
      status) :
    ((run (fun q op => ReservationOp.step codec q op) q (before ++ after)).filesOf
      runId).HasStatus status := by
  have hstart : (run (fun q op => ReservationOp.step codec q op) q before).Each
      (Has runId status) := by
    rintro id rfl
    exact hended
  have hend := run_invariant (fun q op h hspares =>
    ReservationOp.step_keeps_has hterminal q op h hspares) hstart hcond.of_append_right
  rw [run_append]
  exact hend runId rfl

/-- The files of a run are what they were when it ended, except for the index. -/
def Kept (runId : String) (ended : RunFiles) (id : String) (files : RunFiles) : Prop :=
  id = runId → { files with index := ended.index } = ended

theorem ofEnded_kept {runId : String} {status : TaskRunStatus} {ended : RunFiles}
    (hterminal : status.isTerminal = true) (hended : ended.HasStatus status) :
    OfEnded runId (Kept runId ended) where
  index _ _ _ h hid := h hid
  others _ _ hne hid := absurd hid hne
  ended files h := by
    obtain ⟨run, hrun, hstatus⟩ := hended
    exact ⟨status, hterminal, run, (congrArg RunFiles.run (h rfl)).trans hrun, hstatus⟩

theorem QueueStep.step_keeps {codec : Codec} {runId : String} {P : String → RunFiles → Prop}
    (h : OfEnded runId P) (q : QueueState) (step : QueueStep)
    (hother : ∀ inputs, step ≠ .execute runId inputs) (hq : q.Each P) :
    (QueueStep.step codec q step).Each P := by
  cases step with
  | cancel now id reason => exact onRun_keeps (h.cancel id now reason) q hq
  | reconcile services clock => exact h.reconcile services clock q hq
  | execute id inputs =>
    exact onRun_each hq (h.others id _ fun hid => hother inputs (by rw [hid]))
  | decide approvals => exact hq

/-- Whatever is reconciled, cancelled, decided or executed afterwards, a run that has ended keeps
its document, its result, its payloads and its log, unless the loop runs on it again. -/
theorem ended_runs_are_kept (codec : Codec) (q : QueueState) {runId : String}
    {status : TaskRunStatus} (hterminal : status.isTerminal = true)
    (hended : (q.filesOf runId).HasStatus status) {steps : List QueueStep}
    (hothers : ∀ step ∈ steps, ∀ inputs, step ≠ .execute runId inputs) :
    { (run (QueueStep.step codec) q steps).filesOf runId with
      index := (q.filesOf runId).index } = q.filesOf runId := by
  have hstart : q.Each (Kept runId (q.filesOf runId)) := by
    rintro id rfl
    rfl
  have hend : (run (QueueStep.step codec) q steps).Each (Kept runId (q.filesOf runId)) :=
    run_of_forall (fun q' step h hother =>
      QueueStep.step_keeps (ofEnded_kept hterminal hended) q' step hother h) hstart hothers
  exact hend runId rfl

def noRuns : QueueState := ⟨⟨[], List.nodup_nil⟩, ⟨[], List.nodup_nil⟩⟩

/-- A request for the run `task_run_1`. -/
def reservationRequest (operationId : String) : TaskRunRequest where
  taskRunId := some "task_run_1"
  taskId := some "task_1"
  operationId := some operationId
  approvalId := none
  contractType := "readonly_analysis"
  intentMap := []
  startImmediately := false

/-- An identity of which no name is used, since all are given. -/
def sampleBootstrapped : Bootstrapped where
  fresh := ⟨"task_2", "op_2", "task_run_2"⟩
  context := [("task_id", .str "task_1")]
  createdAt := "2026-01-01T00:00:00Z"
  others := []

def samplePlanned : Planned where
  bootstrapped := sampleBootstrapped
  plan := ⟨"ready", [], none⟩
  planReasons := []
  executionStatus := some "planned"
  workflow := none
  executionGraph := none
  contextReasons := []
  contextWarnings := []
  workspace := none
  guardReasons := .ok []
  autoRunEnabled := true

def reservedThenCancelled : List ReservationOp :=
  [.reserve "2026-01-01T00:00:00Z" (reservationRequest "op_1") (.ok sampleBootstrapped),
    .cancel "2026-01-01T00:00:30Z" "task_run_1" "user"]

def creation (operationId : String) : ReservationOp :=
  .create sampleQueueServices sampleClock (reservationRequest operationId) (.ok samplePlanned)

theorem hasStatus_iff {files : RunFiles} {status : TaskRunStatus} :
    files.HasStatus status ↔ files.run.map (·.status) = some status :=
  Option.map_eq_some_iff.symm

/-- A creation for another operation leaves the cancelled run. -/
theorem cancelled_run_stays_cancelled :
    ((run (fun q op => ReservationOp.step sampleServices.codec q op) noRuns
      (reservedThenCancelled ++ [creation "op_9"])).filesOf "task_run_1").HasStatus
        .cancelled := by
  refine reserved_runs_stay_ended sampleServices.codec noRuns reservedThenCancelled
    [creation "op_9"] (by decide +kernel) "task_run_1" .cancelled rfl ?_
  rw [hasStatus_iff]
  decide +kernel

def cancelledReservation : QueueState :=
  run (fun q op => ReservationOp.step sampleServices.codec q op) noRuns reservedThenCancelled

/-- Cancelled again and looked at by the queue, the cancelled run keeps its files. -/
theorem cancelled_reservation_is_kept :
    { (run (QueueStep.step sampleServices.codec) cancelledReservation
        [.cancel "2026-01-01T00:00:40Z" "task_run_1" "user",
          .reconcile sampleQueueServices sampleClock]).filesOf "task_run_1" with
      index := (cancelledReservation.filesOf "task_run_1").index } =
      cancelledReservation.filesOf "task_run_1" := by
  have hended : (cancelledReservation.filesOf "task_run_1").HasStatus .cancelled := by
    rw [hasStatus_iff]
    decide
  exact ended_runs_are_kept sampleServices.codec _ rfl hended (by simp)

/-- The creation that the reservation was made for writes the cancelled run anew. -/
theorem cancelled_run_is_created_again :
    ((run (fun q op => ReservationOp.step sampleServices.codec q op) noRuns
        reservedThenCancelled).filesOf "task_run_1").HasStatus .cancelled ∧
      ¬((run (fun q op => ReservationOp.step sampleServices.codec q op) noRuns
        (reservedThenCancelled ++ [creation "op_1"])).filesOf "task_run_1").HasStatus
          .cancelled := by
  rw [hasStatus_iff, hasStatus_iff]
  decide +kernel

end AIpinho.Queue
