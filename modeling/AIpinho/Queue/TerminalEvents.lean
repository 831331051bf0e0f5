import AIpinho.Lib.Runs
import AIpinho.Queue.Passes
import AIpinho.Runtime.TerminalAccount

/-!
# Terminal events of the runs of a queue

Cancelling, reconciling the queue and executing a run leave every run with a terminal event of
its status, or with neither, except a run whose approval was denied, and a completed run whose
result is lowered afterwards.
-/

namespace AIpinho.Queue

open Lib AIpinho.Runtime AIpinho.Approvals

section Runs

variable {codec : Codec} {now runId : String} {run : TaskRun} {files : RunFiles}

theorem accounted_index (h : files.Accounted) (index : Option TaskRunStatus) :
    ({ files with index := index } : RunFiles).Accounted := by
  rcases h with h | h | ⟨o, h⟩
  · exact .inl ⟨⟨h.run, h.result⟩, h.noEnd⟩
  · exact .inr (.inl ⟨h.run, h.result, h.noEnd⟩)
  · exact .inr (.inr ⟨o, ⟨h.run, h.result⟩, h.oneEnd⟩)

theorem hasStatus_of_getRunLightweight (h : files.getRunLightweight = .found run) :
    files.HasStatus run.status := by
  cases hrun : files.run with
  | none => simp [RunFiles.getRunLightweight, hrun, RunRead.ofRun] at h
  | some stored =>
    refine ⟨stored, hrun, ?_⟩
    simp only [RunFiles.getRunLightweight, hrun, Option.map_some, RunRead.ofRun] at h
    split at h
    · rw [← RunRead.found.inj h]
      rfl
    · cases h

theorem awaitApproval_works (now approvalId : String) (run : TaskRun) :
    (awaitApproval now approvalId run).Ensures RunOp.IsWork fun _ => True := by
  refine (ofExcept_works _).bind (fun run' hrun' => ?_) fun _ _ => trivial
  have hstatus : run'.status = .waitingInput := TaskRun.transition_status hrun'.symm
  have hopen : run'.status.isTerminal = false := by
    rw [hstatus]
    rfl
  refine ⟨hopen, fun _ => ?_⟩
  exact (createEvent_works _ _ _ _ _ (by decide)).bind (fun _ _ => trivial) fun _ _ => trivial

theorem queueApproved_works (now : String) (hrun : run.status.isTerminal = false) :
    (queueApproved now run).Ensures RunOp.IsWork
      fun r => ∀ run', r = .ok run' → run'.status.isTerminal = false := by
  rw [queueApproved]
  split
  · cases htransition : run.transition now .queued with
    | ok run' =>
      rintro run'' ⟨⟩
      rw [TaskRun.transition_status htransition]
      rfl
    | error e => exact fun run' h => by cases h
  · rintro run' ⟨⟩
    exact hrun

theorem resumeApprovedApproval_works (now approvalId : String) (approval : ApprovalRequest)
    (hrun : run.status.isTerminal = false) :
    (resumeApprovedApproval now approvalId approval run).Ensures RunOp.IsWork
      fun _ => True := by
  have hqueued : (withApproval approvalId approval run).status.isTerminal = false := hrun
  refine (queueApproved_works now hqueued).bind (fun run' hrun' => ?_) fun _ _ => trivial
  refine ⟨hrun' run' rfl, fun _ => ?_⟩
  refine (createEvent_works _ _ _ _ _ (by decide)).bind (fun _ _ => ?_) fun _ _ => trivial
  exact (createEvent_works _ _ _ _ _ (by decide)).bind (fun _ _ => trivial) fun _ _ => trivial

theorem repair_accounts {repair : Repair} (h : files.Accounted)
    (hstatus : files.HasStatus run.status) (hrun : run.status.isTerminal = false)
    (hdeny : ∀ approvalId, repair ≠ .deny approvalId) :
    (repair.files codec now runId run files).Accounted := by
  have hopen := h.open_of_hasStatus hstatus hrun
  cases repair with
  | skip => exact h
  | cancel reason =>
    rw [files_cancel]
    exact cancel_keeps_accounted now reason files h
  | await approvalId =>
    exact .inl (open_keeps (awaitApproval_works now approvalId run) files hopen).2
  | resume approvalId approval =>
    have hworks := resumeApprovedApproval_works now approvalId approval hrun
    exact .inl (open_keeps hworks files hopen).2
  | deny approvalId => exact absurd rfl (hdeny approvalId)

end Runs

/-- The files of every run account for its end. -/
def QueueState.Accounted (q : QueueState) : Prop := ∀ runId, (q.filesOf runId).Accounted

theorem accounted_invariant (codec : Codec) : RunInvariant codec fun _ files => files.Accounted :=
  ⟨fun _ _ index h => accounted_index h index, fun _ => cancel_keeps_accounted⟩

section Passes

variable {codec : Codec} {q : QueueState} (services : QueueServices) (clock : Clock)

def QueueState.NoneDenied (q : QueueState) : Prop :=
  ∀ runs, q.queueRuns services.policy.queueStatuses 1000 = .ok runs →
    ∀ entry ∈ runs, ∀ approvalId, repairOf clock q.approvals entry.2 ≠ .deny approvalId

theorem repairAll_accounted {statuses : List TaskRunStatus} {limit : ℕ}
    {runs : List (String × TaskRun)} (h : q.Accounted)
    (hruns : q.queueRuns statuses limit = .ok runs)
    (hdeny : ∀ entry ∈ runs, ∀ approvalId, repairOf clock q.approvals entry.2 ≠ .deny approvalId) :
    ((q.indexed statuses).repairAll clock codec runs).Accounted := by
  have hindexed : (q.indexed statuses).Accounted := indexed_each (accounted_invariant codec) h _
  intro runId
  by_cases hlisted : runId ∈ runs.map Prod.fst
  · obtain ⟨entry, hentry, rfl⟩ := List.mem_map.mp hlisted
    obtain ⟨index, hindex⟩ := filesOf_indexed statuses q entry.1
    obtain ⟨-, hread, -⟩ := mem_queueRuns hruns hentry
    rw [filesOf_repairAll clock codec (nodup_queueRuns hruns) hentry, filesAfter]
    by_cases hterminal : entry.2.status.isTerminal = true
    · have hskip : repairOf clock q.approvals entry.2 = .skip := by
        rw [repairOf, linkedApproval, if_pos (.inl hterminal)]
      change ((repairOf clock q.approvals entry.2).files codec clock.now entry.1 entry.2
        ((q.indexed statuses).filesOf entry.1)).Accounted
      rw [hskip]
      exact hindexed entry.1
    · have hstatus : ((q.indexed statuses).filesOf entry.1).HasStatus entry.2.status := by
        rw [hindex]
        exact hasStatus_of_getRunLightweight hread
      exact repair_accounts (hindexed entry.1) hstatus (by simpa using hterminal)
        (hdeny entry hentry)
  · rw [filesOf_repairAll_of_notMem clock codec hlisted]
    exact hindexed runId

theorem reconcile_accounts (h : q.Accounted)
    (hdeny : services.policy.enabled = true → q.NoneDenied services clock) :
    ((reconcile services clock).run (queueHandler codec) q).2.Accounted := by
  have hinvariant := accounted_invariant codec
  cases henabled : services.policy.enabled with
  | false => exact reconcile_each_of_not_listed services clock hinvariant h (.inl henabled)
  | true =>
    cases hruns : q.queueRuns services.policy.queueStatuses 1000 with
    | error e => exact reconcile_each_of_not_listed services clock hinvariant h (.inr ⟨e, hruns⟩)
    | ok runs =>
      refine reconcile_each services clock hinvariant (P := fun _ files => files.Accounted)
        (fun _ _ _ => terminalize_keeps_accounted _ _ _) (fun _ _ h => h) henabled hruns ?_
      exact repairAll_accounted clock h hruns (hdeny henabled runs hruns)

end Passes

/-- What happens to a queue, one after the other. -/
inductive QueueStep
  /-- `TaskRunCancellationService.cancel`. -/
  | cancel (now runId reason : String)
  /-- `TaskQueueService.reconcile`. -/
  | reconcile (services : QueueServices) (clock : Clock)
  /-- `SupervisedExecutionLoop.run`. -/
  | execute (runId : String) (inputs : LoopInputs)
  | decide (approvals : ApprovalTable)

def QueueStep.step (codec : Codec) (q : QueueState) : QueueStep → QueueState
  | .cancel now runId reason =>
    ((onRun runId (Runtime.cancel now reason)).run (queueHandler codec) q).2
  | .reconcile services clock => ((Queue.reconcile services clock).run (queueHandler codec) q).2
  | .execute runId inputs => ((onRun runId (supervisedRun inputs)).run (queueHandler codec) q).2
  | .decide approvals => { q with approvals := approvals }

/-- The branches without a terminal event are not taken: no listed run has a denied
approval, the validation gate lowers no completed result, and the finalizer gives a run
that has ended no other status. -/
def QueueStep.Meets (q : QueueState) : QueueStep → Prop
  | .cancel .. => True
  | .reconcile services clock => services.policy.enabled = true → q.NoneDenied services clock
  | .execute runId inputs => inputs.KeepsCompleted ∧ inputs.services.AgreesOn (q.filesOf runId)
  | .decide _ => True

theorem QueueStep.step_accounted {codec : Codec} {q : QueueState} {s : QueueStep}
    (h : q.Accounted) (hs : s.Meets q) : (s.step codec q).Accounted := by
  cases s with
  | cancel now runId reason =>
    exact onRun_keeps ((accounted_invariant codec).cancel runId now reason) q h
  | reconcile services clock => exact reconcile_accounts services clock h hs
  | execute runId inputs =>
    exact onRun_each h (supervisedRun_accounts hs.1 _ ⟨h runId, hs.2⟩)
  | decide approvals => exact h

/-- After every sequence of calls that does not take the branches without a terminal event, every
stored run has a terminal status if and only if its log has exactly one terminal event, of that
status. -/
theorem terminal_runs_have_their_event (codec : Codec) (q : QueueState) (steps : List QueueStep)
    (h : q.Accounted) (hsteps : Along (QueueStep.step codec) QueueStep.Meets q steps)
    (runId : String) :
    TerminalEventLaw ((run (QueueStep.step codec) q steps).filesOf runId) := by
  have hend : (run (QueueStep.step codec) q steps).Accounted :=
    run_invariant (fun _ _ h hs => QueueStep.step_accounted h hs) h hsteps
  exact (hend runId).law

def sampleQueue (run : TaskRun) (approvals : ApprovalTable) : QueueState :=
  ⟨⟨[("task_run_1", sampleFiles run)], List.nodup_singleton _⟩, approvals⟩

def sampleLinkedRun : TaskRun := { sampleRun [] with approvalId := some "approval_1" }

def sampleApprovals (status : ApprovalStatus) : ApprovalTable :=
  ⟨[("approval_1", ⟨some ⟨status, "task_run", "2026-01-02T00:00:00Z", "2026-01-01T00:00:00Z",
    "not_executed", "AIpinho", []⟩, []⟩)], List.nodup_singleton _⟩

def sampleQueueServices : QueueServices := ⟨sampleServices, ⟨fun _ => false⟩, taskQueuePolicy⟩

def sampleClock : Clock :=
  ⟨"2026-01-01T00:01:00Z", fun createdAt =>
    if createdAt = "2026-01-01T00:00:00Z" then some 60000000 else some (-86340000000)⟩

theorem sampleQueue_accounted {run : TaskRun} (hrun : run.status.isTerminal = false)
    (approvals : ApprovalTable) : (sampleQueue run approvals).Accounted := by
  have hnoEnd : ¬HasEnd sampleEvents := not_hasEnd_iff_terminals.mpr (by decide)
  intro runId
  refine .inl ?_
  rw [QueueState.filesOf, sampleQueue, Table.get?, List.lookup_cons]
  cases runId == "task_run_1" with
  | true =>
    refine ⟨⟨?_, rfl⟩, hnoEnd⟩
    rintro run' ⟨⟩
    exact hrun
  | false =>
    refine ⟨⟨?_, rfl⟩, not_hasEnd_iff_terminals.mpr rfl⟩
    rintro run' ⟨⟩

theorem noneDenied_of_sampleApprovals {q : QueueState} {s : ApprovalStatus}
    (hstatus : s ≠ .rejected) (h : q.approvals = sampleApprovals s) :
    q.NoneDenied sampleQueueServices sampleClock := by
  intro runs _ entry _ approvalId hdeny
  obtain ⟨linked, approval, hread, hrejected⟩ := rejected_of_deny hdeny
  rw [h, ApprovalTable.read, sampleApprovals, Table.get?, List.lookup_cons] at hread
  cases hid : linked == "approval_1" with
  | true =>
    rw [hid] at hread
    rw [← ApprovalRead.found.inj hread] at hrejected
    exact hstatus hrejected
  | false =>
    rw [hid] at hread
    cases hread

/-- A run waits for its approval, is executed once that is approved, and is then
cancelled too late. -/
theorem approved_run_has_its_event : TerminalEventLaw
      ((run (QueueStep.step sampleServices.codec)
        (sampleQueue sampleLinkedRun (sampleApprovals .pending))
        [.reconcile sampleQueueServices sampleClock, .decide (sampleApprovals .approved),
          .reconcile sampleQueueServices sampleClock,
          .execute "task_run_1" (sampleInputs fun _ => .completed),
          .cancel "2026-01-01T00:02:00Z" "task_run_1" "user"]).filesOf "task_run_1") := by
  refine terminal_runs_have_their_event _ _ _ (sampleQueue_accounted rfl _) ?_ "task_run_1"
  refine ⟨fun _ => ?_, trivial, fun _ => ?_, ⟨fun _ _ _ => rfl, ?_⟩, trivial, trivial⟩
  · exact noneDenied_of_sampleApprovals (s := .pending) (by decide) rfl
  · exact noneDenied_of_sampleApprovals (s := .approved) (by decide) rfl
  · exact fun _ _ _ _ hfinalizer => by cases hfinalizer

/-- A run whose approval was rejected is written as blocked, and its log has no terminal
event. -/
theorem denied_run_has_no_terminal_event :
    (sampleQueue sampleLinkedRun (sampleApprovals .rejected)).Accounted ∧ ¬TerminalEventLaw
        ((run (QueueStep.step sampleServices.codec)
          (sampleQueue sampleLinkedRun (sampleApprovals .rejected))
          [.reconcile sampleQueueServices sampleClock]).filesOf "task_run_1") := by
  refine ⟨sampleQueue_accounted rfl _, fun hlaw => ?_⟩
  have hblocked : (((run (QueueStep.step sampleServices.codec)
      (sampleQueue sampleLinkedRun (sampleApprovals .rejected))
      [.reconcile sampleQueueServices sampleClock]).filesOf "task_run_1").run.map
        (·.status)) = some .blocked := by decide
  have hnone : (((run (QueueStep.step sampleServices.codec)
      (sampleQueue sampleLinkedRun (sampleApprovals .rejected))
      [.reconcile sampleQueueServices sampleClock]).filesOf "task_run_1").events.filter
        (·.isTerminal)) = [] := by decide
  obtain ⟨stored, hstored, hstatus⟩ := Option.map_eq_some_iff.mp hblocked
  obtain ⟨e, he, -⟩ := (hlaw stored hstored).mp (by rw [hstatus]; rfl)
  rw [hnone] at he
  cases he

end AIpinho.Queue
