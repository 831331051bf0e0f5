import AIpinho.Queue.TerminalEvents
import AIpinho.Runtime.ArtifactWatch
import AIpinho.Runtime.SavedRuns

/-!
# What a reconciliation leaves of the evidence

The queue works on copies of the runs that were read without their payloads. A run that waits
for its approval, is resumed or is denied is written from such a copy, and loses what was
spilled to files. All other runs keep their evidence.
-/

namespace AIpinho.Queue

open Lib AIpinho.Runtime AIpinho.Approvals

/-- The repair writes the copy of the run that was read without payloads. -/
def Repair.rewrites : Repair → Bool
  | .skip => false
  | .cancel _ => false
  | .await _ => true
  | .resume .. => true
  | .deny _ => true

def Repair.status (run : TaskRun) : Repair → TaskRunStatus
  | .skip => run.status
  | .cancel _ => run.status
  | .await _ => .waitingInput
  | .resume .. => if run.status = .created then .queued else run.status
  | .deny _ => .blocked

section Run

variable {codec : Codec} {now runId : String} {run view : TaskRun} {files : RunFiles}

theorem queueApproved_unwatched (now : String) (run : TaskRun) :
    (queueApproved now run).Issues RunOp.IsUnwatched := by
  rw [queueApproved]
  split
  · exact ofExcept_unwatched _
  · exact trivial

theorem Repair.program_unwatched (now : String) (run : TaskRun) (repair : Repair) :
    (repair.program now run).Issues RunOp.IsUnwatched := by
  cases repair with
  | skip => exact trivial
  | cancel reason => exact (cancel_unwatched now reason).bind fun _ => trivial
  | await approvalId =>
    refine (ofExcept_unwatched _).bind fun run' => (updateRun_unwatched run').bind fun _ => ?_
    exact (createEvent_unwatched now _ _ _ (by decide) (by decide)).bind fun _ => trivial
  | resume approvalId approval =>
    refine (queueApproved_unwatched now _).bind fun run' => ?_
    refine (updateRun_unwatched run').bind fun _ => ?_
    refine (createEvent_unwatched now _ _ _ (by decide) (by decide)).bind fun _ => ?_
    exact (createEvent_unwatched now _ _ _ (by decide) (by decide)).bind fun _ => trivial
  | deny approvalId =>
    refine (ofExcept_unwatched _).bind fun run' => ?_
    refine (createEvent_unwatched now _ _ _ (by decide) (by decide)).bind fun _ => ?_
    refine (createEvent_unwatched now _ _ _ (by decide) (by decide)).bind fun _ => ?_
    exact (updateRun_unwatched run').bind fun _ => trivial

theorem transition_of_open (now : String) (h : run.status.isTerminal = false)
    {target : TaskRunStatus} (htarget : target = .waitingInput ∨ target = .blocked) :
    ∃ run', run.transition now target = .ok run' := by
  rw [TaskRun.transition]
  split
  · exact ⟨_, rfl⟩
  · rename_i hne
    rw [if_pos]
    · exact ⟨_, rfl⟩
    · rcases htarget with rfl | rfl <;> cases hstatus : run.status <;>
        simp_all [TaskRunStatus.targets, TaskRunStatus.isTerminal]

theorem queueApproved_eq (now : String) (run : TaskRun) :
    ∃ run', queueApproved now run = .done run' ∧ run'.kept = run.kept ∧
      run'.status = if run.status = .created then .queued else run.status := by
  rw [queueApproved]
  by_cases hcreated : run.status = .created
  · have hmem : TaskRunStatus.queued ∈ run.status.targets := by
      rw [hcreated]
      decide
    have hmoved : run.transition now .queued = .ok (run.moved now .queued) :=
      TaskRun.transition_of_mem hmem (by rw [hcreated]; decide)
    rw [if_pos ⟨hcreated, hmem⟩, if_pos hcreated, hmoved]
    exact ⟨_, rfl, rfl, rfl⟩
  · rw [if_neg fun h => hcreated h.1, if_neg hcreated]
    exact ⟨run, rfl, rfl, rfl⟩

theorem Repair.shows_of_rewrites (hrun : run.Storable runId)
    (hinline : spilledFields run.evidence = []) (hopen : run.status.isTerminal = false)
    {repair : Repair} (h : repair.rewrites = true) :
    (repair.files codec now runId run files).Shows codec runId run.kept := by
  have hwrite : ∀ {files : RunFiles} {run' : TaskRun}, run'.kept = run.kept →
      (files.updateRun codec run').Saved codec runId run' := by
    intro files run' hkept
    refine RunFiles.saved_updateRun (hrun.of_kept hkept) fun p hp => ?_
    rw [← run'.evidence_kept, hkept, run.evidence_kept, hinline] at hp
    cases hp
  cases repair with
  | skip | cancel => cases h
  | await approvalId =>
    obtain ⟨run', htransition⟩ := transition_of_open now hopen (.inl rfl)
    have hkept := TaskRun.kept_transition htransition
    refine ⟨run', ?_, hkept⟩
    rw [Repair.files, Repair.program, awaitApproval, htransition]
    exact (hwrite hkept).appendEvent _
  | resume approvalId approval =>
    obtain ⟨run', hqueued, hkept, -⟩ := queueApproved_eq now (withApproval approvalId approval run)
    refine ⟨run', ?_, hkept⟩
    rw [Repair.files, Repair.program, resumeApprovedApproval, hqueued]
    exact ((hwrite hkept).appendEvent _).appendEvent _
  | deny approvalId =>
    have hopen' : ({ run with blockedReasons := withApprovalDenied run.blockedReasons } :
        TaskRun).status.isTerminal = false := hopen
    obtain ⟨run', htransition⟩ := transition_of_open now hopen' (.inr rfl)
    have hkept : run'.kept = run.kept := (TaskRun.kept_transition htransition).trans rfl
    refine ⟨run', ?_, hkept⟩
    rw [Repair.files, Repair.program, cancelDeniedApproval, htransition]
    exact hwrite hkept

theorem Repair.shows_of_not_rewrites {kept : TaskRun} (hvalid : kept.isValid = true)
    (hfiles : files.Shows codec runId kept) {repair : Repair} (h : repair.rewrites = false) :
    (repair.files codec now runId run files).Shows codec runId kept := by
  cases repair with
  | skip => exact hfiles
  | cancel reason =>
    rw [files_cancel]
    exact cancel_keeps_shows hvalid now reason files hfiles
  | await | resume | deny => cases h

theorem Repair.status_copy (hopen : run.status.isTerminal = false) (repair : Repair) :
    (repair.copy codec now runId run files).status = repair.status run := by
  cases repair with
  | skip => rfl
  | cancel reason =>
    rw [copy_cancel]
    rfl
  | await approvalId =>
    obtain ⟨run', htransition⟩ := transition_of_open now hopen (.inl rfl)
    rw [Repair.copy, Repair.program, awaitApproval, htransition]
    exact TaskRun.transition_status htransition
  | resume approvalId approval =>
    obtain ⟨run', hqueued, -, hstatus⟩ :=
      queueApproved_eq now (withApproval approvalId approval run)
    rw [Repair.copy, Repair.program, resumeApprovedApproval, hqueued]
    exact hstatus
  | deny approvalId =>
    have hopen' : ({ run with blockedReasons := withApprovalDenied run.blockedReasons } :
        TaskRun).status.isTerminal = false := hopen
    obtain ⟨run', htransition⟩ := transition_of_open now hopen' (.inr rfl)
    rw [Repair.copy, Repair.program, cancelDeniedApproval, htransition]
    exact TaskRun.transition_status htransition

end Run

section Reconcile

variable (services : QueueServices) (clock : Clock)

/-- The run is active after its repair, and its artifact is silent for too long. -/
def Stalls (q : QueueState) (entry : String × TaskRun) : Prop :=
  (repairOf clock q.approvals entry.2).status entry.2 ∈ services.policy.activeStates ∧
    (q.filesOf entry.1).IsStalled services.store clock
      services.policy.artifactCreationTerminality

/-- The run is written from the copy without payloads, and has payloads. -/
def LosesEvidence (q : QueueState) (entry : String × TaskRun) (view : TaskRun) : Prop :=
  services.policy.enabled = true ∧ (repairOf clock q.approvals entry.2).rewrites = true ∧
    spilledFields view.evidence ≠ []

variable {codec : Codec} {q : QueueState} {entry : String × TaskRun} {view : TaskRun}

theorem shows_invariant (codec : Codec) {kept : TaskRun} (hvalid : kept.isValid = true)
    (own : String) :
    RunInvariant codec fun runId files => runId = own → files.Shows codec runId kept := by
  refine ⟨fun runId files index h hid => (h hid).withIndex index, fun runId now reason => ?_⟩
  intro files h hid
  exact cancel_keeps_shows hvalid now reason files (h hid)

variable {runs : List (String × TaskRun)}

theorem isTerminal_of_rewrites {approvals : ApprovalTable} {run : TaskRun}
    (h : (repairOf clock approvals run).rewrites = true) : run.status.isTerminal = false := by
  by_contra hterminal
  rw [repairOf, linkedApproval, if_pos (.inl (by simpa using hterminal))] at h
  cases h

theorem shows_filesAfter
    (hruns : q.queueRuns services.policy.queueStatuses 1000 = .ok runs) (hentry : entry ∈ runs)
    (hsaved : (q.filesOf entry.1).Saved codec entry.1 view) :
    (filesAfter codec clock (q.indexed services.policy.queueStatuses) entry).Shows codec entry.1
      (if (repairOf clock q.approvals entry.2).rewrites then (view.light codec).kept
        else view.kept) := by
  obtain ⟨index, hindex⟩ := filesOf_indexed services.policy.queueStatuses q entry.1
  obtain ⟨-, hread, -⟩ := mem_queueRuns hruns hentry
  obtain ⟨hlight, hvalid⟩ := hsaved.kept_of_getRunLightweight hread
  have hshows : ((q.indexed services.policy.queueStatuses).filesOf entry.1).Shows codec entry.1
      view.kept := by
    rw [hindex]
    exact RunFiles.Shows.withIndex ⟨view, hsaved, rfl⟩ index
  have happrovals : (q.indexed services.policy.queueStatuses).approvals = q.approvals := rfl
  rw [filesAfter, happrovals]
  split
  · rename_i hrewrites
    have hstorable : entry.2.Storable entry.1 := hsaved.storable.light.of_kept hlight
    rw [← hlight]
    have hevidence : entry.2.evidence = (view.light codec).evidence := by
      rw [← TaskRun.evidence_kept, hlight, TaskRun.evidence_kept]
    have hinline : spilledFields entry.2.evidence = [] := by
      rw [hevidence]
      exact spilledFields_projectFields hsaved.storable.plain ""
    exact Repair.shows_of_rewrites hstorable hinline (isTerminal_of_rewrites clock hrewrites)
      hrewrites
  · rename_i hrewrites
    have hvalid' : view.kept.isValid = true := hvalid
    exact Repair.shows_of_not_rewrites hvalid' hshows (by simpa using hrewrites)

theorem status_copyAfter : (copyAfter codec clock q entry).2.status =
      (repairOf clock q.approvals entry.2).status entry.2 := by
  rw [copyAfter]
  cases hterminal : entry.2.status.isTerminal with
  | true =>
    rw [repairOf, linkedApproval, if_pos (.inl hterminal)]
    rfl
  | false => exact Repair.status_copy hterminal _

theorem artifactWatch_keeps_filesAfter
    (hlog : Settled codec entry.1 (q.filesOf entry.1).events)
    (hquiet : ¬Stalls services clock q entry)
    (hactive : (copyAfter codec clock (q.indexed services.policy.queueStatuses) entry).2.status ∈
      services.policy.activeStates) :
    (artifactWatch services clock).Keeps (runHandler codec entry.1) fun files =>
      files = filesAfter codec clock (q.indexed services.policy.queueStatuses) entry := by
  rintro files rfl
  obtain ⟨index, hindex⟩ := filesOf_indexed services.policy.queueStatuses q entry.1
  have hstatus : (copyAfter codec clock (q.indexed services.policy.queueStatuses) entry).2.status =
      (repairOf clock q.approvals entry.2).status entry.2 := status_copyAfter clock
  refine run_terminalize_of_not_stalled _ _ fun hstalled => hquiet ⟨hstatus ▸ hactive, ?_⟩
  have hlog' : Settled codec entry.1
      ((q.indexed services.policy.queueStatuses).filesOf entry.1).events := by
    rw [hindex]
    exact hlog
  have hfollows : (filesAfter codec clock (q.indexed services.policy.queueStatuses) entry).Follows
      ((q.indexed services.policy.queueStatuses).filesOf entry.1) :=
    RunFiles.Follows.run (Repair.program_unwatched clock.now entry.2 _) hlog'
  have hbefore := hfollows.isStalled hstalled
  rw [hindex] at hbefore
  exact hbefore

end Reconcile

/-- A reconciliation leaves a listed run with all its evidence, unless it writes the run from a
copy without payloads and something of the evidence was spilled, for every run that the watchdog
of silent artifacts does not block. -/
theorem reconcile_keeps_evidence_iff (services : QueueServices) (clock : Clock) (codec : Codec)
    (q : QueueState) (runs : List (String × TaskRun)) (entry : String × TaskRun) (view : TaskRun)
    (hruns : q.queueRuns services.policy.queueStatuses 1000 = .ok runs) (hentry : entry ∈ runs)
    (hsaved : (q.filesOf entry.1).Saved codec entry.1 view)
    (hlog : Settled codec entry.1 (q.filesOf entry.1).events)
    (hquiet : services.policy.enabled = true → ¬Stalls services clock q entry) :
    (((reconcile services clock).run (queueHandler codec) q).2.filesOf entry.1).getRun.kept =
        (q.filesOf entry.1).getRun.kept ↔
      ¬LosesEvidence services clock q entry view := by
  obtain ⟨-, hread, -⟩ := mem_queueRuns hruns hentry
  obtain ⟨-, hvalid⟩ := hsaved.kept_of_getRunLightweight hread
  have hbefore : (q.filesOf entry.1).getRun.kept = .found view.kept :=
    RunFiles.Shows.getRun ⟨view, hsaved, rfl⟩ hvalid
  rw [hbefore]
  cases henabled : services.policy.enabled with
  | false =>
    have hvalid' : view.kept.isValid = true := hvalid
    have hshows : q.Each fun runId files => runId = entry.1 →
        files.Shows codec runId view.kept := by
      rintro runId rfl
      exact ⟨view, hsaved, rfl⟩
    have hafter := reconcile_each_of_not_listed services clock
      (shows_invariant codec hvalid' entry.1) hshows (.inl henabled) entry.1 rfl
    rw [hafter.getRun hvalid]
    simp [LosesEvidence, henabled]
  | true =>
    let kept := if (repairOf clock q.approvals entry.2).rewrites then (view.light codec).kept
      else view.kept
    have hkept : kept.isValid = true := by
      dsimp only [kept]
      split
      · exact hvalid
      · exact hvalid
    have hafter := reconcile_each services clock (shows_invariant codec hkept entry.1)
      (P := fun runId files => runId = entry.1 →
        files = filesAfter codec clock (q.indexed services.policy.queueStatuses) entry)
      ?_ ?_ henabled hruns ?_ entry.1 rfl
    · rw [hafter.getRun hkept, RunRead.found.injEq]
      simp only [LosesEvidence, henabled, true_and, kept]
      split
      · rename_i hrewrites
        rw [hsaved.storable.kept_light_eq_iff]
        simp [hrewrites]
      · rename_i hrewrites
        simp [hrewrites]
    · intro entry' hentry' hactive files h hid
      have heq : entry' = entry :=
        List.inj_on_of_nodup_map (nodup_queueRuns hruns) hentry' hentry hid
      subst heq
      exact artifactWatch_keeps_filesAfter services clock hlog (hquiet henabled) hactive files
        (h rfl)
    · rintro runId files h rfl
      rw [h rfl]
      exact shows_filesAfter services clock hruns hentry hsaved
    · rintro runId rfl
      exact filesOf_repairAll clock codec (nodup_queueRuns hruns) hentry _

def sampleHeavyRun : TaskRun :=
  { sampleLinkedRun with
    status := .waitingInput
    evidence := [("produced_artifacts", .list (List.replicate 101 (.obj [])))] }

def sampleHeavyQueue (approvals : ApprovalTable) : QueueState :=
  ⟨⟨[("task_run_1", { noFiles.updateRun sampleServices.codec sampleHeavyRun with
    events := sampleEvents })], List.nodup_singleton _⟩, approvals⟩

/-- The run keeps its artifacts while it waits. -/
theorem waiting_run_keeps_artifacts :
    (((reconcile sampleQueueServices sampleClock).run (queueHandler sampleServices.codec)
        (sampleHeavyQueue (sampleApprovals .pending))).2.filesOf "task_run_1").getRun.kept =
      ((sampleHeavyQueue (sampleApprovals .pending)).filesOf "task_run_1").getRun.kept := by
  have hstorable : sampleHeavyRun.Storable "task_run_1" := by
    refine ⟨rfl, rfl, rfl, ?_⟩
    decide
  have hsaved : ((sampleHeavyQueue (sampleApprovals .pending)).filesOf "task_run_1").Saved
      sampleServices.codec "task_run_1" sampleHeavyRun := by
    refine ⟨rfl, hstorable, ?_⟩
    rintro p hp
    obtain rfl : p = .list (List.replicate 101 (.obj [])) := by
      have hspilled : spilledFields sampleHeavyRun.evidence =
          [.list (List.replicate 101 (.obj []))] := rfl
      rw [hspilled] at hp
      exact List.mem_singleton.mp hp
    rfl
  refine (reconcile_keeps_evidence_iff sampleQueueServices sampleClock sampleServices.codec _
    [("task_run_1", (sampleHeavyRun.stored sampleServices.codec).projected)]
    ("task_run_1", (sampleHeavyRun.stored sampleServices.codec).projected) sampleHeavyRun rfl
    (by simp) hsaved ⟨rfl, by decide, rfl⟩ ?_).mpr ?_
  · rintro - ⟨hactive, -⟩
    revert hactive
    decide
  · rintro ⟨-, hrewrites, -⟩
    revert hrewrites
    decide

def artifactCount : RunRead → ℕ
  | .found run => run.artifacts.length
  | _ => 0

theorem artifactCount_kept (read : RunRead) : artifactCount read.kept = artifactCount read := by
  cases read <;> rfl

/-- The run loses its artifacts when its approval was approved. -/
theorem approved_run_loses_artifacts :
    (((reconcile sampleQueueServices sampleClock).run (queueHandler sampleServices.codec)
        (sampleHeavyQueue (sampleApprovals .approved))).2.filesOf "task_run_1").getRun.kept ≠
      ((sampleHeavyQueue (sampleApprovals .approved)).filesOf "task_run_1").getRun.kept := by
  intro heq
  have hcount := congrArg artifactCount heq
  rw [artifactCount_kept, artifactCount_kept] at hcount
  revert hcount
  decide +kernel

end AIpinho.Queue
