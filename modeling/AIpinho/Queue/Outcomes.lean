import AIpinho.Queue.Evidence
import AIpinho.Queue.Listings

/-!
# What becomes of one listed run

A pass of the queue writes a run anew, or not at all. A run that is written is listed afterwards
if its new status is one of the queue.
-/

namespace AIpinho.Queue

open Lib AIpinho.Runtime AIpinho.Approvals

/-- The other run has the approval of the first, was created when the first was, and passes
the schema if the first does. -/
structure TaskRun.Alike (run run' : TaskRun) : Prop where
  isValid : run'.isValid = run.isValid
  createdAt : run'.createdAt = run.createdAt
  approvalId : run'.approvalId = run.approvalId

/-- The approval and the time are saved as they are. -/
structure TaskRun.Tidy (run : TaskRun) : Prop where
  createdAt : sanitizeText run.createdAt = run.createdAt
  approvalId : run.approvalId.map sanitizeText = run.approvalId

def HoldsAs (codec : Codec) (run : TaskRun) (status : TaskRunStatus) (files : RunFiles) : Prop :=
  ∃ run', files.run = some (run'.stored codec) ∧ files.index = some status ∧
    TaskRun.Alike run run' ∧ run'.status = status

section Written

variable {codec : Codec} {statuses : List TaskRunStatus} {status : TaskRunStatus}
  {run run' : TaskRun} {files : RunFiles} {now runId : String}

theorem alike_moved (h : TaskRun.Alike run run') (now : String) (target : TaskRunStatus) :
    TaskRun.Alike run (run'.moved now target) := ⟨h.isValid, h.createdAt, h.approvalId⟩

theorem alike_transition (h : TaskRun.Alike run run') {target : TaskRunStatus} {run'' : TaskRun}
    (htransition : run'.transition now target = .ok run'') : TaskRun.Alike run run'' := by
  rcases TaskRun.transition_eq_ok htransition with ⟨rfl, -⟩ | ⟨-, rfl⟩
  · exact h
  · exact alike_moved h now target

theorem holdsAs_updateRun (h : TaskRun.Alike run run') :
    HoldsAs codec run run'.status (files.updateRun codec run') := ⟨run', rfl, rfl, h, rfl⟩

theorem HoldsAs.appendEvent (h : HoldsAs codec run status files) (e : TaskRunEvent) :
    HoldsAs codec run status (files.appendEvent codec runId e) := h

theorem isValid_of_getRunLightweight (h : files.getRunLightweight = .found run) :
    run.isValid = true := by
  rw [RunFiles.getRunLightweight] at h
  cases hrun : files.run with
  | none =>
    rw [hrun] at h
    cases h
  | some stored =>
    rw [hrun, Option.map_some, RunRead.ofRun] at h
    split at h
    · rename_i hvalid
      rw [← RunRead.found.inj h]
      exact hvalid
    · cases h

theorem getRun_of_getRunLightweight (h : files.getRunLightweight = .found run) :
    ∃ full, files.getRun = .found full ∧ TaskRun.Alike run full ∧ full.status = run.status := by
  cases hrun : files.run with
  | none =>
    rw [RunFiles.getRunLightweight, hrun] at h
    cases h
  | some stored =>
    have hread : files.getRunLightweight =
        if stored.isValid then .found stored.projected else .invalid := by
      rw [RunFiles.getRunLightweight, hrun]
      rfl
    have hfull : files.getRun =
        if stored.isValid then .found (stored.hydrated files.payloads) else .invalid := by
      rw [RunFiles.getRun, hrun]
      rfl
    rw [hread] at h
    split at h
    · rename_i hvalid
      rw [if_pos hvalid] at hfull
      obtain rfl := RunRead.found.inj h
      exact ⟨_, hfull, ⟨rfl, rfl, rfl⟩, rfl⟩
    · cases h

section Holds

variable (h : HoldsAs codec run status files) (hvalid : run.isValid = true)
include h hvalid

theorem HoldsAs.getRunLightweight (htidy : TaskRun.Tidy run) :
    ∃ run', files.getRunLightweight = .found run' ∧ TaskRun.Alike run run' ∧
      run'.status = status := by
  obtain ⟨run', hrun, -, halike, hstatus⟩ := h
  refine ⟨(run'.stored codec).projected, ?_, ⟨?_, ?_, ?_⟩, hstatus⟩
  · have hvalid' : (run'.stored codec).projected.isValid = true := by
      have hstored := run'.stored_isValid codec
      rw [halike.isValid, hvalid] at hstored
      exact hstored
    rw [RunFiles.getRunLightweight, hrun, Option.map_some, RunRead.ofRun, if_pos hvalid']
  · exact (run'.stored_isValid codec).trans halike.isValid
  · have hcreated : (run'.stored codec).projected.createdAt = sanitizeText run'.createdAt := rfl
    rw [hcreated, halike.createdAt, htidy.createdAt]
  · have hlinked : (run'.stored codec).projected.approvalId = run'.approvalId.map sanitizeText :=
      rfl
    rw [hlinked, halike.approvalId, htidy.approvalId]

theorem HoldsAs.listed_of_mem (htidy : TaskRun.Tidy run) (hstatus : status ∈ statuses) :
    ∃ run', listed statuses files = .ok (some run') ∧ TaskRun.Alike run run' ∧
      run'.status = status := by
  obtain ⟨run', hread, halike, hstatus'⟩ := h.getRunLightweight hvalid htidy
  refine ⟨run', listedIn_eq_some (listedIn_eq_some_iff.mpr ⟨hread, ?_⟩), halike, hstatus'⟩
  obtain ⟨-, -, hindex, -, -⟩ := h
  rw [IsShown, hindex]
  exact hstatus

end Holds

theorem listed_of_index_notMem (hindex : files.index = some status) (h : status ∉ statuses) :
    listed statuses files = .ok none := by
  rw [listed, if_pos]
  simp [hindex, h]

theorem HoldsAs.listed_of_notMem (h : HoldsAs codec run status files)
    (hstatus : status ∉ statuses) :
    listed statuses files = .ok none := by
  obtain ⟨-, -, hindex, -, -⟩ := h
  exact listed_of_index_notMem hindex hstatus

end Written

def cancelLeaves (status : TaskRunStatus) : TaskRunStatus :=
  if status.cancelsAtOnce then .cancelled else status

section Cancel

variable {codec : Codec} {run : TaskRun} {files : RunFiles} {runId : String}

theorem run_cancel (hread : files.getRunLightweight = .found run)
    (hopen : run.status.isTerminal = false) (now reason : String) :
    (∃ result, ((cancel now reason).run (runHandler codec runId) files).1 = .ok result) ∧
      HoldsAs codec run (cancelLeaves run.status)
        ((cancel now reason).run (runHandler codec runId) files).2 := by
  obtain ⟨full, hfull, halike, hstatus⟩ := getRun_of_getRunLightweight hread
  have hcan : full.status.canCancel = true := by
    rw [hstatus]
    cases hrun : run.status <;> simp_all [TaskRunStatus.isTerminal, TaskRunStatus.canCancel]
  have hrequested : TaskRun.Alike run (full.withCancellation reason) :=
    ⟨halike.isValid, halike.createdAt, halike.approvalId⟩
  have hstatus' : (full.withCancellation reason).status = run.status := hstatus
  dsimp only [cancel, RunProgram.getRun, Program.perform, bind, Program.bind, Program.run,
    runHandler]
  simp only [hfull]
  dsimp only [pure, Program.bind]
  simp only [hcan, Bool.not_true, Bool.false_eq_true, if_false]
  rw [hstatus', cancelLeaves]
  by_cases honce : run.status.cancelsAtOnce = true
  · have hmem : TaskRunStatus.cancelled ∈ (full.withCancellation reason).status.targets := by
      rw [hstatus']
      cases hrun : run.status <;> simp_all [TaskRunStatus.cancelsAtOnce, TaskRunStatus.targets]
    have hne : (full.withCancellation reason).status ≠ .cancelled := by
      rw [hstatus']
      rintro heq
      rw [heq] at honce
      cases honce
    rw [TaskRun.transition_of_mem hmem hne, if_pos honce]
    simp only [honce, if_true]
    exact ⟨⟨_, rfl⟩, holdsAs_updateRun (alike_moved hrequested now .cancelled)⟩
  · rw [if_neg honce]
    simp only [honce]
    refine ⟨⟨_, rfl⟩, ?_⟩
    rw [← hstatus']
    exact holdsAs_updateRun hrequested

end Cancel

def Repair.leaves (run : TaskRun) : Repair → TaskRunStatus
  | .skip => run.status
  | .cancel _ => cancelLeaves run.status
  | .await _ => .waitingInput
  | .resume .. => if run.status = .created then .queued else run.status
  | .deny _ => .blocked

section Repair

variable {codec : Codec} {run : TaskRun} {files : RunFiles} {now runId : String}

theorem Repair.holdsAs (hread : files.getRunLightweight = .found run)
    (hopen : run.status.isTerminal = false) {repair : Repair} (hskip : repair ≠ .skip) :
    HoldsAs codec run (repair.leaves run) (repair.files codec now runId run files) := by
  have hself : TaskRun.Alike run run := ⟨rfl, rfl, rfl⟩
  cases repair with
  | skip => exact absurd rfl hskip
  | cancel reason =>
    rw [files_cancel]
    exact (run_cancel hread hopen now reason).2
  | await approvalId =>
    obtain ⟨run', htransition⟩ := transition_of_open now hopen (.inl rfl)
    have hstatus : run'.status = .waitingInput := TaskRun.transition_status htransition
    rw [Repair.files, Repair.program, awaitApproval, htransition, Repair.leaves, ← hstatus]
    exact (holdsAs_updateRun (alike_transition hself htransition)).appendEvent _
  | resume approvalId approval =>
    have hlinked : TaskRun.Alike run (withApproval approvalId approval run) := ⟨rfl, rfl, rfl⟩
    have hqueued : ∃ run', queueApproved now (withApproval approvalId approval run) =
        .done run' ∧ TaskRun.Alike run run' ∧
          run'.status = if run.status = .created then .queued else run.status := by
      obtain ⟨run', hqueued, hkept, hstatus⟩ :=
        queueApproved_eq now (withApproval approvalId approval run)
      have hcreated := congrArg TaskRun.createdAt hkept
      have happroval := congrArg TaskRun.approvalId hkept
      have hvalid := congrArg TaskRun.isValid hkept
      exact ⟨run', hqueued, ⟨hvalid, hcreated, happroval⟩, hstatus⟩
    obtain ⟨run', hqueued, halike, hstatus⟩ := hqueued
    rw [Repair.files, Repair.program, resumeApprovedApproval, hqueued, Repair.leaves, ← hstatus]
    exact ((holdsAs_updateRun halike).appendEvent _).appendEvent _
  | deny approvalId =>
    have hopen' : ({ run with blockedReasons := withApprovalDenied run.blockedReasons } :
        TaskRun).status.isTerminal = false := hopen
    have hdenied : TaskRun.Alike run
        { run with blockedReasons := withApprovalDenied run.blockedReasons } := ⟨rfl, rfl, rfl⟩
    obtain ⟨run', htransition⟩ := transition_of_open now hopen' (.inr rfl)
    have hstatus : run'.status = .blocked := TaskRun.transition_status htransition
    rw [Repair.files, Repair.program, cancelDeniedApproval, htransition, Repair.leaves, ← hstatus]
    exact holdsAs_updateRun (alike_transition hdenied htransition)

end Repair

section Growth

variable {codec : Codec} {run : TaskRun} {files : RunFiles} {now runId : String} {e : TaskRunEvent}

theorem length_pushEvent (events : List TaskRunEvent) (e : TaskRunEvent) :
    (pushEvent codec runId events e).length = events.length + 1 := by
  simp [pushEvent]

theorem length_appendEvent (h : e.isTerminal = false) :
    (files.appendEvent codec runId e).events.length = files.events.length + 1 := by
  have hnone : ∀ events, refusedBy events
      { e with eventId := files.nextEventId, runId := runId } = none := by
    intro events
    have hterminal : ({ e with eventId := files.nextEventId, runId := runId } :
        TaskRunEvent).isTerminal = false := h
    rw [refusedBy, hterminal]
    rfl
  simp only [RunFiles.appendEvent, Runtime.appendEvent, hnone, length_pushEvent]

theorem length_le_ignored (stamp : Stamp) (terminal : TaskRunEvent)
    (attemptedStatus reasonCode : String) (events : List TaskRunEvent) :
    events.length ≤ (appendTerminalizationIgnored codec runId stamp terminal attemptedStatus
      reasonCode events).length := by
  rw [appendTerminalizationIgnored]
  split
  · exact le_rfl
  · rw [length_pushEvent]
    omega

theorem length_le_runHandler (op : RunOp) (files : RunFiles) :
    files.events.length ≤ (runHandler codec runId op files).2.events.length := by
  cases op with
  | appendEvent e =>
    simp only [runHandler, RunFiles.appendEvent, Runtime.appendEvent]
    split
    · exact length_le_ignored _ _ _ _ _
    · rw [length_pushEvent]
      omega
  | ignoreTerminalization attemptedStatus reasonCode timestamp =>
    simp only [runHandler, RunFiles.ignoreTerminalization]
    split
    · exact le_rfl
    · exact length_le_ignored _ _ _ _ _
  | saveResult now result =>
    simp only [runHandler, RunFiles.saveResult, RunFiles.cohereTerminalResult]
    split
    · exact le_rfl
    · split
      · exact le_rfl
      · exact le_rfl
  | cohereTerminalResult now result =>
    simp only [runHandler, RunFiles.cohereTerminalResult]
    split
    · exact le_rfl
    · split
      · exact le_rfl
      · exact le_rfl
  | _ => exact le_rfl

theorem length_le_run {α : Type} (p : RunProgram α) (files : RunFiles) :
    files.events.length ≤ (p.run (runHandler codec runId) files).2.events.length := by
  induction p generalizing files with
  | done | raise => exact le_rfl
  | call op k ih => exact (length_le_runHandler op files).trans (ih _ _)

def Repair.IsRepeated : Repair → Prop
  | .cancel _ => True
  | .resume .. => True
  | _ => False

theorem Repair.grows (hread : files.getRunLightweight = .found run)
    (hopen : run.status.isTerminal = false) {repair : Repair} (h : repair.IsRepeated) :
    files.events.length < (repair.files codec now runId run files).events.length := by
  cases repair with
  | cancel reason =>
    obtain ⟨full, hfull, -, hstatus⟩ := getRun_of_getRunLightweight hread
    have hcan : full.status.canCancel = true := by
      rw [hstatus]
      cases hrun : run.status <;> simp_all [TaskRunStatus.isTerminal, TaskRunStatus.canCancel]
    rw [files_cancel]
    dsimp only [Runtime.cancel, RunProgram.getRun, Program.perform, bind, Program.bind, Program.run,
      runHandler]
    simp only [hfull]
    dsimp only [pure, Program.bind]
    simp only [hcan, Bool.not_true, Bool.false_eq_true, if_false]
    dsimp only [createEvent, RunProgram.appendEvent, Program.perform, Program.bind, Program.run,
      runHandler]
    refine lt_of_lt_of_le ?_ (length_le_run _ _)
    rw [length_appendEvent rfl]
    omega
  | resume approvalId approval =>
    obtain ⟨run', hqueued, -, -⟩ := queueApproved_eq now (withApproval approvalId approval run)
    rw [Repair.files, Repair.program, resumeApprovedApproval, hqueued]
    dsimp only [RunProgram.updateRun, createEvent, RunProgram.appendEvent, Program.perform, bind,
      Program.bind, Program.run, runHandler]
    refine lt_of_lt_of_le ?_ (length_le_runHandler (.appendEvent _) _)
    rw [length_appendEvent rfl]
    exact Nat.lt_succ_self _
  | skip | await | deny => exact h.elim

end Growth

/-- The files have the result they had, and their log goes on with events that end nothing
and that the watchdog of silent artifacts does not look at. -/
structure GoesOn (before files : RunFiles) : Prop where
  result : files.result = before.result
  /-- The log goes on without artifacts. -/
  continues : Continues before.events files.events
  hasEnd : HasEnd files.events ↔ HasEnd before.events

section Watch

variable {codec : Codec} {run : TaskRun} {before files : RunFiles} {now runId : String}
  {e : TaskRunEvent}

theorem goesOn_refl (hlog : Settled codec runId files.events) : GoesOn files files :=
  ⟨rfl, continues_refl hlog.numbered, Iff.rfl⟩

theorem GoesOn.updateRun (h : GoesOn before files) (run : TaskRun) :
    GoesOn before (files.updateRun codec run) := ⟨h.result, h.continues, h.hasEnd⟩

theorem GoesOn.appendEvent (h : GoesOn before files)
    (hlog : Settled codec runId before.events) (he : e.Quiet) (hterminal : e.isTerminal = false) :
    GoesOn before (files.appendEvent codec runId e) := by
  let e' : TaskRunEvent := { e with eventId := files.nextEventId, runId := runId }
  have hterminal' : e'.isTerminal = false := hterminal
  have hevents : (files.appendEvent codec runId e).events =
      pushEvent codec runId files.events e' := by
    simp only [RunFiles.appendEvent, Runtime.appendEvent, refusedBy]
    rw [if_neg (by simpa using hterminal')]
  have hquiet : e'.Quiet := ⟨he.type, he.settled⟩
  refine ⟨h.result, h.continues.appendEvent hlog.saved hquiet hterminal' _, ?_⟩
  rw [hevents, ← h.hasEnd, ← not_iff_not, not_hasEnd_iff_terminals, not_hasEnd_iff_terminals,
    terminals_pushEvent]
  simp [hterminal']

theorem GoesOn.isStalled_iff {services : StoreServices} {clock : Clock} {maxSilence : ℤ}
    (h : GoesOn before files) :
    files.IsStalled services clock maxSilence ↔ before.IsStalled services clock maxSilence := by
  rw [RunFiles.IsStalled, RunFiles.IsStalled, h.result, h.hasEnd, h.continues.stalledArtifact]

theorem quiet_newEvent (type : String) (htype : type ∉ watchedTypes)
    (hsettled : sanitizeText type = type) (now status message : String)
    (metadata : List (String × Json)) : (newEvent now type status message metadata).Quiet :=
  ⟨htype, hsettled⟩

theorem Repair.goesOn (hlog : Settled codec runId files.events)
    (hread : files.getRunLightweight = .found run) {repair : Repair}
    (h : repair.leaves run = .running) :
    GoesOn files (repair.files codec now runId run files) := by
  have hself := goesOn_refl hlog
  cases repair with
  | skip => exact hself
  | cancel reason =>
    have hrunning : run.status = .running := by
      rw [Repair.leaves, cancelLeaves] at h
      split at h
      · cases h
      · exact h
    obtain ⟨full, hfull, -, hstatus⟩ := getRun_of_getRunLightweight hread
    have hcan : full.status.canCancel = true := by
      rw [hstatus, hrunning]
      rfl
    have honce : (full.withCancellation reason).status.cancelsAtOnce = false := by
      change full.status.cancelsAtOnce = false
      rw [hstatus, hrunning]
      rfl
    rw [files_cancel]
    dsimp only [Runtime.cancel, RunProgram.getRun, Program.perform, bind, Program.bind,
      Program.run, runHandler]
    simp only [hfull]
    dsimp only [pure, Program.bind]
    simp only [hcan, honce, Bool.not_true, Bool.false_eq_true, if_false]
    have hquiet := quiet_newEvent "run_cancel_requested" (by decide) (by decide)
    exact (hself.appendEvent hlog (hquiet _ _ _ _) rfl).updateRun _
  | await approvalId => cases h
  | resume approvalId approval =>
    obtain ⟨run', hqueued, -, -⟩ := queueApproved_eq now (withApproval approvalId approval run)
    rw [Repair.files, Repair.program, resumeApprovedApproval, hqueued]
    have happroved := quiet_newEvent "approval_approved" (by decide) (by decide)
    have hresumed := quiet_newEvent "task_resumed_after_approval" (by decide) (by decide)
    exact ((hself.updateRun run').appendEvent hlog (happroved _ _ _ _) rfl).appendEvent hlog
      (hresumed _ _ _ _) rfl
  | deny approvalId => cases h

variable {services : QueueServices} {clock : Clock}

theorem artifactWatch_ok (hread : files.getRunLightweight = .found run)
    (htimes : ∀ e, stalledArtifact services.store.codec clock
      services.policy.artifactCreationTerminality files.events = some e →
        (clock.elapsed e.timestamp).isSome = true) :
    ∃ result, ((artifactWatch services clock).run (runHandler codec runId) files).1 =
      .ok result := by
  obtain ⟨full, hfull, -, -⟩ := getRun_of_getRunLightweight hread
  cases hresult : files.result with
  | some existing => exact ⟨_, congrArg Prod.fst (run_terminalize_of_result hresult ..)⟩
  | none =>
    by_cases hquiet : full.status.isActive = false ∨ HasEnd files.events
    · exact ⟨_, congrArg Prod.fst (run_terminalize_of_found hresult hfull hquiet ..)⟩
    · rw [not_or, Bool.not_eq_false] at hquiet
      have hwatch : StallWatch services.store clock services.policy.artifactCreationTerminality
          codec runId full files ((artifactWatch services clock).run (runHandler codec runId)
            files) := stallWatch_of_active hresult hfull hquiet.1 hquiet.2 _ _ _
      generalize (artifactWatch services clock).run (runHandler codec runId) files = r at hwatch ⊢
      cases hwatch with
      | quiet _ => exact ⟨none, rfl⟩
      | fails artifactEvent hstalled helapsed =>
        have hsome := htimes artifactEvent hstalled
        rw [helapsed] at hsome
        cases hsome
      | blocks artifactEvent failed ended result reason row _ _ _ _ _ _ =>
        exact ⟨some result, rfl⟩

theorem artifactWatch_blocks (hread : files.getRunLightweight = .found run)
    (hrunning : run.status = .running)
    (hstalled : files.IsStalled services.store clock
      services.policy.artifactCreationTerminality) :
    ((artifactWatch services clock).run (runHandler codec runId) files).2.index =
      some .blocked := by
  obtain ⟨full, hfull, -, hstatus⟩ := getRun_of_getRunLightweight hread
  obtain ⟨hresult, hnoEnd, artifact, hartifact, hsome⟩ := hstalled
  have hactive : full.status.isActive = true := by
    rw [hstatus, hrunning]
    rfl
  have hwatch : StallWatch services.store clock services.policy.artifactCreationTerminality
      codec runId full files ((artifactWatch services clock).run (runHandler codec runId) files) :=
    stallWatch_of_active hresult hfull hactive hnoEnd _ _ _
  generalize (artifactWatch services clock).run (runHandler codec runId) files = r at hwatch ⊢
  cases hwatch with
  | quiet h =>
    rw [hartifact] at h
    cases h
  | fails artifactEvent h helapsed =>
    rw [hartifact, Option.some.injEq] at h
    rw [← h] at helapsed
    rw [helapsed] at hsome
    cases hsome
  | blocks artifactEvent failed ended result reason row _ _ _ _ _ hresult =>
    have hindex : ∀ files : RunFiles, files.index = some .blocked →
        (files.saveResult codec clock.now result).index = some .blocked := by
      intro files hindex
      rw [RunFiles.saveResult, RunFiles.cohereTerminalResult, hresult]
      split
      · exact hindex
      · split
        · exact hindex
        · rfl
    exact hindex _ rfl

end Watch

end AIpinho.Queue
