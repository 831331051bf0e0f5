import AIpinho.Approvals.Reading
import AIpinho.Queue.Service

/-!
# What a pass of the queue does to one run

Every pass of a reconciliation goes over runs with distinct identifiers, and works on the files
of each alone. So a pass is given by what it does to one run and to the approvals.
-/

namespace AIpinho.Queue

open List Lib AIpinho.Runtime AIpinho.Approvals

section Files

variable {q : QueueState} {runId runId' : String} {files files' : RunFiles}

theorem hasNoFile_noFiles : hasNoFile noFiles = true := rfl

theorem eq_noFiles_of_hasNoFile (h : hasNoFile files = true) : files = noFiles := by
  obtain ⟨run, index, events, result, payloads⟩ := files
  simp only [hasNoFile, Bool.and_eq_true, Option.isNone_iff_eq_none, List.isEmpty_iff] at h
  obtain ⟨⟨⟨⟨rfl, rfl⟩, rfl⟩, rfl⟩, rfl⟩ := h
  rfl

namespace QueueState

@[simp] theorem filesOf_setFiles_self (runId : String) (files : RunFiles) (q : QueueState) :
    (q.setFiles runId files).filesOf runId = files := by
  rw [setFiles]
  split
  · rename_i h
    rw [Bool.and_eq_true, Option.isNone_iff_eq_none] at h
    rw [filesOf, h.1, eq_noFiles_of_hasNoFile h.2]
    rfl
  · simp [filesOf]

theorem filesOf_setFiles_of_ne (h : runId' ≠ runId) (files : RunFiles) (q : QueueState) :
    (q.setFiles runId files).filesOf runId' = q.filesOf runId' := by
  rw [setFiles]
  split
  · rfl
  · simp only [filesOf, Table.get?_insert_of_ne h]

theorem setFiles_filesOf (runId : String) (q : QueueState) :
    q.setFiles runId (q.filesOf runId) = q := by
  rw [setFiles, filesOf]
  cases h : q.runs.get? runId with
  | none => simp [hasNoFile_noFiles]
  | some files => simp [Table.insert_get? h]

def HasRun (runId : String) (q : QueueState) : Prop := (q.runs.get? runId).isSome = true

theorem setFiles_of_hasRun (h : q.HasRun runId) (files : RunFiles) :
    q.setFiles runId files = { q with runs := q.runs.insert runId files } := by
  rw [setFiles, if_neg]
  simp [Option.isSome_iff_ne_none.mp h]

theorem hasRun_setFiles (h : q.HasRun runId) (runId' : String) (files : RunFiles) :
    (q.setFiles runId' files).HasRun runId := by
  rw [setFiles]
  split
  · exact h
  · by_cases hid : runId = runId'
    · simp [HasRun, hid]
    · rw [HasRun, Table.get?_insert_of_ne hid]
      exact h

theorem setFiles_setFiles (h : q.HasRun runId) (files files' : RunFiles) :
    (q.setFiles runId files).setFiles runId files' = q.setFiles runId files' := by
  rw [setFiles_of_hasRun (hasRun_setFiles h runId files), setFiles_of_hasRun h,
    setFiles_of_hasRun h, Table.insert_insert]

end QueueState

def runPart (codec : Codec) (runId : String) :
    Program.Part (runInclusion runId) (runHandler codec runId) (queueHandler codec) where
  Has := QueueState.HasRun runId
  get q := q.filesOf runId
  set := QueueState.setFiles runId
  has_set files _ h := QueueState.hasRun_setFiles h runId files
  get_set files q _ := QueueState.filesOf_setFiles_self runId files q
  set_get q _ := QueueState.setFiles_filesOf runId q
  set_set files files' _ h := QueueState.setFiles_setFiles h files files'
  answer_eq _ _ := rfl
  state_eq _ _ := rfl

def approvalPart (codec : Codec) :
    Program.Part approvalInclusion approvalHandler (queueHandler codec) where
  Has _ := True
  get := QueueState.approvals
  set approvals q := { q with approvals := approvals }
  has_set _ _ _ := trivial
  get_set _ _ _ := rfl
  set_get _ _ := rfl
  set_set _ _ _ _ := rfl
  answer_eq _ _ := rfl
  state_eq _ _ := rfl

variable {α : Type} (codec : Codec)

theorem run_onRun (h : q.HasRun runId) (p : RunProgram α) :
    (onRun runId p).run (queueHandler codec) q =
      ((p.run (runHandler codec runId) (q.filesOf runId)).1,
        q.setFiles runId (p.run (runHandler codec runId) (q.filesOf runId)).2) :=
  Program.run_hoist (runPart codec runId) p h

theorem filesOf_run_onRun (p : RunProgram α) (q : QueueState) :
    ((onRun runId p).run (queueHandler codec) q).1 =
        (p.run (runHandler codec runId) (q.filesOf runId)).1 ∧
      ((onRun runId p).run (queueHandler codec) q).2.filesOf runId =
        (p.run (runHandler codec runId) (q.filesOf runId)).2 ∧
      ∀ runId', runId' ≠ runId →
        ((onRun runId p).run (queueHandler codec) q).2.filesOf runId' = q.filesOf runId' := by
  induction p generalizing q with
  | done | raise => exact ⟨rfl, rfl, fun _ _ => rfl⟩
  | call op k ih =>
    have hset := QueueState.filesOf_setFiles_self runId
      (runHandler codec runId op (q.filesOf runId)).2 q
    obtain ⟨hresult, hself, hother⟩ := ih (runHandler codec runId op (q.filesOf runId)).1
      (q.setFiles runId (runHandler codec runId op (q.filesOf runId)).2)
    rw [hset] at hresult hself
    refine ⟨hresult, hself, fun runId' hne => ?_⟩
    exact (hother runId' hne).trans (QueueState.filesOf_setFiles_of_ne hne _ q)

theorem run_onApprovals (p : ApprovalProgram α) (q : QueueState) :
    (onApprovals p).run (queueHandler codec) q = ((p.run approvalHandler q.approvals).1,
        { q with approvals := (p.run approvalHandler q.approvals).2 }) :=
  Program.run_hoist (approvalPart codec) p trivial

end Files

/-- What the queue does with a run whose approval it has read. -/
inductive Repair
  | skip
  | cancel (reason : String)
  | await (approvalId : String)
  | resume (approvalId : String) (approval : ApprovalRequest)
  | deny (approvalId : String)

def repairFor (approvalId : String) (run : TaskRun) : Option ApprovalRequest → Repair
  | none => .cancel "linked_approval_missing"
  | some approval =>
    match approval.status with
    | .pending =>
      if run.status = .created ∨ run.status = .queued then .await approvalId else .skip
    | .approved => .resume approvalId approval
    | .rejected => .deny approvalId
    | status => .cancel ("linked_approval_" ++ status.text)

def linkedApproval (run : TaskRun) : Option String :=
  if run.status.isTerminal = true ∨ run.approvalId.getD "" = "" then none
  else some (run.approvalId.getD "")

def repairOf (clock : Clock) (approvals : ApprovalTable) (run : TaskRun) : Repair :=
  match linkedApproval run with
  | none => .skip
  | some approvalId =>
    match approvals.current clock approvalId with
    | .error _ => .skip
    | .ok approval => repairFor approvalId run approval

theorem rejected_of_deny {clock : Clock} {approvals : ApprovalTable} {run : TaskRun}
    {approvalId : String} (h : repairOf clock approvals run = .deny approvalId) :
    ∃ linked approval, approvals.read linked = .found approval ∧ approval.status = .rejected := by
  rw [repairOf] at h
  cases hlinked : linkedApproval run with
  | none =>
    rw [hlinked] at h
    cases h
  | some linked =>
    rw [hlinked] at h
    cases hread : approvals.read linked with
    | missing => simp [ApprovalTable.current, hread, repairFor] at h
    | invalid => simp [ApprovalTable.current, hread] at h
    | found approval =>
      refine ⟨linked, approval, hread, ?_⟩
      simp only [ApprovalTable.current, hread, repairFor, ApprovalRequest.seen] at h
      cases hlapsed : approval.isLapsed clock with
      | true => simp [hlapsed, ApprovalRequest.expire] at h
      | false =>
        cases hstatus : approval.status <;> simp [hlapsed, hstatus] at h ⊢
        split at h <;> cases h

def Repair.program (now : String) (run : TaskRun) : Repair → RunProgram TaskRun
  | .skip => pure run
  | .cancel reason => (fun _ => run) <$> Runtime.cancel now reason
  | .await approvalId => awaitApproval now approvalId run
  | .resume approvalId approval => resumeApprovedApproval now approvalId approval run
  | .deny approvalId => cancelDeniedApproval now approvalId run

def Repair.files (codec : Codec) (now runId : String) (run : TaskRun) (files : RunFiles)
    (repair : Repair) : RunFiles :=
  ((repair.program now run).run (runHandler codec runId) files).2

variable (codec : Codec)

def Repair.copy (now runId : String) (run : TaskRun) (files : RunFiles) (repair : Repair) :
    TaskRun :=
  ((repair.program now run).run (runHandler codec runId) files).1.toOption.getD run

def touchLinked (clock : Clock) (run : TaskRun) (approvals : ApprovalTable) : ApprovalTable :=
  match linkedApproval run with
  | none => approvals
  | some approvalId => approvals.touch clock approvalId

section Repair

variable (services : QueueServices) (clock : Clock) (codec : Codec) {q : QueueState}
  {runId : String}

theorem run_cancelRun_none (h : q.HasRun runId) (reason : String) (report : QueueReport) :
    ∃ report', (cancelRun services clock runId none reason report).run (queueHandler codec) q =
      (.ok report', q.setFiles runId ((cancel clock.now reason).run (runHandler codec runId)
          (q.filesOf runId)).2) := by
  rw [cancelRun, Program.run_attempt_bind, run_onRun codec h]
  cases ((cancel clock.now reason).run (runHandler codec runId) (q.filesOf runId)).1 with
  | error | ok => exact ⟨_, rfl⟩

theorem awaitApproval_ok {run : TaskRun} (h : run.status = .created ∨ run.status = .queued)
    (now approvalId : String) (files : RunFiles) :
    ((awaitApproval now approvalId run).run (runHandler codec runId) files).1 =
      .ok (run.moved now .waitingInput) := by
  have htransition : run.transition now .waitingInput = .ok (run.moved now .waitingInput) := by
    refine TaskRun.transition_of_mem ?_ ?_ <;> rcases h with h | h <;> rw [h] <;> decide
  rw [awaitApproval, htransition]
  rfl

theorem files_cancel (now reason : String) (run : TaskRun) (files : RunFiles) :
    (Repair.cancel reason).files codec now runId run files =
      ((cancel now reason).run (runHandler codec runId) files).2 := by
  rw [Repair.files, Repair.program, Program.run_map]

theorem copy_cancel (now reason : String) (run : TaskRun) (files : RunFiles) :
    (Repair.cancel reason).copy codec now runId run files = run := by
  rw [Repair.copy, Repair.program, Program.run_map]
  cases ((cancel now reason).run (runHandler codec runId) files).1 <;> rfl

theorem run_cancelForApproval (h : q.HasRun runId) (run : TaskRun) (reason : String)
    (report : QueueReport) :
    ∃ report', (cancelRun services clock runId none reason report >>= fun report =>
        (pure ((runId, run), report) : QueueProgram ((String × TaskRun) × QueueReport))).run
          (queueHandler codec) q =
        (.ok ((runId, (Repair.cancel reason).copy codec clock.now runId run (q.filesOf runId)),
          report'),
          q.setFiles runId ((Repair.cancel reason).files codec clock.now runId run
            (q.filesOf runId))) := by
  obtain ⟨report', hrun⟩ := run_cancelRun_none services clock codec h reason report
  refine ⟨report', ?_⟩
  rw [Program.run_bind_of_ok _ (congrArg Prod.fst hrun), hrun, files_cancel, copy_cancel]
  rfl

theorem run_attemptRepair (h : q.HasRun runId) (run : TaskRun) (failure : String)
    (report : QueueReport) (repair : Repair) :
    ∃ report', ((onRun runId (repair.program clock.now run)).attempt >>= fun result =>
        (pure (repaired runId run failure result report) :
          QueueProgram ((String × TaskRun) × QueueReport))).run (queueHandler codec) q =
        (.ok ((runId, repair.copy codec clock.now runId run (q.filesOf runId)), report'),
          q.setFiles runId (repair.files codec clock.now runId run (q.filesOf runId))) := by
  rw [Program.run_attempt_bind, run_onRun codec h, Repair.copy, Repair.files]
  cases ((repair.program clock.now run).run (runHandler codec runId) (q.filesOf runId)).1 with
  | ok | error => exact ⟨_, rfl⟩

/-- A run is repaired for its approval in its own files only. -/
theorem run_repairForApproval (h : q.HasRun runId) (approvalId : String) (run : TaskRun)
    (report : QueueReport) (approval : Option ApprovalRequest) :
    ∃ report', (repairForApproval services clock runId approvalId run report approval).run
          (queueHandler codec) q =
        (.ok ((runId, (repairFor approvalId run approval).copy codec clock.now runId run
          (q.filesOf runId)), report'),
          q.setFiles runId ((repairFor approvalId run approval).files codec clock.now runId run
            (q.filesOf runId))) := by
  cases approval with
  | none => exact run_cancelForApproval services clock codec h run _ report
  | some approval =>
    cases hstatus : approval.status with
    | pending =>
      simp only [repairForApproval, repairFor, hstatus]
      by_cases hrun : run.status = .created ∨ run.status = .queued
      · simp only [if_pos hrun]
        have hok : ((awaitApproval clock.now approvalId run).run (runHandler codec runId)
            (q.filesOf runId)).1 = _ := awaitApproval_ok codec hrun clock.now approvalId _
        refine ⟨report, ?_⟩
        rw [Program.run_bind_of_ok (a := run.moved clock.now .waitingInput), run_onRun codec h,
          Repair.copy, Repair.files, Repair.program, hok]
        · rfl
        · rw [run_onRun codec h, hok]
      · simp only [if_neg hrun]
        refine ⟨report, ?_⟩
        rw [Repair.files, Repair.program]
        change _ = (_, q.setFiles runId (q.filesOf runId))
        rw [QueueState.setFiles_filesOf]
        rfl
    | approved =>
      simp only [repairForApproval, repairFor, hstatus]
      exact run_attemptRepair clock codec h run _ report (.resume approvalId approval)
    | rejected =>
      simp only [repairForApproval, repairFor, hstatus]
      exact run_attemptRepair clock codec h run _ report (.deny approvalId)
    | cancelled =>
      simp only [repairForApproval, repairFor, hstatus]
      exact run_cancelForApproval services clock codec h run _ report
    | expired =>
      simp only [repairForApproval, repairFor, hstatus]
      exact run_cancelForApproval services clock codec h run _ report
    | invalidatedByPolicyChange =>
      simp only [repairForApproval, repairFor, hstatus]
      exact run_cancelForApproval services clock codec h run _ report

end Repair

def copyAfter (clock : Clock) (q : QueueState) (entry : String × TaskRun) : String × TaskRun :=
  (entry.1, (repairOf clock q.approvals entry.2).copy codec clock.now entry.1 entry.2
    (q.filesOf entry.1))

def filesAfter (clock : Clock) (q : QueueState) (entry : String × TaskRun) : RunFiles :=
  (repairOf clock q.approvals entry.2).files codec clock.now entry.1 entry.2 (q.filesOf entry.1)

def QueueState.repair (clock : Clock) (entry : String × TaskRun) (q : QueueState) : QueueState :=
  { q.setFiles entry.1 (filesAfter codec clock q entry) with
    approvals := touchLinked clock entry.2 q.approvals }

section Approvals

variable (services : QueueServices) (clock : Clock) (codec : Codec) {q : QueueState}
  {entry : String × TaskRun}

theorem run_reconcileApprovalState (h : q.HasRun entry.1) (report : QueueReport) :
    ∃ report', (reconcileApprovalState services clock entry report).run (queueHandler codec) q =
      (.ok (copyAfter codec clock q entry, report'), q.repair codec clock entry) := by
  have hskip : q.setFiles entry.1 (Repair.skip.files codec clock.now entry.1 entry.2
      (q.filesOf entry.1)) = q := q.setFiles_filesOf entry.1
  rw [reconcileApprovalState]
  simp only [QueueState.repair, copyAfter, filesAfter, repairOf, touchLinked, linkedApproval]
  by_cases hnone : entry.2.status.isTerminal = true ∨ entry.2.approvalId.getD "" = ""
  · simp only [if_pos hnone, hskip]
    exact ⟨report, rfl⟩
  · simp only [if_neg hnone]
    rw [Program.run_attempt_bind, run_onApprovals, ApprovalTable.run_getApproval]
    cases q.approvals.current clock (entry.2.approvalId.getD "") with
    | error e =>
      simp only [hskip]
      exact ⟨_, rfl⟩
    | ok approval =>
      have hq : QueueState.HasRun entry.1
          { q with approvals := q.approvals.touch clock (entry.2.approvalId.getD "") } := h
      obtain ⟨report', hrun⟩ := run_repairForApproval services clock codec hq
        (entry.2.approvalId.getD "") entry.2 report approval
      refine ⟨report', hrun.trans ?_⟩
      rw [QueueState.setFiles_of_hasRun hq, QueueState.setFiles_of_hasRun h]
      rfl

theorem current_touchLinked (run : TaskRun) (approvals : ApprovalTable) (approvalId : String) :
    (touchLinked clock run approvals).current clock approvalId =
      approvals.current clock approvalId := by
  rw [touchLinked]
  split
  · rfl
  · rw [ApprovalTable.current_touch]

theorem repairOf_touchLinked (run run' : TaskRun) (approvals : ApprovalTable) :
    repairOf clock (touchLinked clock run' approvals) run = repairOf clock approvals run := by
  simp only [repairOf, current_touchLinked]

theorem filesOf_repair_self (q : QueueState) (entry : String × TaskRun) :
    (q.repair codec clock entry).filesOf entry.1 = filesAfter codec clock q entry :=
  QueueState.filesOf_setFiles_self _ _ _

variable {runId : String} {entries : List (String × TaskRun)}

theorem filesOf_repair_of_ne (h : runId ≠ entry.1) (q : QueueState) :
    (q.repair codec clock entry).filesOf runId = q.filesOf runId :=
  QueueState.filesOf_setFiles_of_ne h _ _

theorem hasRun_repair (h : q.HasRun runId) (entry : String × TaskRun) :
    (q.repair codec clock entry).HasRun runId :=
  QueueState.hasRun_setFiles h _ _

def QueueState.repairAll (entries : List (String × TaskRun)) (q : QueueState) : QueueState :=
  entries.foldl (fun q entry => q.repair codec clock entry) q

theorem copyAfter_repair {entry' : String × TaskRun} (h : entry'.1 ≠ entry.1) (q : QueueState) :
    copyAfter codec clock (q.repair codec clock entry) entry' = copyAfter codec clock q entry' := by
  have happrovals : (q.repair codec clock entry).approvals =
      touchLinked clock entry.2 q.approvals := rfl
  simp only [copyAfter, happrovals, repairOf_touchLinked, filesOf_repair_of_ne clock codec h]

theorem filesAfter_repair {entry' : String × TaskRun} (h : entry'.1 ≠ entry.1) (q : QueueState) :
    filesAfter codec clock (q.repair codec clock entry) entry' =
      filesAfter codec clock q entry' := by
  have happrovals : (q.repair codec clock entry).approvals =
      touchLinked clock entry.2 q.approvals := rfl
  simp only [filesAfter, happrovals, repairOf_touchLinked, filesOf_repair_of_ne clock codec h]

theorem run_reconcileApprovalStates (hnodup : (entries.map Prod.fst).Nodup)
    (hruns : ∀ entry ∈ entries, q.HasRun entry.1) (report : QueueReport) :
    ∃ report', (reconcileApprovalStates services clock entries report).run (queueHandler codec) q =
        (.ok (entries.map (copyAfter codec clock q), report'),
          q.repairAll clock codec entries) := by
  induction entries generalizing q report with
  | nil => exact ⟨report, rfl⟩
  | cons entry entries ih =>
    simp only [map_cons, nodup_cons, forall_mem_cons] at hnodup hruns
    obtain ⟨report₁, hstep⟩ := run_reconcileApprovalState services clock codec hruns.1 report
    have hruns' : ∀ entry' ∈ entries, (q.repair codec clock entry).HasRun entry'.1 :=
      fun entry' hentry' => hasRun_repair clock codec (hruns.2 entry' hentry') entry
    obtain ⟨report₂, hrest⟩ := ih hnodup.2 hruns' report₁
    have hcopies : entries.map (copyAfter codec clock (q.repair codec clock entry)) =
        entries.map (copyAfter codec clock q) := by
      refine map_congr_left fun entry' hentry' => copyAfter_repair clock codec ?_ q
      intro heq
      exact hnodup.1 (mem_map.mpr ⟨entry', hentry', heq⟩)
    refine ⟨report₂, ?_⟩
    rw [reconcileApprovalStates, Program.run_bind_of_ok _ (congrArg Prod.fst hstep), hstep]
    rw [Program.run_bind_of_ok _ (congrArg Prod.fst hrest), hrest, hcopies]
    rfl

theorem filesOf_repairAll_of_notMem (h : runId ∉ entries.map Prod.fst) (q : QueueState) :
    (q.repairAll clock codec entries).filesOf runId = q.filesOf runId := by
  induction entries generalizing q with
  | nil => rfl
  | cons head entries ih =>
    rw [map_cons, mem_cons, not_or] at h
    exact (ih h.2 _).trans (filesOf_repair_of_ne clock codec h.1 q)

theorem filesOf_repairAll (hnodup : (entries.map Prod.fst).Nodup) (hentry : entry ∈ entries)
    (q : QueueState) :
    (q.repairAll clock codec entries).filesOf entry.1 = filesAfter codec clock q entry := by
  induction entries generalizing q with
  | nil => cases hentry
  | cons head entries ih =>
    rw [map_cons, nodup_cons] at hnodup
    change ((q.repair codec clock head).repairAll clock codec entries).filesOf entry.1 = _
    rcases mem_cons.mp hentry with rfl | hentry
    · rw [filesOf_repairAll_of_notMem clock codec hnodup.1, filesOf_repair_self]
    · have hne : entry.1 ≠ head.1 := by
        intro heq
        exact hnodup.1 (mem_map.mpr ⟨entry, hentry, heq⟩)
      rw [ih hnodup.2 hentry, filesAfter_repair clock codec hne]

theorem hasRun_repairAll (h : q.HasRun runId) : (q.repairAll clock codec entries).HasRun runId := by
  induction entries generalizing q with
  | nil => exact h
  | cons head entries ih => exact ih (hasRun_repair clock codec h head)

theorem current_repairAll (entries : List (String × TaskRun)) (q : QueueState)
    (approvalId : String) :
    (q.repairAll clock codec entries).approvals.current clock approvalId =
      q.approvals.current clock approvalId := by
  induction entries generalizing q with
  | nil => rfl
  | cons head entries ih => exact (ih _).trans (current_touchLinked clock head.2 _ _)

end Approvals

section Listing

variable {statuses : List TaskRunStatus} {q : QueueState} {runs : List (String × TaskRun)}

def listedEntry (statuses : List TaskRunStatus) (e : String × RunFiles) :
    Option (String × TaskRun) :=
  (listed statuses e.2).toOption.join.map fun run => (e.1, run)

def indexedEntry (statuses : List TaskRunStatus) (e : String × RunFiles) : String × RunFiles :=
  (e.1, ((listed statuses e.2).toOption.join.map fun run => withIndex run e.2).getD e.2)

theorem listEntries_of_ok {entries : List (String × RunFiles)}
    (h : (listEntries statuses entries).1 = .ok runs) :
    runs = entries.filterMap (listedEntry statuses) ∧
      (listEntries statuses entries).2 = entries.map (indexedEntry statuses) ∧
      ∀ e ∈ entries, ∃ run, listed statuses e.2 = .ok run := by
  induction entries generalizing runs with
  | nil =>
    rw [listEntries, Except.ok.injEq] at h
    exact ⟨h.symm, rfl, by simp⟩
  | cons e entries ih =>
    obtain ⟨runId, files⟩ := e
    rw [listEntries] at h ⊢
    cases hlisted : listed statuses files with
    | error e => simp [hlisted] at h
    | ok found =>
      cases found with
      | none =>
        simp only [hlisted] at h ⊢
        obtain ⟨rfl, hentries, hall⟩ := ih h
        refine ⟨?_, ?_, ?_⟩
        · simp [listedEntry, hlisted, Except.toOption]
        · simp [indexedEntry, hlisted, Except.toOption, hentries]
        · simpa [hlisted] using hall
      | some run =>
        simp only [hlisted] at h ⊢
        cases hrest : (listEntries statuses entries).1 with
        | error e =>
          rw [hrest] at h
          cases h
        | ok rest =>
          rw [hrest] at h
          obtain ⟨rfl, hentries, hall⟩ := ih hrest
          refine ⟨?_, ?_, ?_⟩
          · rw [← Except.ok.inj h]
            simp [listedEntry, hlisted, Except.toOption]
          · simp [indexedEntry, hlisted, Except.toOption, hentries]
          · simpa [hlisted] using hall

theorem lookup_listEntries (statuses : List TaskRunStatus) (entries : List (String × RunFiles))
    (runId : String) :
    ∃ index : RunFiles → Option TaskRunStatus, (listEntries statuses entries).2.lookup runId =
        (entries.lookup runId).map fun files => { files with index := index files } := by
  induction entries with
  | nil => exact ⟨fun _ => none, rfl⟩
  | cons e entries ih =>
    obtain ⟨id, files⟩ := e
    obtain ⟨index, hindex⟩ := ih
    have hself : ∀ o : Option RunFiles,
        o = o.map fun files => { files with index := files.index } := by
      intro o
      cases o <;> rfl
    rw [listEntries]
    split
    · exact ⟨fun files => files.index, hself _⟩
    · simp only [lookup_cons]
      cases runId == id with
      | true => exact ⟨fun files => files.index, rfl⟩
      | false => exact ⟨index, hindex⟩
    · rename_i run _
      simp only [lookup_cons]
      cases runId == id with
      | true => exact ⟨fun files => some (files.index.getD run.status), rfl⟩
      | false => exact ⟨index, hindex⟩

theorem filesOf_indexed (statuses : List TaskRunStatus) (q : QueueState) (runId : String) :
    ∃ index, (q.indexed statuses).filesOf runId = { q.filesOf runId with index := index } := by
  obtain ⟨index, hindex⟩ := lookup_listEntries statuses q.runs.entries runId
  have hget : (q.indexed statuses).runs.get? runId =
      (q.runs.get? runId).map fun files => { files with index := index files } := hindex
  rw [QueueState.filesOf, QueueState.filesOf, hget]
  cases q.runs.get? runId with
  | none => exact ⟨none, rfl⟩
  | some files => exact ⟨index files, rfl⟩

theorem run_listQueueRuns (statuses : List TaskRunStatus) (limit : ℕ) (q : QueueState) :
    (listQueueRuns statuses limit).run (queueHandler codec) q =
      (q.queueRuns statuses limit, q.indexed statuses) := by
  dsimp only [listQueueRuns, Program.perform, bind, Program.bind, Program.run, queueHandler]
  cases q.queueRuns statuses limit <;> rfl

theorem hasRun_indexed {runId : String} (h : q.HasRun runId) :
    (q.indexed statuses).HasRun runId := by
  obtain ⟨index, hindex⟩ := lookup_listEntries statuses q.runs.entries runId
  have hget : (q.indexed statuses).runs.get? runId =
      (q.runs.get? runId).map fun files => { files with index := index files } := hindex
  rw [QueueState.HasRun, hget, Option.isSome_map]
  exact h

theorem queueRuns_eq_ok {limit : ℕ} (h : q.queueRuns statuses limit = .ok runs) :
    (listEntries statuses q.runs.entries).1 =
        .ok (q.runs.entries.filterMap (listedEntry statuses)) ∧
      runs = (newestFirst (q.runs.entries.filterMap (listedEntry statuses))).take
        (max 1 (min limit 1000)) := by
  rw [QueueState.queueRuns] at h
  cases hlist : (listEntries statuses q.runs.entries).1 with
  | error e =>
    rw [hlist] at h
    cases h
  | ok found =>
    rw [hlist] at h
    have hfound := (listEntries_of_ok hlist).1
    subst hfound
    exact ⟨rfl, (Except.ok.inj h).symm⟩

theorem nodup_filterMap_listedEntry (entries : List (String × RunFiles))
    (h : (entries.map Prod.fst).Nodup) :
    ((entries.filterMap (listedEntry statuses)).map Prod.fst).Nodup := by
  have hsub : ((entries.filterMap (listedEntry statuses)).map Prod.fst).Sublist
      (entries.map Prod.fst) := by
    induction entries with
    | nil => simp
    | cons e entries ih =>
      rw [map_cons, nodup_cons] at h
      rw [filterMap_cons]
      cases hlisted : listedEntry statuses e with
      | none => exact (ih h.2).cons _
      | some entry =>
        have hid : entry.1 = e.1 := by
          rw [listedEntry, Option.map_eq_some_iff] at hlisted
          obtain ⟨run, -, rfl⟩ := hlisted
          rfl
        rw [map_cons, map_cons, hid]
        exact (ih h.2).cons_cons _
  exact h.sublist hsub

theorem nodup_queueRuns {limit : ℕ} (h : q.queueRuns statuses limit = .ok runs) :
    (runs.map Prod.fst).Nodup := by
  obtain ⟨-, rfl⟩ := queueRuns_eq_ok h
  have hperm := perm_insertionSort
    (fun a b : String × TaskRun => b.2.createdAt ≤ a.2.createdAt)
    (q.runs.entries.filterMap (listedEntry statuses))
  have hnodup := (hperm.map Prod.fst).nodup_iff.mpr
    (nodup_filterMap_listedEntry q.runs.entries q.runs.nodup)
  exact hnodup.sublist (List.Sublist.map _ (take_sublist _ _))

theorem listed_eq_some {files : RunFiles} {run : TaskRun}
    (h : (listed statuses files).toOption.join = some run) :
    files.getRunLightweight = .found run := by
  rw [listed] at h
  split at h
  · cases h
  · split at h
    · cases h
    · cases h
    · rename_i hread
      split at h
      · rw [hread]
        exact congrArg _ (Option.some.inj h)
      · cases h

theorem mem_queueRuns {limit : ℕ} {entry : String × TaskRun}
    (h : q.queueRuns statuses limit = .ok runs) (hentry : entry ∈ runs) :
    q.HasRun entry.1 ∧ (q.filesOf entry.1).getRunLightweight = .found entry.2 ∧
      listed statuses (q.filesOf entry.1) = .ok (some entry.2) := by
  obtain ⟨hlist, rfl⟩ := queueRuns_eq_ok h
  have hmem := mem_of_mem_take hentry
  rw [newestFirst, mem_insertionSort, mem_filterMap] at hmem
  obtain ⟨e, he, hlisted⟩ := hmem
  rw [listedEntry, Option.map_eq_some_iff] at hlisted
  obtain ⟨run, hrun, rfl⟩ := hlisted
  have hget : q.runs.get? e.1 = some e.2 := Table.get?_eq_some_iff.mpr he
  have hfiles : q.filesOf e.1 = e.2 := by rw [QueueState.filesOf, hget, Option.getD_some]
  refine ⟨by rw [QueueState.HasRun, hget]; rfl, ?_, ?_⟩
  · rw [hfiles]
    exact listed_eq_some hrun
  · rw [hfiles]
    obtain ⟨found, hfound⟩ := (listEntries_of_ok hlist).2.2 e he
    rw [hfound] at hrun ⊢
    cases found with
    | none => cases hrun
    | some run' => rw [Option.some.inj (show some run' = some run from hrun)]

end Listing

def QueueState.Each (P : String → RunFiles → Prop) (q : QueueState) : Prop :=
  ∀ runId, P runId (q.filesOf runId)

/-- A property of a run that cancelling the run keeps, and that has nothing to do with
the index. -/
structure RunInvariant (codec : Codec) (P : String → RunFiles → Prop) : Prop where
  index : ∀ runId files index, P runId files → P runId { files with index := index }
  cancel : ∀ runId now reason, (cancel now reason).Keeps (runHandler codec runId) (P runId)

section Invariants

variable {codec : Codec} {P Q : String → RunFiles → Prop} {α : Type} {q : QueueState}

theorem onRun_each {runId : String} {p : RunProgram α} (h : q.Each P)
    (hp : P runId (p.run (runHandler codec runId) (q.filesOf runId)).2) :
    ((onRun runId p).run (queueHandler codec) q).2.Each P := by
  obtain ⟨-, hself, hother⟩ := filesOf_run_onRun codec p q
  intro runId'
  by_cases hid : runId' = runId
  · rw [hid, hself]
    exact hp
  · rw [hother runId' hid]
    exact h runId'

theorem onRun_keeps {runId : String} {p : RunProgram α}
    (hp : p.Keeps (runHandler codec runId) (P runId)) :
    (onRun runId p).Keeps (queueHandler codec) (QueueState.Each P) :=
  fun _ h => onRun_each h (hp _ (h runId))

theorem onApprovals_keeps (p : ApprovalProgram α) :
    (onApprovals p).Keeps (queueHandler codec) (QueueState.Each P) := by
  intro q h runId
  rw [run_onApprovals]
  exact h runId

section Cancelling

variable (hP : RunInvariant codec P)
include hP

theorem indexed_each (h : q.Each P) (statuses : List TaskRunStatus) :
    (q.indexed statuses).Each P := by
  intro runId
  obtain ⟨index, hindex⟩ := filesOf_indexed statuses q runId
  rw [hindex]
  exact hP.index runId _ index (h runId)

theorem listQueueRuns_keeps (statuses : List TaskRunStatus) (limit : ℕ) :
    (listQueueRuns statuses limit).Keeps (queueHandler codec) (QueueState.Each P) := by
  intro q h
  rw [run_listQueueRuns]
  exact indexed_each hP h statuses

variable (services : QueueServices) (clock : Clock)

theorem cancelRun_keeps (runId : String) (approvalId : Option String) (reason : String)
    (report : QueueReport) :
    (cancelRun services clock runId approvalId reason report).Keeps (queueHandler codec)
      (QueueState.Each P) := by
  refine (onRun_keeps (hP.cancel runId _ _)).attempt.bind fun result => ?_
  cases result with
  | error e => exact Program.keeps_done _
  | ok result =>
    dsimp only
    split
    · exact Program.keeps_done _
    · exact (onApprovals_keeps _).attempt.bind fun _ => Program.keeps_done _

theorem cancelRuns_keeps (reason : String) (runs : List (String × TaskRun))
    (report : QueueReport) :
    (cancelRuns services clock reason runs report).Keeps (queueHandler codec) (QueueState.Each P) :=
  Program.Keeps.passEach (fun _ _ _ => cancelRun_keeps hP services clock _ _ _ _) report

theorem cancelOverdue_keeps (runs : List (String × TaskRun)) (report : QueueReport) :
    (cancelOverdue services clock runs report).Keeps (queueHandler codec) (QueueState.Each P) := by
  rw [cancelOverdue]
  split
  · exact cancelRuns_keeps hP services clock _ _ _
  · exact Program.keeps_done _

theorem cancelOverflow_keeps (runs : List (String × TaskRun)) (report : QueueReport) :
    (cancelOverflow services clock runs report).Keeps (queueHandler codec) (QueueState.Each P) := by
  rw [cancelOverflow]
  split
  · exact cancelRuns_keeps hP services clock _ _ _
  · exact Program.keeps_done _

omit hP in
theorem snapshotItem_keeps (entry : String × TaskRun) :
    (snapshotItem services.policy clock entry).Keeps (queueHandler codec) (QueueState.Each P) := by
  rw [snapshotItem]
  split
  · exact Program.keeps_done _
  · refine (onApprovals_keeps _).bind fun approval => ?_
    cases approval with
    | none | some => exact Program.keeps_done _

omit hP in
theorem snapshotItems_keeps (entries : List (String × TaskRun)) :
    (snapshotItems services.policy clock entries).Keeps (queueHandler codec)
      (QueueState.Each P) := by
  induction entries with
  | nil => exact Program.keeps_done _
  | cons entry entries ih =>
    rw [snapshotItems]
    split
    · exact ih
    · exact (snapshotItem_keeps services clock entry).bind fun _ =>
        ih.bind fun _ => Program.keeps_done _

theorem buildSnapshot_keeps (warnings : List String) :
    (buildSnapshot services clock warnings).Keeps (queueHandler codec) (QueueState.Each P) :=
  (listQueueRuns_keeps hP _ _).bind fun _ =>
    (snapshotItems_keeps services clock _).bind fun _ => Program.keeps_done _

end Cancelling

variable (services : QueueServices) (clock : Clock)

def artifactWatch : RunProgram (Option TaskRunResult) :=
  terminalizeIfArtifactCreationStalled services.store clock
    services.policy.artifactCreationTerminality artifactTimeout
    "artifact_worker_terminalization_guard"

theorem reconcileArtifactGap_keeps (entry : String × TaskRun) (report : QueueReport)
    (hwatch : entry.2.status ∈ services.policy.activeStates →
      (artifactWatch services clock).Keeps (runHandler codec entry.1) (P entry.1)) :
    (reconcileArtifactGap services clock entry report).Keeps (queueHandler codec)
      (QueueState.Each P) := by
  rw [reconcileArtifactGap]
  by_cases hactive : entry.2.status ∈ services.policy.activeStates
  · rw [if_neg (by simpa using hactive)]
    refine (onRun_keeps (hwatch hactive)).bind fun result => ?_
    cases result with
    | none | some => exact Program.keeps_done _
  · rw [if_pos hactive]
    exact Program.keeps_done _

theorem reconcile_each {runs : List (String × TaskRun)} (hQ : RunInvariant codec Q)
    (hwatch : ∀ entry ∈ runs, (copyAfter codec clock
      (q.indexed services.policy.queueStatuses) entry).2.status ∈ services.policy.activeStates →
        (artifactWatch services clock).Keeps (runHandler codec entry.1) (P entry.1))
    (hPQ : ∀ runId files, P runId files → Q runId files) (henabled : services.policy.enabled = true)
    (hruns : q.queueRuns services.policy.queueStatuses 1000 = .ok runs)
    (h : ((q.indexed services.policy.queueStatuses).repairAll clock codec runs).Each P) :
    ((reconcile services clock).run (queueHandler codec) q).2.Each Q := by
  have hlist := run_listQueueRuns codec services.policy.queueStatuses 1000 q
  have hhas : ∀ entry ∈ runs, (q.indexed services.policy.queueStatuses).HasRun entry.1 :=
    fun entry hentry => hasRun_indexed (mem_queueRuns hruns hentry).1
  obtain ⟨report, hpass⟩ := run_reconcileApprovalStates services clock codec
    (nodup_queueRuns hruns) hhas ⟨[], [], []⟩
  have hpasses : (reconcilePasses services clock).Holds (queueHandler codec) (fun q' => q' = q)
      fun _ q' => q'.Each Q := by
    rintro q' rfl
    rw [reconcilePasses, Program.run_bind_of_ok _ ((congrArg Prod.fst hlist).trans hruns), hlist,
      Program.run_bind_of_ok _ (congrArg Prod.fst hpass), hpass]
    have hgaps : (Program.passEach (reconcileArtifactGap services clock)
        (runs.map (copyAfter codec clock (q'.indexed services.policy.queueStatuses)))
          report).Holds (queueHandler codec) (QueueState.Each P) fun _ q' => q'.Each Q := by
      have hkeeps : (Program.passEach (reconcileArtifactGap services clock)
          (runs.map (copyAfter codec clock (q'.indexed services.policy.queueStatuses)))
            report).Keeps (queueHandler codec) (QueueState.Each P) := by
        refine Program.Keeps.passEach (fun copy hcopy report => ?_) report
        obtain ⟨entry, hentry, rfl⟩ := mem_map.mp hcopy
        exact reconcileArtifactGap_keeps services clock _ report (hwatch entry hentry)
      exact fun q' hq' runId => hPQ runId _ (hkeeps q' hq' runId)
    refine Program.Holds.bind (Q := fun _ q' => q'.Each Q) hgaps (fun report => ?_)
      (fun _ _ h => h) _ h
    refine (listQueueRuns_keeps hQ _ _).bind fun runs => ?_
    refine (cancelOverdue_keeps hQ services clock runs report).bind fun report => ?_
    exact (listQueueRuns_keeps hQ _ _).bind fun runs =>
      cancelOverflow_keeps hQ services clock runs report
  rw [reconcile, if_pos henabled]
  refine Program.Holds.bind (Q := fun _ q' => q'.Each Q) hpasses (fun report => ?_)
    (fun _ _ h => h) q rfl
  exact (buildSnapshot_keeps hQ services clock _).bind fun _ => Program.keeps_done _

theorem reconcile_each_of_not_listed (hQ : RunInvariant codec Q) (h : q.Each Q)
    (hnot : services.policy.enabled = false ∨
      ∃ e, q.queueRuns services.policy.queueStatuses 1000 = .error e) :
    ((reconcile services clock).run (queueHandler codec) q).2.Each Q := by
  rw [reconcile]
  by_cases henabled : services.policy.enabled = true
  · obtain ⟨e, he⟩ := hnot.resolve_left (by simp [henabled])
    have hlist := run_listQueueRuns codec services.policy.queueStatuses 1000 q
    have hfails : (reconcilePasses services clock).run (queueHandler codec) q =
        (.error e, q.indexed services.policy.queueStatuses) := by
      rw [reconcilePasses, Program.run_bind_of_error _ ((congrArg Prod.fst hlist).trans he), hlist]
    rw [if_pos henabled, Program.run_bind_of_error _ (congrArg Prod.fst hfails), hfails]
    exact indexed_each hQ h _
  · rw [if_neg henabled]
    exact ((buildSnapshot_keeps hQ services clock _).bind fun _ => Program.keeps_done _) q h

end Invariants

end AIpinho.Queue
