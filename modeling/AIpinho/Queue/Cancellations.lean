import AIpinho.Approvals.Batch
import AIpinho.Queue.Outcomes

/-!
# Passes that cancel runs

A run that waits is cancelled together with its approval, if that is pending. The runs that
such a pass leaves are listed as they were.
-/

namespace AIpinho.Queue

open List Lib AIpinho.Runtime AIpinho.Approvals ApprovalTable Program QueueState

variable (services : QueueServices)

variable (clock : Clock)

def cancelledTable (approvalId : String) (approvals : ApprovalTable) : ApprovalTable :=
  ((cancelLinkedApproval services clock approvalId).run approvalHandler approvals).2

def IsPending (approvals : ApprovalTable) (approvalId : String) : Prop :=
  ∃ approval, approvals.current clock approvalId = .ok (some approval) ∧
    approval.status = .pending

section CancelApproval

variable (services : QueueServices) {clock : Clock} {approvals : ApprovalTable}
  {approvalId approvalId' : String}

theorem open_of_current {approval : ApprovalRequest}
    (h : approvals.current clock approvalId = .ok (some approval))
    (hpending : approval.status = .pending) : approvals.Open clock approvalId approval := by
  rw [ApprovalTable.current] at h
  cases hread : approvals.read approvalId with
  | missing | invalid => simp [hread] at h
  | found stored =>
    rw [hread] at h
    obtain rfl := Option.some.inj (Except.ok.inj h)
    rw [ApprovalRequest.seen] at hpending ⊢
    split at hpending
    · cases hpending
    · rename_i hlapsed
      rw [if_neg hlapsed]
      refine ⟨hread, hpending, ?_⟩
      simpa [ApprovalRequest.isLapsed, hpending] using hlapsed

theorem touch_of_open {approval : ApprovalRequest} (h : approvals.Open clock approvalId approval) :
    approvals.touch clock approvalId = approvals := by
  refine touch_of_fresh fun approval' hread => ?_
  rw [h.1] at hread
  obtain rfl := ApprovalRead.found.inj hread
  simp [ApprovalRequest.isLapsed, h.2.2]

theorem cancelledTable_of_pending (h : IsPending clock approvals approvalId) :
    ∃ approval : ApprovalRequest, approval.status = .cancelled ∧
      Decides approvalId approval approvals
        (cancelledTable services clock approvalId approvals) := by
  obtain ⟨approval, hcurrent, hpending⟩ := h
  have hopen := open_of_current hcurrent hpending
  have hread := run_getApproval clock approvalId approvals
  rw [hcurrent, touch_of_open hopen] at hread
  obtain ⟨after, hdecide, hdecides⟩ :=
    run_decideApproval_of_open services.approvals .cancelled hopen
  have hafter : cancelledTable services clock approvalId approvals = after := by
    rw [cancelledTable, cancelLinkedApproval, run_bind_of_ok _ (congrArg Prod.fst hread), hread]
    dsimp only
    rw [if_pos hpending, run_bind_of_ok _ (congrArg Prod.fst hdecide), hdecide]
    rfl
  rw [hafter]
  exact ⟨_, rfl, hdecides⟩

theorem cancelledTable_of_not_pending (h : ¬IsPending clock approvals approvalId) :
    cancelledTable services clock approvalId approvals = approvals.touch clock approvalId := by
  have hread := run_getApproval clock approvalId approvals
  rw [cancelledTable, cancelLinkedApproval]
  cases hcurrent : approvals.current clock approvalId with
  | error e =>
    rw [hcurrent] at hread
    rw [run_bind_of_error _ (congrArg Prod.fst hread), hread]
  | ok found =>
    rw [hcurrent] at hread
    rw [run_bind_of_ok _ (congrArg Prod.fst hread), hread]
    cases found with
    | none => rfl
    | some approval =>
      dsimp only
      rw [if_neg fun hpending => h ⟨approval, hcurrent, hpending⟩]
      rfl

theorem current_cancelledTable (clock : Clock) (approvals : ApprovalTable)
    (approvalId approvalId' : String) :
    (IsPending clock approvals approvalId' ∧ approvalId' = approvalId ∧
        ∃ approval : ApprovalRequest, approval.status = .cancelled ∧
          (cancelledTable services clock approvalId approvals).current clock approvalId' =
            .ok (some approval)) ∨
      ¬(IsPending clock approvals approvalId' ∧ approvalId' = approvalId) ∧
        (cancelledTable services clock approvalId approvals).current clock approvalId' =
          approvals.current clock approvalId' := by
  by_cases hpending : IsPending clock approvals approvalId
  · obtain ⟨approval, hstatus, hdecides⟩ := cancelledTable_of_pending services hpending
    by_cases hid : approvalId' = approvalId
    · subst hid
      refine .inl ⟨hpending, rfl, approval, hstatus, ?_⟩
      have hlapsed : approval.isLapsed clock = false := by
        simp [ApprovalRequest.isLapsed, hstatus]
      rw [ApprovalTable.current, hdecides.stored]
      simp [ApprovalRequest.seen, hlapsed]
    · refine .inr ⟨fun h => hid h.2, ?_⟩
      rw [ApprovalTable.current, ApprovalTable.current,
        read_of_get?_eq (hdecides.frame approvalId' hid)]
  · refine .inr ⟨?_, ?_⟩
    · rintro ⟨hpending', rfl⟩
      exact hpending hpending'
    · rw [cancelledTable_of_not_pending services hpending, current_touch]

theorem fresh_cancelledTable (h : approvals.Fresh clock approvalId') (approvalId : String) :
    (cancelledTable services clock approvalId approvals).Fresh clock approvalId' := by
  by_cases hpending : IsPending clock approvals approvalId
  · obtain ⟨approval, hstatus, hdecides⟩ := cancelledTable_of_pending services hpending
    intro approval' hread
    by_cases hid : approvalId' = approvalId
    · subst hid
      rw [hdecides.stored] at hread
      obtain rfl := ApprovalRead.found.inj hread
      simp [ApprovalRequest.isLapsed, hstatus]
    · rw [read_of_get?_eq (hdecides.frame approvalId' hid)] at hread
      exact h approval' hread
  · rw [cancelledTable_of_not_pending services hpending]
    exact h.touch approvalId

def cancelledTables (services : QueueServices) (clock : Clock) (approvalIds : List String)
    (approvals : ApprovalTable) : ApprovalTable :=
  approvalIds.foldl (fun approvals approvalId => cancelledTable services clock approvalId approvals)
    approvals

theorem isPending_congr {approvals' : ApprovalTable}
    (h : approvals'.current clock approvalId = approvals.current clock approvalId) :
    IsPending clock approvals' approvalId ↔ IsPending clock approvals approvalId := by
  rw [IsPending, IsPending, h]

theorem current_cancelledTables (clock : Clock) (approvals : ApprovalTable)
    (approvalIds : List String) (approvalId : String) :
    (IsPending clock approvals approvalId ∧ approvalId ∈ approvalIds →
        ∃ approval : ApprovalRequest, approval.status = .cancelled ∧
          (cancelledTables services clock approvalIds approvals).current clock approvalId =
            .ok (some approval)) ∧
      (¬(IsPending clock approvals approvalId ∧ approvalId ∈ approvalIds) →
        (cancelledTables services clock approvalIds approvals).current clock approvalId =
          approvals.current clock approvalId) := by
  induction approvalIds generalizing approvals with
  | nil => exact ⟨by simp, fun _ => rfl⟩
  | cons head approvalIds ih =>
    obtain ⟨hcancelled, hsame⟩ := ih (cancelledTable services clock head approvals)
    change (_ → ∃ approval : ApprovalRequest, _ ∧ (cancelledTables services clock approvalIds
      (cancelledTable services clock head approvals)).current clock approvalId = _) ∧
      (_ → (cancelledTables services clock approvalIds
        (cancelledTable services clock head approvals)).current clock approvalId = _)
    rcases current_cancelledTable services clock approvals head approvalId with
      ⟨hpending, rfl, approval, hstatus, hcurrent⟩ | ⟨hnot, hcurrent⟩
    · have hclosed : ¬IsPending clock (cancelledTable services clock approvalId approvals)
          approvalId := by
        rintro ⟨approval', hcurrent', hpending'⟩
        rw [hcurrent] at hcurrent'
        obtain rfl := Option.some.inj (Except.ok.inj hcurrent')
        rw [hstatus] at hpending'
        cases hpending'
      refine ⟨fun _ => ⟨approval, hstatus, ?_⟩, fun h => absurd ⟨hpending, by simp⟩ h⟩
      rw [hsame fun h => hclosed h.1, hcurrent]
    · rw [isPending_congr hcurrent] at hcancelled hsame
      refine ⟨fun ⟨hpending, hmem⟩ => hcancelled ⟨hpending, ?_⟩, fun h => ?_⟩
      · rcases mem_cons.mp hmem with heq | hmem
        · exact absurd ⟨hpending, heq⟩ hnot
        · exact hmem
      · rw [hsame fun ⟨hpending, hmem⟩ => h ⟨hpending, mem_cons_of_mem head hmem⟩, hcurrent]

theorem fresh_cancelledTables (h : approvals.Fresh clock approvalId) (approvalIds : List String) :
    (cancelledTables services clock approvalIds approvals).Fresh clock approvalId := by
  induction approvalIds generalizing approvals with
  | nil => exact h
  | cons head approvalIds ih => exact ih (fresh_cancelledTable services h head)

end CancelApproval

def linksOf (policy : TaskQueuePolicy) (entries : List (String × TaskRun)) : List String :=
  if policy.cancelLinkedPendingApproval then
    (entries.map fun entry => entry.2.approvalId.getD "").filter (· ≠ "")
  else []

def cancelledFiles (codec : Codec) (now reason : String) (entry : String × TaskRun)
    (files : RunFiles) : RunFiles :=
  ((cancel now reason).run (runHandler codec entry.1) files).2

def cancelledApprovals (entry : String × TaskRun) (approvals : ApprovalTable) : ApprovalTable :=
  cancelledTables services clock (linksOf services.policy [entry]) approvals

def QueueState.cancelled (codec : Codec) (reason : String) (entries : List (String × TaskRun))
    (q : QueueState) : QueueState :=
  q.renewAll (cancelledFiles codec clock.now reason) (cancelledApprovals services clock) entries

section Cancelled

variable (services : QueueServices) (clock : Clock) (codec : Codec) {q : QueueState}
  {entries : List (String × TaskRun)}

theorem linksOf_append (policy : TaskQueuePolicy) (entries entries' : List (String × TaskRun)) :
    linksOf policy (entries ++ entries') = linksOf policy entries ++ linksOf policy entries' := by
  simp only [linksOf]
  split
  · rw [← filter_append, ← map_append]
  · rfl

theorem approvals_cancelled (reason : String) (entries : List (String × TaskRun))
    (q : QueueState) :
    (q.cancelled services clock codec reason entries).approvals =
      cancelledTables services clock (linksOf services.policy entries) q.approvals := by
  rw [QueueState.cancelled, approvals_renewAll]
  generalize q.approvals = approvals
  induction entries generalizing approvals with
  | nil =>
    rw [linksOf]
    split <;> rfl
  | cons entry entries ih =>
    have hlinks : linksOf services.policy (entry :: entries) =
        linksOf services.policy [entry] ++ linksOf services.policy entries :=
      linksOf_append services.policy [entry] entries
    rw [foldl_cons, ih, hlinks, cancelledTables, cancelledTables, foldl_append]
    rfl

theorem run_cancelRun {entry : String × TaskRun} {run : TaskRun} (hhas : q.HasRun entry.1)
    (hread : (q.filesOf entry.1).getRunLightweight = .found run)
    (hopen : run.status.isTerminal = false) (reason : String) (report : QueueReport) :
    ∃ report', (cancelRun services clock entry.1 entry.2.approvalId reason report).run
        (queueHandler codec) q =
      (.ok report', q.renew (cancelledFiles codec clock.now reason)
        (cancelledApprovals services clock) entry) := by
  have hok : ∃ result, ((cancel clock.now reason).run (runHandler codec entry.1)
      (q.filesOf entry.1)).1 = .ok result := (run_cancel hread hopen clock.now reason).1
  obtain ⟨result, hresult⟩ := hok
  rw [cancelRun, run_attempt_bind, run_onRun codec hhas, hresult]
  dsimp only
  by_cases hlinked : entry.2.approvalId.getD "" = "" ∨
      services.policy.cancelLinkedPendingApproval = false
  · have hnone : cancelledApprovals services clock entry q.approvals = q.approvals := by
      rw [cancelledApprovals, linksOf]
      rcases hlinked with hempty | hoff
      · rw [map_singleton, hempty]
        split <;> rfl
      · rw [hoff]
        rfl
    rw [if_pos hlinked, QueueState.renew, hnone, setFiles_of_hasRun hhas, setFiles_of_hasRun hhas]
    exact ⟨_, rfl⟩
  · have hone : cancelledApprovals services clock entry q.approvals =
        cancelledTable services clock (entry.2.approvalId.getD "") q.approvals := by
      rw [not_or, Bool.not_eq_false] at hlinked
      rw [cancelledApprovals, linksOf, if_pos hlinked.2]
      simp [hlinked.1, cancelledTables]
    rw [if_neg hlinked, run_attempt_bind, run_onApprovals, QueueState.renew, hone,
      setFiles_of_hasRun hhas, setFiles_of_hasRun hhas]
    exact ⟨_, rfl⟩

theorem run_cancelRuns (hnodup : (entries.map Prod.fst).Nodup)
    (hhas : ∀ entry ∈ entries, q.HasRun entry.1)
    (hread : ∀ entry ∈ entries, ∃ run, (q.filesOf entry.1).getRunLightweight = .found run ∧
      run.status.isTerminal = false) (reason : String) (report : QueueReport) :
    ∃ report', (cancelRuns services clock reason entries report).run (queueHandler codec) q =
      (.ok report', q.cancelled services clock codec reason entries) := by
  refine run_passEach hnodup hhas (fun entry hentry q' hhas' hfiles report => ?_) report
  obtain ⟨run, hrun, hopen⟩ := hread entry hentry
  rw [← hfiles] at hrun
  exact run_cancelRun services clock codec hhas' hrun hopen reason report

end Cancelled

/-- The statuses of the queue are those of `task_queue_policy.yaml`. -/
structure TaskQueuePolicy.HasStates (policy : TaskQueuePolicy) : Prop where
  active : policy.activeStates = [.running]
  pending : policy.pendingStates = [.waitingInput, .queued, .created]

section Policy

variable {policy : TaskQueuePolicy} {status : TaskRunStatus}

theorem TaskQueuePolicy.HasStates.mem_queueStatuses (h : policy.HasStates) :
    status ∈ policy.queueStatuses ↔ status ∈ policy.pendingStates ∨ status = .running := by
  rw [TaskQueuePolicy.queueStatuses, mem_append, h.active, mem_singleton]

theorem TaskQueuePolicy.HasStates.cancelsAtOnce (h : policy.HasStates)
    (hstatus : status ∈ policy.pendingStates) : status.cancelsAtOnce = true := by
  rw [h.pending] at hstatus
  simp only [mem_cons, not_mem_nil, or_false] at hstatus
  rcases hstatus with rfl | rfl | rfl <;> rfl

theorem TaskQueuePolicy.HasStates.not_isTerminal (h : policy.HasStates)
    (hstatus : status ∈ policy.pendingStates) : status.isTerminal = false := by
  rw [h.pending] at hstatus
  simp only [mem_cons, not_mem_nil, or_false] at hstatus
  rcases hstatus with rfl | rfl | rfl <;> rfl

theorem TaskQueuePolicy.HasStates.notMem_of_isTerminal (h : policy.HasStates)
    (hstatus : status.isTerminal = true) : status ∉ policy.queueStatuses := by
  rw [h.mem_queueStatuses, not_or]
  refine ⟨fun hpending => ?_, ?_⟩
  · rw [h.not_isTerminal hpending] at hstatus
    cases hstatus
  · rintro rfl
    cases hstatus

end Policy

section CancelStage

variable (services : QueueServices) (clock : Clock) (codec : Codec)
  {files : String × TaskRun → RunFiles} {Left : String × TaskRun → Prop} {q q' : QueueState}
  {entries : List (String × TaskRun)}

/-- A cancellation takes the cancelled runs out of the listing. -/
theorem LeavesOver.cancelled (hstates : services.policy.HasStates)
    (h : LeavesOver services.policy.queueStatuses files Left q q')
    (hnodup : (entries.map Prod.fst).Nodup)
    (hentries : ∀ entry ∈ entries, entry ∈ q'.allListed services.policy.queueStatuses ∧
      entry.2.status ∈ services.policy.pendingStates) (reason : String) :
    LeavesOver services.policy.queueStatuses files
      (fun entry => Left entry ∧ entry.1 ∉ entries.map Prod.fst) q
      (q'.cancelled services clock codec reason entries) := by
  have hhas : ∀ entry ∈ entries, q'.HasRun entry.1 := fun entry hentry =>
    hasRun_iff_mem_names.mpr (mem_allListed.mp (hentries entry hentry).1).1
  have hnames : (q'.cancelled services clock codec reason entries).names = q'.names :=
    names_renewAll hhas
  have hcancelled : ∀ runId ∈ entries.map Prod.fst, listed services.policy.queueStatuses
        ((q'.cancelled services clock codec reason entries).filesOf runId) = .ok none := by
    intro runId hrunId
    obtain ⟨entry, hentry, rfl⟩ := mem_map.mp hrunId
    obtain ⟨hlisted, hpending⟩ := hentries entry hentry
    have hread := (listedIn_eq_some_iff.mp (mem_allListed.mp hlisted).2).1
    have hfiles : (q'.cancelled services clock codec reason entries).filesOf entry.1 =
        cancelledFiles codec clock.now reason entry (q'.filesOf entry.1) :=
      filesOf_renewAll hnodup hentry q'
    have hholds : HoldsAs codec entry.2 .cancelled
        (cancelledFiles codec clock.now reason entry (q'.filesOf entry.1)) := by
      have hleaves : cancelLeaves entry.2.status = .cancelled := by
        rw [cancelLeaves, if_pos (hstates.cancelsAtOnce hpending)]
      rw [← hleaves]
      exact (run_cancel hread (hstates.not_isTerminal hpending) clock.now reason).2
    rw [hfiles]
    exact hholds.listed_of_notMem (hstates.notMem_of_isTerminal rfl)
  have hother : ∀ runId, runId ∉ entries.map Prod.fst →
      (q'.cancelled services clock codec reason entries).filesOf runId = q'.filesOf runId :=
    fun runId hrunId => filesOf_renewAll_of_notMem hrunId q'
  refine ⟨hnames.trans h.names, ?_, ?_, ?_, ?_⟩
  · refine h.ready.of_renewed hnames fun runId => ?_
    by_cases hmem : runId ∈ entries.map Prod.fst
    · exact .inr (.inl (hcancelled runId hmem))
    · exact .inl (hother runId hmem)
  · rintro entry hentry ⟨hleft, hmem⟩
    rw [hother entry.1 hmem]
    exact h.filesOf entry hentry hleft
  · intro entry hentry hleft
    by_cases hmem : entry.1 ∈ entries.map Prod.fst
    · rw [listedIn, hcancelled entry.1 hmem]
      rfl
    · rw [hother entry.1 hmem]
      exact h.gone entry hentry fun hleft' => hleft ⟨hleft', hmem⟩
  · intro runId hrunId
    by_cases hmem : runId ∈ entries.map Prod.fst
    · rw [listedIn, hcancelled runId hmem]
      rfl
    · rw [hother runId hmem]
      exact h.unlisted runId hrunId

end CancelStage

end AIpinho.Queue
