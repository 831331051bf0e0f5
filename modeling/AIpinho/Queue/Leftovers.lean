import AIpinho.Queue.Cancellations

/-!
# What a reconciliation leaves

Which runs a reconciliation leaves in the queue, in which status and with which approvals,
said of the queue before it.
-/

namespace AIpinho.Queue

open List Lib AIpinho.Runtime AIpinho.Approvals Program

section Condition

variable (services : QueueServices) (clock : Clock) (q : QueueState)

variable (entry : String × TaskRun)

def leftStatus : TaskRunStatus :=
  (repairOf clock q.approvals entry.2).leaves entry.2

def waits : Bool :=
  services.policy.pendingStates.contains (leftStatus clock q entry)

def isTooOld : Bool :=
  services.policy.autoCancelExpired &&
    decide (services.policy.maxWaitSeconds < ageSeconds clock entry.2.createdAt)

variable (runs : List (String × TaskRun))

def overdueRuns : List (String × TaskRun) :=
  runs.filter fun entry => waits services clock q entry && isTooOld services clock entry

def waitingRuns : List (String × TaskRun) :=
  runs.filter fun entry => waits services clock q entry && !isTooOld services clock entry

def excessRuns : List (String × TaskRun) :=
  if services.policy.overflowStrategy = "cancel_oldest_pending" then
    (oldestFirst (waitingRuns services clock q runs)).take
      ((waitingRuns services clock q runs).length - services.policy.maxPendingTasks)
  else []

/-- The run is still in the queue after its approval was reconciled and the watchdog of
silent artifacts has looked at it. -/
def StaysOn : Prop :=
  ¬Stalls services clock q entry ∧ (repairOf clock q.approvals entry.2 = .skip ∨
    leftStatus clock q entry ∈ services.policy.queueStatuses)

def Remains (entry : String × TaskRun) : Prop :=
  StaysOn services clock q entry ∧ entry ∉ overdueRuns services clock q runs ∧
    entry ∉ excessRuns services clock q runs

/-- The run is cancelled or resumed when its approval is reconciled; or the approval it
waits for is cancelled together with another run. -/
def Repeats (entry : String × TaskRun) : Prop :=
  (repairOf clock q.approvals entry.2).IsRepeated ∨
    ∃ approvalId, linkedApproval entry.2 = some approvalId ∧
      IsPending clock q.approvals approvalId ∧ approvalId ∈ linksOf services.policy
        (overdueRuns services clock q runs ++ excessRuns services clock q runs)

/-- No run that remains in the queue is cancelled or resumed once more. -/
def Settles : Prop :=
  services.policy.enabled = true → ∀ runs,
    q.queueRuns services.policy.queueStatuses 1000 = .ok runs →
      ∀ entry ∈ runs, Remains services clock q runs entry → ¬Repeats services clock q runs entry

end Condition

variable (services : QueueServices)

/-- The store has written the runs of the queue: their approvals and times are saved as they
are, and so are the logs of those that are running, with times that can be read. -/
structure QueueState.WellKept (statuses : List TaskRunStatus) (codec : Codec) (clock : Clock)
    (q : QueueState) : Prop where
  tidy : ∀ entry ∈ q.allListed statuses, TaskRun.Tidy entry.2
  settled : ∀ entry ∈ q.allListed statuses, entry.2.status = .running →
    Settled codec entry.1 (q.filesOf entry.1).events
  times : ∀ entry ∈ q.allListed statuses, entry.2.status = .running →
    ∀ e ∈ (q.filesOf entry.1).events, (clock.elapsed e.timestamp).isSome = true

section FirstPasses

variable {services : QueueServices} {clock : Clock} {codec : Codec} {q : QueueState}
  {entry : String × TaskRun}

theorem Repair.running_of_leaves {run : TaskRun} {repair : Repair}
    (h : repair.leaves run = .running) : run.status = .running := by
  cases repair with
  | skip => exact h
  | cancel reason =>
    rw [Repair.leaves, cancelLeaves] at h
    split at h
    · cases h
    · exact h
  | await approvalId => cases h
  | resume approvalId approval =>
    rw [Repair.leaves] at h
    split at h
    · cases h
    · exact h
  | deny approvalId => cases h

theorem not_isTerminal_of_repair {approvals : ApprovalTable} {run : TaskRun}
    (h : repairOf clock approvals run ≠ .skip) : run.status.isTerminal = false := by
  by_contra hterminal
  rw [Bool.not_eq_false] at hterminal
  refine h ?_
  rw [repairOf, linkedApproval, if_pos (.inl hterminal)]

theorem Repair.status_eq_running_iff (run : TaskRun) (repair : Repair) :
    repair.status run = .running ↔ repair.leaves run = .running := by
  cases repair with
  | skip => rfl
  | cancel reason =>
    rw [Repair.status, Repair.leaves, cancelLeaves]
    split
    · rename_i honce
      constructor
      · intro hstatus
        rw [hstatus] at honce
        cases honce
      · intro hstatus
        cases hstatus
    · rfl
  | await approvalId => simp [Repair.status, Repair.leaves]
  | resume approvalId approval => rfl
  | deny approvalId => simp [Repair.status, Repair.leaves]

variable {statuses : List TaskRunStatus}

theorem listedIn_indexed_of_mem (hlistable : q.Listable statuses)
    (hentry : entry ∈ q.allListed statuses) :
    listedIn statuses ((q.indexed statuses).filesOf entry.1) = some entry.2 := by
  rw [listedIn_indexed hlistable]
  exact (mem_allListed.mp hentry).2

theorem listed_filesAfter (hkept : q.WellKept statuses codec clock)
    (hlistable : q.Listable statuses) (hentry : entry ∈ q.allListed statuses) :
    (repairOf clock q.approvals entry.2 = .skip ∨ leftStatus clock q entry ∈ statuses →
        ∃ run, listed statuses (filesAfter codec clock (q.indexed statuses) entry) =
            .ok (some run) ∧ TaskRun.Alike entry.2 run ∧ run.status = leftStatus clock q entry) ∧
      (¬(repairOf clock q.approvals entry.2 = .skip ∨ leftStatus clock q entry ∈ statuses) →
        listed statuses (filesAfter codec clock (q.indexed statuses) entry) = .ok none) := by
  have hlisted := listedIn_indexed_of_mem hlistable hentry
  have hread := (listedIn_eq_some_iff.mp hlisted).1
  have htidy : TaskRun.Tidy entry.2 := hkept.tidy entry hentry
  have happrovals : (q.indexed statuses).approvals = q.approvals := rfl
  by_cases hskip : repairOf clock q.approvals entry.2 = .skip
  · have hfiles : filesAfter codec clock (q.indexed statuses) entry =
        (q.indexed statuses).filesOf entry.1 := by
      rw [filesAfter, happrovals, hskip]
      rfl
    rw [hfiles, leftStatus, hskip]
    refine ⟨fun _ => ⟨entry.2, listedIn_eq_some hlisted, ⟨rfl, rfl, rfl⟩, rfl⟩, fun h => ?_⟩
    exact absurd (.inl rfl) h
  · have hholds : HoldsAs codec entry.2 (leftStatus clock q entry)
        (filesAfter codec clock (q.indexed statuses) entry) :=
      Repair.holdsAs hread (not_isTerminal_of_repair hskip) hskip
    refine ⟨fun h => ?_, fun h => hholds.listed_of_notMem fun hmem => h (.inr hmem)⟩
    exact hholds.listed_of_mem (isValid_of_getRunLightweight hread) htidy
      (h.resolve_left hskip)

theorem index_filesAfter (hlistable : q.Listable statuses)
    (hentry : entry ∈ q.allListed statuses) :
    (filesAfter codec clock (q.indexed statuses) entry).index.isSome = true := by
  have hlisted := listedIn_indexed_of_mem hlistable hentry
  have hread := (listedIn_eq_some_iff.mp hlisted).1
  have happrovals : (q.indexed statuses).approvals = q.approvals := rfl
  by_cases hskip : repairOf clock q.approvals entry.2 = .skip
  · have hfiles : filesAfter codec clock (q.indexed statuses) entry =
        (q.indexed statuses).filesOf entry.1 := by
      rw [filesAfter, happrovals, hskip]
      rfl
    rw [hfiles]
    exact (ready_indexed hlistable).indexed entry.1 entry.2 hlisted
  · have hholds : HoldsAs codec entry.2 (leftStatus clock q entry)
        (filesAfter codec clock (q.indexed statuses) entry) :=
      Repair.holdsAs hread (not_isTerminal_of_repair hskip) hskip
    obtain ⟨-, -, hindex, -, -⟩ := hholds
    rw [hindex]
    rfl

theorem mem_of_stalledArtifact {codec : Codec} {maxSilence : ℤ} {events : List TaskRunEvent}
    {e : TaskRunEvent} (h : stalledArtifact codec clock maxSilence events = some e) :
    e ∈ events := by
  rw [stalledArtifact, Option.filter_eq_some_iff, artifactCreationInProgress] at h
  exact (mem_insertionSort _).mp (mem_of_find?_eq_some h.1)

theorem goesOn_filesAfter (hkept : q.WellKept statuses codec clock)
    (hlistable : q.Listable statuses) (hentry : entry ∈ q.allListed statuses)
    (hrunning : leftStatus clock q entry = .running) :
    GoesOn (q.filesOf entry.1) (filesAfter codec clock (q.indexed statuses) entry) := by
  have hread := (listedIn_eq_some_iff.mp (listedIn_indexed_of_mem hlistable hentry)).1
  obtain ⟨index, hindex⟩ := filesOf_indexed statuses q entry.1
  have hlog : Settled codec entry.1 ((q.indexed statuses).filesOf entry.1).events := by
    rw [hindex]
    exact hkept.settled entry hentry (Repair.running_of_leaves hrunning)
  have hgoes : GoesOn ((q.indexed statuses).filesOf entry.1)
      (filesAfter codec clock (q.indexed statuses) entry) := Repair.goesOn hlog hread hrunning
  rw [hindex] at hgoes
  exact ⟨hgoes.result, hgoes.continues, hgoes.hasEnd⟩

end FirstPasses

def watchedFiles (clock : Clock) (codec : Codec) (entry : String × TaskRun) (files : RunFiles) :
    RunFiles :=
  if entry.2.status ∈ services.policy.activeStates then
    ((artifactWatch services clock).run (runHandler codec entry.1) files).2
  else files

def QueueState.watched (clock : Clock) (codec : Codec) (entries : List (String × TaskRun))
    (q : QueueState) : QueueState :=
  q.renewAll (watchedFiles services clock codec) (fun _ approvals => approvals) entries

/-- The state after the first two passes went over some of the runs. -/
def QueueState.reviewed (clock : Clock) (codec : Codec) (window : List (String × TaskRun))
    (q : QueueState) : QueueState :=
  ((q.indexed services.policy.queueStatuses).repairAll clock codec window).watched services clock
    codec (window.map (copyAfter codec clock (q.indexed services.policy.queueStatuses)))

section Reviewed

variable {services : QueueServices} {clock : Clock} {codec : Codec} {q : QueueState}
  {entry : String × TaskRun} {window : List (String × TaskRun)}

theorem map_fst_copyAfter (codec : Codec) (clock : Clock) (q : QueueState)
    (window : List (String × TaskRun)) :
    (window.map (copyAfter codec clock q)).map Prod.fst = window.map Prod.fst := by
  rw [map_map]
  rfl

theorem filesOf_reviewed_of_notMem {runId : String} (h : runId ∉ window.map Prod.fst) :
    (q.reviewed services clock codec window).filesOf runId =
      (q.indexed services.policy.queueStatuses).filesOf runId := by
  have hcopies : runId ∉ (window.map (copyAfter codec clock
      (q.indexed services.policy.queueStatuses))).map Prod.fst := by
    rwa [map_fst_copyAfter]
  have hwatched : (q.reviewed services clock codec window).filesOf runId =
      ((q.indexed services.policy.queueStatuses).repairAll clock codec window).filesOf runId :=
    filesOf_renewAll_of_notMem hcopies _
  rw [hwatched, filesOf_repairAll_of_notMem clock codec h]

variable (hwindow : window.Sublist (q.allListed services.policy.queueStatuses))
include hwindow

theorem nodup_of_window : (window.map Prod.fst).Nodup :=
  (nodup_allListed services.policy.queueStatuses q).sublist (hwindow.map Prod.fst)

theorem hasRun_of_window (hentry : entry ∈ window) :
    (q.indexed services.policy.queueStatuses).HasRun entry.1 := by
  rw [hasRun_iff_mem_names, names_indexed]
  exact (mem_allListed.mp (hwindow.subset hentry)).1

theorem hasRun_of_copies (codec : Codec) (clock : Clock) :
    ∀ entry ∈ window.map (copyAfter codec clock (q.indexed services.policy.queueStatuses)),
      ((q.indexed services.policy.queueStatuses).repairAll clock codec window).HasRun entry.1 := by
  refine forall_mem_map.mpr fun entry hentry => ?_
  have hhas := hasRun_of_window hwindow hentry
  exact hasRun_repairAll clock codec hhas

theorem names_reviewed : (q.reviewed services clock codec window).names = q.names := by
  have hrepaired : ((q.indexed services.policy.queueStatuses).repairAll clock codec
      window).names = q.names :=
    (names_repairAll clock codec fun _ hentry => hasRun_of_window hwindow hentry).trans
      (names_indexed services.policy.queueStatuses q)
  exact (names_renewAll (hasRun_of_copies hwindow codec clock)).trans hrepaired

theorem filesOf_reviewed (hentry : entry ∈ window) :
    (q.reviewed services clock codec window).filesOf entry.1 = watchedFiles services clock codec
        (copyAfter codec clock (q.indexed services.policy.queueStatuses) entry)
        (filesAfter codec clock (q.indexed services.policy.queueStatuses) entry) := by
  have hnodup := nodup_of_window hwindow
  have hcopies : ((window.map (copyAfter codec clock
      (q.indexed services.policy.queueStatuses))).map Prod.fst).Nodup := by
    rwa [map_fst_copyAfter]
  rw [← filesOf_repairAll clock codec hnodup hentry]
  exact filesOf_renewAll hcopies (mem_map.mpr ⟨entry, hentry, rfl⟩)
    ((q.indexed services.policy.queueStatuses).repairAll clock codec window)

end Reviewed

section Watched

variable {services : QueueServices} {clock : Clock} {codec : Codec} {q : QueueState}
  {entry : String × TaskRun}

theorem run_watch {entries : List (String × TaskRun)} (hnodup : (entries.map Prod.fst).Nodup)
    (hhas : ∀ entry ∈ entries, q.HasRun entry.1)
    (hok : ∀ entry ∈ entries, entry.2.status ∈ services.policy.activeStates → ∃ result,
      ((artifactWatch services clock).run (runHandler codec entry.1) (q.filesOf entry.1)).1 =
        .ok result) (report : QueueReport) :
    ∃ report', (Program.passEach (reconcileArtifactGap services clock) entries report).run
      (queueHandler codec) q = (.ok report', q.watched services clock codec entries) := by
  refine run_passEach hnodup hhas (fun entry hentry q' hhas' hfiles report => ?_) report
  have hrenew : q'.renew (watchedFiles services clock codec) (fun _ approvals => approvals) entry =
      q'.setFiles entry.1 (watchedFiles services clock codec entry (q'.filesOf entry.1)) := by
    rw [QueueState.renew, QueueState.setFiles_of_hasRun hhas']
  rw [hrenew, watchedFiles, reconcileArtifactGap]
  by_cases hactive : entry.2.status ∈ services.policy.activeStates
  · obtain ⟨result, hresult⟩ := hok entry hentry hactive
    rw [← hfiles] at hresult
    have hwatch := run_onRun codec hhas' (artifactWatch services clock)
    rw [hresult] at hwatch
    rw [if_neg (not_not.mpr hactive), if_pos hactive]
    rw [artifactWatch] at hwatch ⊢
    rw [run_bind_of_ok _ (congrArg Prod.fst hwatch), hwatch]
    cases result with
    | none | some => exact ⟨_, rfl⟩
  · rw [if_pos hactive, if_neg hactive, QueueState.setFiles_filesOf]
    exact ⟨report, rfl⟩

variable (hkept : q.WellKept services.policy.queueStatuses codec clock)
  (hstates : services.policy.HasStates)
  (hlistable : q.Listable services.policy.queueStatuses)
  (hentry : entry ∈ q.allListed services.policy.queueStatuses)
include hkept hstates hlistable hentry

theorem running_of_copyAfter
    (hactive : (copyAfter codec clock (q.indexed services.policy.queueStatuses) entry).2.status ∈
      services.policy.activeStates) :
    leftStatus clock q entry = .running ∧ GoesOn (q.filesOf entry.1)
        (filesAfter codec clock (q.indexed services.policy.queueStatuses) entry) ∧
      ∃ run, listed services.policy.queueStatuses
          (filesAfter codec clock (q.indexed services.policy.queueStatuses) entry) =
        .ok (some run) ∧ run.status = .running := by
  rw [status_copyAfter, hstates.active, mem_singleton] at hactive
  have hrunning : leftStatus clock q entry = .running :=
    (Repair.status_eq_running_iff entry.2 _).mp hactive
  obtain ⟨run, hlisted, -, hstatus⟩ := (listed_filesAfter hkept hlistable hentry).1
    (.inr (hstates.mem_queueStatuses.mpr (.inr hrunning)))
  exact ⟨hrunning, goesOn_filesAfter hkept hlistable hentry hrunning, run, hlisted,
    hstatus.trans hrunning⟩

theorem artifactWatch_ok_of_mem
    (hactive : (copyAfter codec clock (q.indexed services.policy.queueStatuses) entry).2.status ∈
      services.policy.activeStates) :
    ∃ result, ((artifactWatch services clock).run (runHandler codec entry.1)
      (filesAfter codec clock (q.indexed services.policy.queueStatuses) entry)).1 = .ok result := by
  obtain ⟨hrunning, hgoes, run, hlisted, -⟩ :=
    running_of_copyAfter hkept hstates hlistable hentry hactive
  have hread := (listedIn_eq_some_iff.mp (congrArg (fun r => r.toOption.join) hlisted)).1
  refine artifactWatch_ok hread fun e he => ?_
  rw [hgoes.continues.stalledArtifact] at he
  exact hkept.times entry hentry (Repair.running_of_leaves hrunning) e
    (mem_of_stalledArtifact he)

theorem watchedFiles_of_mem : (StaysOn services clock q entry → watchedFiles services clock codec
            (copyAfter codec clock (q.indexed services.policy.queueStatuses) entry)
            (filesAfter codec clock (q.indexed services.policy.queueStatuses) entry) =
          filesAfter codec clock (q.indexed services.policy.queueStatuses) entry) ∧
      (¬StaysOn services clock q entry → listed services.policy.queueStatuses
          (watchedFiles services clock codec
            (copyAfter codec clock (q.indexed services.policy.queueStatuses) entry)
            (filesAfter codec clock (q.indexed services.policy.queueStatuses) entry)) =
          .ok none) := by
  have hcopy : (copyAfter codec clock (q.indexed services.policy.queueStatuses) entry).2.status =
      (repairOf clock q.approvals entry.2).status entry.2 := status_copyAfter clock
  rw [watchedFiles]
  by_cases hactive : (copyAfter codec clock (q.indexed services.policy.queueStatuses)
      entry).2.status ∈ services.policy.activeStates
  · obtain ⟨hrunning, hgoes, run, hlisted, hstatus⟩ :=
      running_of_copyAfter hkept hstates hlistable hentry hactive
    have hread := (listedIn_eq_some_iff.mp (congrArg (fun r => r.toOption.join) hlisted)).1
    have hmem : leftStatus clock q entry ∈ services.policy.queueStatuses :=
      hstates.mem_queueStatuses.mpr (.inr hrunning)
    rw [if_pos hactive]
    by_cases hstalled : (q.filesOf entry.1).IsStalled services.store clock
        services.policy.artifactCreationTerminality
    · refine ⟨fun h => absurd ⟨hcopy ▸ hactive, hstalled⟩ h.1, fun _ => ?_⟩
      exact listed_of_index_notMem
        (artifactWatch_blocks hread hstatus (hgoes.isStalled_iff.mpr hstalled))
        (hstates.notMem_of_isTerminal rfl)
    · refine ⟨fun _ => ?_, fun h => absurd ⟨fun hstalls => hstalled hstalls.2, .inr hmem⟩ h⟩
      exact run_terminalize_of_not_stalled _ _ fun h => hstalled (hgoes.isStalled_iff.mp h)
  · rw [if_neg hactive]
    have hquiet : ¬Stalls services clock q entry := fun h => hactive (hcopy ▸ h.1)
    refine ⟨fun _ => rfl, fun h => (listed_filesAfter hkept hlistable hentry).2 ?_⟩
    exact fun hstays => h ⟨hquiet, hstays⟩

omit hentry in
/-- After the review the listing has what stays on and what was not looked at. -/
theorem leavesOver_reviewed {window : List (String × TaskRun)}
    (hwindow : window.Sublist (q.allListed services.policy.queueStatuses)) :
    LeavesOver services.policy.queueStatuses
      (fun entry => if entry.1 ∈ window.map Prod.fst then
        filesAfter codec clock (q.indexed services.policy.queueStatuses) entry
          else (q.indexed services.policy.queueStatuses).filesOf entry.1)
      (fun entry => entry.1 ∈ window.map Prod.fst → StaysOn services clock q entry) q
      (q.reviewed services clock codec window) := by
  set statuses := services.policy.queueStatuses with hset
  have hmem : ∀ entry ∈ q.allListed statuses, entry.1 ∈ window.map Prod.fst ↔ entry ∈ window :=
    fun entry hentry => mem_of_fst_mem hentry hwindow.subset
  have hnames : (q.reviewed services clock codec window).names = q.names := names_reviewed hwindow
  have hother : ∀ runId ∉ window.map Prod.fst,
      (q.reviewed services clock codec window).filesOf runId =
        (q.indexed statuses).filesOf runId := fun _ => filesOf_reviewed_of_notMem
  have hgone : ∀ entry ∈ window, ¬StaysOn services clock q entry →
      listed statuses ((q.reviewed services clock codec window).filesOf entry.1) = .ok none := by
    intro entry hentry hstays
    rw [filesOf_reviewed hwindow hentry]
    exact (watchedFiles_of_mem hkept hstates hlistable (hwindow.subset hentry)).2 hstays
  have hleft : ∀ entry ∈ window, StaysOn services clock q entry →
      (q.reviewed services clock codec window).filesOf entry.1 =
        filesAfter codec clock (q.indexed statuses) entry := by
    intro entry hentry hstays
    rw [filesOf_reviewed hwindow hentry]
    exact (watchedFiles_of_mem hkept hstates hlistable (hwindow.subset hentry)).1 hstays
  refine ⟨hnames, ?_, ?_, ?_, ?_⟩
  · refine (ready_indexed hlistable).of_renewed (hnames.trans (names_indexed statuses q).symm)
      fun runId => ?_
    by_cases hrunId : runId ∈ window.map Prod.fst
    · obtain ⟨entry, hentry, rfl⟩ := mem_map.mp hrunId
      by_cases hstays : StaysOn services clock q entry
      · rw [hleft entry hentry hstays]
        obtain ⟨run, hrun, -, -⟩ :=
          (listed_filesAfter hkept hlistable (hwindow.subset hentry)).1 hstays.2
        exact .inr (.inr ⟨⟨run, hrun⟩, index_filesAfter hlistable (hwindow.subset hentry)⟩)
      · exact .inr (.inl (hgone entry hentry hstays))
    · exact .inl (hother runId hrunId)
  · intro entry hentry hstays
    split
    · rename_i hin
      exact hleft entry ((hmem entry hentry).mp hin) (hstays hin)
    · rename_i hout
      exact hother entry.1 hout
  · intro entry hentry hstays
    obtain ⟨hin, hstays⟩ := Classical.not_imp.mp hstays
    rw [listedIn, hgone entry ((hmem entry hentry).mp hin) hstays]
    rfl
  · intro runId hrunId
    have hout : runId ∉ window.map Prod.fst := by
      intro hin
      obtain ⟨entry, hentry, rfl⟩ := mem_map.mp hin
      rw [(mem_allListed.mp (hwindow.subset hentry)).2] at hrunId
      cases hrunId
    rw [hother runId hout, listedIn_indexed hlistable]
    exact hrunId

omit hentry in
theorem leavesOver_watched : LeavesOver services.policy.queueStatuses
      (filesAfter codec clock (q.indexed services.policy.queueStatuses))
      (StaysOn services clock q) q
      (((q.indexed services.policy.queueStatuses).repairAll clock codec
        (q.allListed services.policy.queueStatuses)).watched services clock codec
          ((q.allListed services.policy.queueStatuses).map
            (copyAfter codec clock (q.indexed services.policy.queueStatuses)))) := by
  have h := leavesOver_reviewed hkept hstates hlistable (List.Sublist.refl _)
  have hin : ∀ entry ∈ q.allListed services.policy.queueStatuses,
      entry.1 ∈ (q.allListed services.policy.queueStatuses).map Prod.fst :=
    fun entry hentry => mem_map.mpr ⟨entry, hentry, rfl⟩
  refine ⟨h.names, h.ready, fun entry hentry hstays => ?_, fun entry hentry hstays => ?_,
    h.unlisted⟩
  · have hfiles := h.filesOf entry hentry fun _ => hstays
    rwa [if_pos (hin entry hentry)] at hfiles
  · exact h.gone entry hentry fun himp => hstays (himp (hin entry hentry))

end Watched

section Approvals

variable {services : QueueServices} {clock : Clock} {codec : Codec} {q : QueueState}
  {entries : List (String × TaskRun)} {approvalId : String}

theorem fresh_repairAll_of_fresh (h : q.approvals.Fresh clock approvalId)
    (entries : List (String × TaskRun)) :
    (q.repairAll clock codec entries).approvals.Fresh clock approvalId := by
  induction entries generalizing q with
  | nil => exact h
  | cons head entries ih =>
    refine ih (q := q.repair codec clock head) ?_
    change (touchLinked clock head.2 q.approvals).Fresh clock approvalId
    rw [touchLinked]
    split
    · exact h
    · exact h.touch _

theorem fresh_repairAll {entry : String × TaskRun} (hentry : entry ∈ entries)
    (hlinked : linkedApproval entry.2 = some approvalId) :
    (q.repairAll clock codec entries).approvals.Fresh clock approvalId := by
  induction entries generalizing q with
  | nil => cases hentry
  | cons head entries ih =>
    rcases mem_cons.mp hentry with rfl | hentry
    · refine fresh_repairAll_of_fresh (q := q.repair codec clock entry) ?_ entries
      change (touchLinked clock entry.2 q.approvals).Fresh clock approvalId
      rw [touchLinked, hlinked]
      exact ApprovalTable.fresh_touch_self clock approvalId q.approvals
    · exact ih (q := q.repair codec clock head) hentry

theorem approvals_watched (entries : List (String × TaskRun)) (q : QueueState) :
    (q.watched services clock codec entries).approvals = q.approvals := by
  rw [QueueState.watched, approvals_renewAll]
  induction entries with
  | nil => rfl
  | cons entry entries ih => exact ih

end Approvals

/-- What the passes of cancellations look at besides the status of a run. -/
def keyOf (entry : String × TaskRun) : String × String × Option String :=
  (entry.1, entry.2.createdAt, entry.2.approvalId)

variable {entries entries' : List (String × TaskRun)}

theorem map_keyOf_filter_filterMap {f : String × TaskRun → Option (String × TaskRun)}
    {p w : String × TaskRun → Bool} (h : ∀ entry ∈ entries, (f entry = none ∧ w entry = false) ∨
      ∃ entry', f entry = some entry' ∧ p entry' = w entry ∧ keyOf entry' = keyOf entry) :
    ((entries.filterMap f).filter p).map keyOf = (entries.filter w).map keyOf := by
  induction entries with
  | nil => rfl
  | cons entry entries ih =>
    rw [forall_mem_cons] at h
    have hrest := ih h.2
    rcases h.1 with ⟨hnone, hout⟩ | ⟨entry', hsome, hsame, hkey⟩
    · rw [filterMap_cons_none hnone, filter_cons_of_neg (by simp [hout]), hrest]
    · rw [filterMap_cons_some hsome]
      cases hin : w entry with
      | true =>
        rw [filter_cons_of_pos (hsame.trans hin), filter_cons_of_pos hin, map_cons,
          map_cons, hrest, hkey]
      | false =>
        rw [filter_cons_of_neg (by simp [hsame, hin]), filter_cons_of_neg (by simp [hin]), hrest]

theorem map_keyOf_oldestFirst (h : entries'.map keyOf = entries.map keyOf) :
    (oldestFirst entries').map keyOf = (oldestFirst entries).map keyOf := by
  have hsort : ∀ entries : List (String × TaskRun), (oldestFirst entries).map keyOf =
      (entries.map keyOf).insertionSort fun a b => a.2.1 ≤ b.2.1 := by
    intro entries
    exact map_insertionSort _ _ keyOf entries fun _ _ _ _ => Iff.rfl
  rw [hsort, hsort, h]

theorem linksOf_of_keys (policy : TaskQueuePolicy) (h : entries'.map keyOf = entries.map keyOf) :
    linksOf policy entries' = linksOf policy entries := by
  have hlinks : ∀ entries : List (String × TaskRun),
      (entries.map fun entry => entry.2.approvalId.getD "") =
        (entries.map keyOf).map fun key => key.2.2.getD "" := by
    intro entries
    rw [map_map]
    rfl
  rw [linksOf, linksOf, hlinks, hlinks, h]

theorem ids_of_keys (h : entries'.map keyOf = entries.map keyOf) :
    entries'.map Prod.fst = entries.map Prod.fst := by
  have hids : ∀ entries : List (String × TaskRun),
      entries.map Prod.fst = (entries.map keyOf).map Prod.fst := by
    intro entries
    rw [map_map]
    rfl
  rw [hids, hids, h]

section Stages

variable (services : QueueServices) (clock : Clock)

/-- The listed runs that are cancelled because they have waited too long. -/
def overdueListed (q : QueueState) : List (String × TaskRun) :=
  if services.policy.autoCancelExpired then
    oldestFirst ((q.allListed services.policy.queueStatuses).filter fun entry =>
      isOverdue services.policy clock entry.2)
  else []

def overflowListed (q : QueueState) : List (String × TaskRun) :=
  if services.policy.overflowStrategy = "cancel_oldest_pending" then
    overflowRuns services.policy (q.allListed services.policy.queueStatuses)
  else []

/-- A reconciliation up to the runs that it sees when it cancels overdue ones. -/
def beforeExpiry : QueueProgram (List (String × TaskRun) × QueueReport) := do
  let statuses := services.policy.queueStatuses
  let runs ← listQueueRuns statuses 1000
  let (runs, report) ← reconcileApprovalStates services clock runs ⟨[], [], []⟩
  let report ← Program.passEach (reconcileArtifactGap services clock) runs report
  let runs ← listQueueRuns statuses 1000
  pure (runs, report)

/-- A reconciliation up to the runs that it sees when too many may wait. -/
def beforeCapacity : QueueProgram (List (String × TaskRun) × QueueReport) := do
  let (runs, report) ← beforeExpiry services clock
  let report ← cancelOverdue services clock runs report
  let runs ← listQueueRuns services.policy.queueStatuses 1000
  pure (runs, report)

theorem reconcilePasses_eq : reconcilePasses services clock = (do
      let (runs, report) ← beforeCapacity services clock
      cancelOverflow services clock runs report) := by
  simp only [reconcilePasses, beforeCapacity, beforeExpiry, bind_assoc]
  rfl

/-- Those among some runs that are cancelled because they have waited too long. -/
def overdueAmong (runs : List (String × TaskRun)) : List (String × TaskRun) :=
  if services.policy.autoCancelExpired then
    oldestFirst (runs.filter fun entry => isOverdue services.policy clock entry.2)
  else []

def overflowAmong (runs : List (String × TaskRun)) : List (String × TaskRun) :=
  if services.policy.overflowStrategy = "cancel_oldest_pending" then
    overflowRuns services.policy runs
  else []

variable (codec : Codec)

def QueueState.afterReview (q : QueueState) : QueueState :=
  q.reviewed services clock codec ((q.allListed services.policy.queueStatuses).take 1000)

/-- The state after those of the newest runs were cancelled that have waited too long. -/
def QueueState.afterExpiry (q : QueueState) : QueueState :=
  (q.afterReview services clock codec).cancelled services clock codec
    "queue_wait_timeout_exceeded" (overdueAmong services clock
      (((q.afterReview services clock codec).allListed services.policy.queueStatuses).take 1000))

/-- The state after the oldest of the newest runs were cancelled because too many wait. -/
def QueueState.afterCapacity (q : QueueState) : QueueState :=
  (q.afterExpiry services clock codec).cancelled services clock codec "queue_capacity_exceeded"
    (overflowAmong services
      (((q.afterExpiry services clock codec).allListed services.policy.queueStatuses).take 1000))

def QueueState.afterWatch (q : QueueState) : QueueState :=
  ((q.indexed services.policy.queueStatuses).repairAll clock codec
    (q.allListed services.policy.queueStatuses)).watched services clock codec
      ((q.allListed services.policy.queueStatuses).map
        (copyAfter codec clock (q.indexed services.policy.queueStatuses)))

def QueueState.afterOverdue (q : QueueState) : QueueState :=
  (q.afterWatch services clock codec).cancelled services clock codec "queue_wait_timeout_exceeded"
    (overdueListed services clock (q.afterWatch services clock codec))

/-- The state after runs were cancelled because too many wait. -/
def QueueState.afterPasses (q : QueueState) : QueueState :=
  (q.afterOverdue services clock codec).cancelled services clock codec "queue_capacity_exceeded"
    (overflowListed services (q.afterOverdue services clock codec))

variable {services clock codec} {q q' : QueueState} {entry : String × TaskRun}

variable {runs : List (String × TaskRun)}

theorem mem_overdueAmong (h : entry ∈ overdueAmong services clock runs) :
    entry ∈ runs ∧ entry.2.status ∈ services.policy.pendingStates := by
  rw [overdueAmong] at h
  split at h
  · rw [oldestFirst, mem_insertionSort, mem_filter, isOverdue, Bool.and_eq_true,
      contains_iff_mem] at h
    exact ⟨h.1, h.2.1⟩
  · cases h

theorem mem_overdueListed (h : entry ∈ overdueListed services clock q) :
    entry ∈ q.allListed services.policy.queueStatuses ∧
      entry.2.status ∈ services.policy.pendingStates := mem_overdueAmong h

theorem mem_overflowAmong (h : entry ∈ overflowAmong services runs) :
    entry ∈ runs ∧ entry.2.status ∈ services.policy.pendingStates := by
  rw [overflowAmong] at h
  split at h
  · have hmem := mem_of_mem_take h
    rw [oldestFirst, mem_insertionSort, pendingRuns, mem_filter, contains_iff_mem] at hmem
    exact hmem
  · cases h

theorem mem_overflowListed (h : entry ∈ overflowListed services q) :
    entry ∈ q.allListed services.policy.queueStatuses ∧
      entry.2.status ∈ services.policy.pendingStates := mem_overflowAmong h

theorem nodup_oldestFirst {entries : List (String × TaskRun)}
    (h : (entries.map Prod.fst).Nodup) : ((oldestFirst entries).map Prod.fst).Nodup :=
  ((perm_insertionSort _ entries).map Prod.fst).nodup_iff.mpr h

theorem nodup_overdueAmong (h : (runs.map Prod.fst).Nodup) :
    ((overdueAmong services clock runs).map Prod.fst).Nodup := by
  rw [overdueAmong]
  split
  · exact nodup_oldestFirst (h.sublist (List.filter_sublist.map Prod.fst))
  · exact nodup_nil

theorem nodup_overdueListed (services : QueueServices) (clock : Clock) (q : QueueState) :
    ((overdueListed services clock q).map Prod.fst).Nodup :=
  nodup_overdueAmong (nodup_allListed _ q)

theorem nodup_overflowAmong (h : (runs.map Prod.fst).Nodup) :
    ((overflowAmong services runs).map Prod.fst).Nodup := by
  rw [overflowAmong]
  split
  · refine List.Nodup.sublist ((take_sublist _ _).map Prod.fst) (nodup_oldestFirst ?_)
    exact h.sublist (List.filter_sublist.map Prod.fst)
  · exact nodup_nil

theorem nodup_overflowListed (services : QueueServices) (q : QueueState) :
    ((overflowListed services q).map Prod.fst).Nodup := nodup_overflowAmong (nodup_allListed _ q)

section Left

variable (hkept : q.WellKept services.policy.queueStatuses codec clock)
  (hstates : services.policy.HasStates)
  (hlistable : q.Listable services.policy.queueStatuses) {Left : String × TaskRun → Prop}
  (hstays : ∀ entry, Left entry → StaysOn services clock q entry)
  (h : LeavesOver services.policy.queueStatuses
    (filesAfter codec clock (q.indexed services.policy.queueStatuses)) Left q q')
include hkept hlistable hstays h

theorem LeavesOver.listedUnder (hentry : entry ∈ q.allListed services.policy.queueStatuses) :
    (¬Left entry ∧ q'.listedUnder services.policy.queueStatuses entry.1 = none) ∨
      Left entry ∧ ∃ run,
        q'.listedUnder services.policy.queueStatuses entry.1 = some (entry.1, run) ∧
          TaskRun.Alike entry.2 run ∧ run.status = leftStatus clock q entry := by
  by_cases hleft : Left entry
  · obtain ⟨run, hrun, halike, hstatus⟩ :=
      (listed_filesAfter hkept hlistable hentry).1 (hstays entry hleft).2
    refine .inr ⟨hleft, run, ?_, halike, hstatus⟩
    rw [QueueState.listedUnder, h.filesOf entry hentry hleft, listedIn, hrun]
    rfl
  · refine .inl ⟨hleft, ?_⟩
    rw [QueueState.listedUnder, h.gone entry hentry hleft]
    rfl

theorem LeavesOver.allListed_eq_of_staysOn : q'.allListed services.policy.queueStatuses =
      (q.allListed services.policy.queueStatuses).filterMap fun entry =>
        q'.listedUnder services.policy.queueStatuses entry.1 := by
  refine h.allListed_eq fun entry hentry hleft run hrun => ?_
  obtain ⟨run', hrun', halike, -⟩ :=
    (listed_filesAfter hkept hlistable hentry).1 (hstays entry hleft).2
  rw [listedIn, hrun'] at hrun
  obtain rfl := Option.some.inj (show some run' = some run from hrun)
  exact halike.createdAt

theorem LeavesOver.keys {p w : String × TaskRun → Bool}
    (hin : ∀ entry ∈ q.allListed services.policy.queueStatuses, Left entry → ∀ run,
      TaskRun.Alike entry.2 run → run.status = leftStatus clock q entry →
        p (entry.1, run) = w entry)
    (hout : ∀ entry ∈ q.allListed services.policy.queueStatuses, ¬Left entry → w entry = false) :
    ((q'.allListed services.policy.queueStatuses).filter p).map keyOf =
      ((q.allListed services.policy.queueStatuses).filter w).map keyOf := by
  rw [h.allListed_eq_of_staysOn hkept hlistable hstays]
  refine map_keyOf_filter_filterMap fun entry hentry => ?_
  rcases h.listedUnder hkept hlistable hstays hentry with
    ⟨hleft, hnone⟩ | ⟨hleft, run, hsome, halike, hstatus⟩
  · exact .inl ⟨hnone, hout entry hentry hleft⟩
  · refine .inr ⟨_, hsome, hin entry hentry hleft run halike hstatus, ?_⟩
    rw [keyOf, keyOf, halike.createdAt, halike.approvalId]

end Left

section Remaining

variable (hkept : q.WellKept services.policy.queueStatuses codec clock)
  (hstates : services.policy.HasStates)
  (hlistable : q.Listable services.policy.queueStatuses)

include hstates in
theorem staysOn_of_waits (h : waits services clock q entry = true) :
    StaysOn services clock q entry := by
  rw [waits, contains_iff_mem] at h
  refine ⟨fun hstalls => ?_, .inr (hstates.mem_queueStatuses.mpr (.inl h))⟩
  have hactive := hstalls.1
  rw [hstates.active, mem_singleton, Repair.status_eq_running_iff] at hactive
  have hrunning : leftStatus clock q entry = .running := hactive
  rw [hrunning, hstates.pending] at h
  revert h
  decide

variable {runs : List (String × TaskRun)}

theorem waits_eq_of_not_overdue (hentry : entry ∈ runs)
    (h : entry ∉ overdueRuns services clock q runs) :
    waits services clock q entry =
      (waits services clock q entry && !isTooOld services clock entry) := by
  cases hwaits : waits services clock q entry with
  | false => rfl
  | true =>
    have hyoung : isTooOld services clock entry = false := by
      by_contra hold
      refine h (mem_filter.mpr ⟨hentry, ?_⟩)
      simpa [hwaits] using hold
    rw [hyoung]
    rfl

theorem not_overdue_of_young (h : isTooOld services clock entry = false) :
    entry ∉ overdueRuns services clock q runs := by
  intro hold
  have hold' := (mem_filter.mp hold).2
  rw [h, Bool.and_false] at hold'
  cases hold'

include hkept hstates hlistable

theorem keys_overdueListed :
    (overdueListed services clock (q.afterWatch services clock codec)).map keyOf =
      (oldestFirst (overdueRuns services clock q
        (q.allListed services.policy.queueStatuses))).map keyOf := by
  have hstage := leavesOver_watched hkept hstates hlistable
  rw [overdueListed]
  split
  · rename_i hauto
    refine map_keyOf_oldestFirst (hstage.keys hkept hlistable (fun _ h => h) ?_ ?_)
    · intro entry _ _ run halike hstatus
      rw [isOverdue, waits, isTooOld, hstatus, halike.createdAt, hauto, Bool.true_and]
    · intro entry _ hleft
      rw [Bool.and_eq_false_iff]
      left
      by_contra hwaits
      exact hleft (staysOn_of_waits hstates (by simpa using hwaits))
  · rename_i hauto
    have hnone : overdueRuns services clock q (q.allListed services.policy.queueStatuses) = [] := by
      rw [overdueRuns, filter_eq_nil_iff]
      intro entry _
      simp [isTooOld, hauto]
    rw [hnone]
    rfl

theorem leavesOver_afterOverdue : LeavesOver services.policy.queueStatuses
      (filesAfter codec clock (q.indexed services.policy.queueStatuses))
      (fun entry => StaysOn services clock q entry ∧ entry ∉ overdueRuns services clock q
        (q.allListed services.policy.queueStatuses)) q
      (q.afterOverdue services clock codec) := by
  have hstage := (leavesOver_watched hkept hstates hlistable).cancelled services clock codec
    hstates (nodup_overdueListed services clock (q.afterWatch services clock codec))
    (fun _ h => mem_overdueListed h) "queue_wait_timeout_exceeded"
  have hsubset : overdueRuns services clock q (q.allListed services.policy.queueStatuses) ⊆
      q.allListed services.policy.queueStatuses := List.filter_sublist.subset
  refine hstage.congr fun entry hentry => and_congr_right fun _ => not_congr ?_
  rw [ids_of_keys (keys_overdueListed hkept hstates hlistable), ← mem_of_fst_mem hentry hsubset]
  exact ((perm_insertionSort _ _).map Prod.fst).mem_iff

theorem keys_overflowListed :
    (overflowListed services (q.afterOverdue services clock codec)).map keyOf =
      (excessRuns services clock q (q.allListed services.policy.queueStatuses)).map keyOf := by
  have hkeys : (pendingRuns services.policy ((q.afterOverdue services clock codec).allListed
      services.policy.queueStatuses)).map keyOf = (waitingRuns services clock q
        (q.allListed services.policy.queueStatuses)).map keyOf := by
    refine (leavesOver_afterOverdue hkept hstates hlistable).keys hkept hlistable
      (fun _ h => h.1) ?_ ?_
    · rintro entry hentry ⟨-, hnot⟩ run - hstatus
      rw [hstatus]
      exact waits_eq_of_not_overdue hentry hnot
    · intro entry hentry hleft
      by_contra hwaiting
      rw [Bool.not_eq_false, Bool.and_eq_true, Bool.not_eq_true'] at hwaiting
      exact hleft ⟨staysOn_of_waits hstates hwaiting.1, not_overdue_of_young hwaiting.2⟩
  have hlength := congrArg List.length hkeys
  rw [length_map, length_map] at hlength
  rw [overflowListed, excessRuns]
  split
  · rw [overflowRuns, map_take, map_take, map_keyOf_oldestFirst hkeys, hlength]
  · rfl

theorem leavesOver_afterPasses : LeavesOver services.policy.queueStatuses
      (filesAfter codec clock (q.indexed services.policy.queueStatuses))
      (Remains services clock q (q.allListed services.policy.queueStatuses)) q
      (q.afterPasses services clock codec) := by
  have hstage := (leavesOver_afterOverdue hkept hstates hlistable).cancelled services clock codec
    hstates (nodup_overflowListed services (q.afterOverdue services clock codec))
    (fun _ h => mem_overflowListed h) "queue_capacity_exceeded"
  have hsubset : excessRuns services clock q (q.allListed services.policy.queueStatuses) ⊆
      q.allListed services.policy.queueStatuses := by
    rw [excessRuns]
    split
    · intro entry hentry
      have hwaiting := (mem_insertionSort _).mp (mem_of_mem_take hentry)
      exact mem_of_mem_filter hwaiting
    · exact nil_subset _
  refine hstage.congr fun entry hentry => ?_
  rw [ids_of_keys (keys_overflowListed hkept hstates hlistable), mem_of_fst_mem hentry hsubset,
    Remains, and_assoc]

omit hstates in
theorem LeavesOver.length_le {Left : String × TaskRun → Prop}
    (hstays : ∀ entry, Left entry → StaysOn services clock q entry)
    (h : LeavesOver services.policy.queueStatuses
      (filesAfter codec clock (q.indexed services.policy.queueStatuses)) Left q q')
    (hlimit : (q.allListed services.policy.queueStatuses).length ≤ 1000) :
    (q'.allListed services.policy.queueStatuses).length ≤ 1000 := by
  rw [h.allListed_eq_of_staysOn hkept hlistable hstays]
  exact (length_filterMap_le _ _).trans hlimit

omit hkept hlistable in
theorem run_cancelRuns_of_listed {entries : List (String × TaskRun)}
    (hnodup : (entries.map Prod.fst).Nodup)
    (hentries : ∀ entry ∈ entries, entry ∈ q.allListed services.policy.queueStatuses ∧
      entry.2.status ∈ services.policy.pendingStates) (reason : String) (report : QueueReport) :
    ∃ report', (cancelRuns services clock reason entries report).run (queueHandler codec) q =
      (.ok report', q.cancelled services clock codec reason entries) := by
  refine run_cancelRuns services clock codec hnodup (fun entry hentry => ?_)
    (fun entry hentry => ?_) reason report
  · exact hasRun_iff_mem_names.mpr (mem_allListed.mp (hentries entry hentry).1).1
  · have hlisted := (mem_allListed.mp (hentries entry hentry).1).2
    exact ⟨entry.2, (listedIn_eq_some_iff.mp hlisted).1,
      hstates.not_isTerminal (hentries entry hentry).2⟩

variable (clock codec) in
omit hkept hlistable in
theorem run_cancelOverdue (hruns : runs.Sublist (q.allListed services.policy.queueStatuses))
    (report : QueueReport) :
    ∃ report', (cancelOverdue services clock runs report).run (queueHandler codec) q =
      (.ok report', q.cancelled services clock codec "queue_wait_timeout_exceeded"
        (overdueAmong services clock runs)) := by
  have hnodup : ((overdueAmong services clock runs).map Prod.fst).Nodup := nodup_overdueAmong
    ((nodup_allListed services.policy.queueStatuses q).sublist (hruns.map Prod.fst))
  have hmem : ∀ entry ∈ overdueAmong services clock runs,
      entry ∈ q.allListed services.policy.queueStatuses ∧
        entry.2.status ∈ services.policy.pendingStates := fun entry h =>
    ⟨hruns.subset (mem_overdueAmong h).1, (mem_overdueAmong h).2⟩
  rw [cancelOverdue]
  rw [overdueAmong] at hnodup hmem ⊢
  split
  · rename_i hauto
    simp only [if_pos hauto] at hnodup hmem
    exact run_cancelRuns_of_listed hstates hnodup hmem _ _
  · exact ⟨report, rfl⟩

variable (clock codec) in
omit hkept hlistable in
theorem run_cancelOverflow (hruns : runs.Sublist (q.allListed services.policy.queueStatuses))
    (report : QueueReport) :
    ∃ report', (cancelOverflow services clock runs report).run (queueHandler codec) q =
      (.ok report', q.cancelled services clock codec "queue_capacity_exceeded"
        (overflowAmong services runs)) := by
  have hnodup : ((overflowAmong services runs).map Prod.fst).Nodup := nodup_overflowAmong
    ((nodup_allListed services.policy.queueStatuses q).sublist (hruns.map Prod.fst))
  have hmem : ∀ entry ∈ overflowAmong services runs,
      entry ∈ q.allListed services.policy.queueStatuses ∧
        entry.2.status ∈ services.policy.pendingStates := fun entry h =>
    ⟨hruns.subset (mem_overflowAmong h).1, (mem_overflowAmong h).2⟩
  rw [cancelOverflow]
  rw [overflowAmong] at hnodup hmem ⊢
  split
  · rename_i hstrategy
    simp only [if_pos hstrategy] at hnodup hmem
    exact run_cancelRuns_of_listed hstates hnodup hmem _ _
  · exact ⟨report, rfl⟩

omit hkept hlistable in
theorem leavesOver_cancelled (hready : q.Ready services.policy.queueStatuses)
    {entries : List (String × TaskRun)} (hnodup : (entries.map Prod.fst).Nodup)
    (hentries : ∀ entry ∈ entries, entry ∈ q.allListed services.policy.queueStatuses ∧
      entry.2.status ∈ services.policy.pendingStates) (reason : String) :
    LeavesOver services.policy.queueStatuses (fun entry => q.filesOf entry.1)
      (fun entry => entry.1 ∉ entries.map Prod.fst) q
      (q.cancelled services clock codec reason entries) := by
  have hself : LeavesOver services.policy.queueStatuses (fun entry => q.filesOf entry.1)
      (fun _ => True) q q :=
    ⟨rfl, hready, fun _ _ _ => rfl, fun _ _ h => absurd trivial h, fun _ h => h⟩
  exact (hself.cancelled services clock codec hstates hnodup hentries reason).congr
    fun _ _ => by rw [true_and]

theorem leavesOver_afterExpiry : LeavesOver services.policy.queueStatuses
      (fun entry => (q.afterReview services clock codec).filesOf entry.1)
      (fun entry => entry.1 ∉ (overdueAmong services clock
        (((q.afterReview services clock codec).allListed
          services.policy.queueStatuses).take 1000)).map Prod.fst)
      (q.afterReview services clock codec) (q.afterExpiry services clock codec) := by
  have hready : (q.afterReview services clock codec).Ready services.policy.queueStatuses :=
    (leavesOver_reviewed hkept hstates hlistable (take_sublist 1000 _)).ready
  refine leavesOver_cancelled hstates hready (nodup_overdueAmong ?_) (fun entry hentry => ?_) _
  · exact (nodup_allListed _ _).sublist ((take_sublist 1000 _).map Prod.fst)
  · obtain ⟨hmem, hpending⟩ := mem_overdueAmong hentry
    exact ⟨mem_of_mem_take hmem, hpending⟩

variable (clock codec) in
theorem run_beforeExpiry : ∃ report, (beforeExpiry services clock).run (queueHandler codec) q =
      (.ok (((q.afterReview services clock codec).allListed
        services.policy.queueStatuses).take 1000, report), q.afterReview services clock codec) := by
  set window := (q.allListed services.policy.queueStatuses).take 1000 with hwindow
  have hsub : window.Sublist (q.allListed services.policy.queueStatuses) := take_sublist _ _
  have hlist := run_listQueueRuns codec services.policy.queueStatuses 1000 q
  rw [queueRuns_of_listable_take hlistable] at hlist
  have hnodup : (window.map Prod.fst).Nodup := nodup_of_window hsub
  obtain ⟨report₁, hrepairs⟩ := run_reconcileApprovalStates services clock codec hnodup
    (fun _ hentry => hasRun_of_window hsub hentry) ⟨[], [], []⟩
  have hcopies : ((window.map
      (copyAfter codec clock (q.indexed services.policy.queueStatuses))).map Prod.fst).Nodup := by
    rwa [map_fst_copyAfter]
  have hok : ∀ entry ∈ window.map
      (copyAfter codec clock (q.indexed services.policy.queueStatuses)),
      entry.2.status ∈ services.policy.activeStates → ∃ result,
        ((artifactWatch services clock).run (runHandler codec entry.1)
          (((q.indexed services.policy.queueStatuses).repairAll clock codec window).filesOf
            entry.1)).1 = .ok result := by
    refine forall_mem_map.mpr fun entry hentry hactive => ?_
    have hfiles := filesOf_repairAll clock codec hnodup hentry
      (q.indexed services.policy.queueStatuses)
    obtain ⟨result, hresult⟩ :=
      artifactWatch_ok_of_mem hkept hstates hlistable (hsub.subset hentry) hactive
    rw [← hfiles] at hresult
    exact ⟨result, hresult⟩
  obtain ⟨report₂, hwatch⟩ := run_watch hcopies (hasRun_of_copies hsub codec clock) hok report₁
  have hready : (q.afterReview services clock codec).Ready services.policy.queueStatuses :=
    (leavesOver_reviewed hkept hstates hlistable hsub).ready
  have hreviewed : ((q.indexed services.policy.queueStatuses).repairAll clock codec
      window).watched services clock codec
        (window.map (copyAfter codec clock (q.indexed services.policy.queueStatuses))) =
      q.afterReview services clock codec := rfl
  have hlist₂ := run_listQueueRuns_take codec hready
  refine ⟨report₂, ?_⟩
  rw [beforeExpiry, run_bind_of_ok _ (congrArg Prod.fst hlist), hlist,
    run_bind_of_ok _ (congrArg Prod.fst hrepairs), hrepairs,
    run_bind_of_ok _ (congrArg Prod.fst hwatch), hwatch,
    hreviewed, run_bind_of_ok _ (congrArg Prod.fst hlist₂), hlist₂]
  rfl

variable (clock codec) in
theorem run_beforeCapacity : ∃ report, (beforeCapacity services clock).run (queueHandler codec) q =
      (.ok (((q.afterExpiry services clock codec).allListed
        services.policy.queueStatuses).take 1000, report), q.afterExpiry services clock codec) := by
  obtain ⟨report, hbefore⟩ := run_beforeExpiry clock codec hkept hstates hlistable
  obtain ⟨report', hexpiry⟩ := run_cancelOverdue clock codec hstates
    (q := q.afterReview services clock codec) (take_sublist 1000 _) report
  have hlist := run_listQueueRuns_take codec (leavesOver_afterExpiry hkept hstates hlistable).ready
  refine ⟨report', ?_⟩
  rw [beforeCapacity, run_bind_of_ok _ (congrArg Prod.fst hbefore), hbefore,
    run_bind_of_ok _ (congrArg Prod.fst hexpiry), hexpiry, ← QueueState.afterExpiry,
    run_bind_of_ok _ (congrArg Prod.fst hlist), hlist]
  rfl

variable (clock codec) in
theorem run_reconcilePasses_take :
    ∃ report, (reconcilePasses services clock).run (queueHandler codec) q =
      (.ok report, q.afterCapacity services clock codec) := by
  obtain ⟨report, hbefore⟩ := run_beforeCapacity clock codec hkept hstates hlistable
  obtain ⟨report', hcapacity⟩ := run_cancelOverflow clock codec hstates
    (q := q.afterExpiry services clock codec) (take_sublist 1000 _) report
  refine ⟨report', ?_⟩
  rw [reconcilePasses_eq, run_bind_of_ok _ (congrArg Prod.fst hbefore), hbefore, hcapacity]
  rfl

variable (clock codec) in
theorem run_reconcilePasses (hlimit : (q.allListed services.policy.queueStatuses).length ≤ 1000) :
    ∃ report, (reconcilePasses services clock).run (queueHandler codec) q =
      (.ok report, q.afterPasses services clock codec) := by
  have hreview : q.afterReview services clock codec = q.afterWatch services clock codec := by
    rw [QueueState.afterReview, take_of_length_le hlimit]
    rfl
  have hwatched : LeavesOver _ _ _ q (q.afterWatch services clock codec) :=
    leavesOver_watched hkept hstates hlistable
  have hexpiry : q.afterExpiry services clock codec = q.afterOverdue services clock codec := by
    rw [QueueState.afterExpiry, hreview, take_of_length_le
      (hwatched.length_le hkept hlistable (fun _ h => h) hlimit)]
    rfl
  have hcapacity : q.afterCapacity services clock codec = q.afterPasses services clock codec := by
    rw [QueueState.afterCapacity, hexpiry, take_of_length_le
      ((leavesOver_afterOverdue hkept hstates hlistable).length_le hkept hlistable
        (fun _ h => h.1) hlimit)]
    rfl
  rw [← hcapacity]
  exact run_reconcilePasses_take clock codec hkept hstates hlistable

theorem mem_links_iff (approvalId : String) :
    approvalId ∈ linksOf services.policy (overdueListed services clock
          (q.afterWatch services clock codec)) ++
        linksOf services.policy (overflowListed services
          (q.afterOverdue services clock codec)) ↔
      approvalId ∈ linksOf services.policy
        (overdueRuns services clock q (q.allListed services.policy.queueStatuses) ++
          excessRuns services clock q (q.allListed services.policy.queueStatuses)) := by
  have hsorted : ∀ entries : List (String × TaskRun),
      approvalId ∈ linksOf services.policy (oldestFirst entries) ↔
        approvalId ∈ linksOf services.policy entries := by
    intro entries
    have hperm : (oldestFirst entries).Perm entries := perm_insertionSort _ entries
    rw [linksOf, linksOf]
    split
    · exact ((hperm.map _).filter _).mem_iff
    · rfl
  rw [linksOf_append, mem_append, mem_append,
    linksOf_of_keys _ (keys_overdueListed hkept hstates hlistable), hsorted,
    linksOf_of_keys _ (keys_overflowListed hkept hstates hlistable)]

theorem current_afterPasses (approvalId : String) :
    (IsPending clock q.approvals approvalId ∧ approvalId ∈ linksOf services.policy
          (overdueRuns services clock q (q.allListed services.policy.queueStatuses) ++
            excessRuns services clock q (q.allListed services.policy.queueStatuses)) →
        ∃ approval : ApprovalRequest, approval.status = .cancelled ∧
          (q.afterPasses services clock codec).approvals.current clock approvalId =
            .ok (some approval)) ∧
      (¬(IsPending clock q.approvals approvalId ∧ approvalId ∈ linksOf services.policy
          (overdueRuns services clock q (q.allListed services.policy.queueStatuses) ++
            excessRuns services clock q (q.allListed services.policy.queueStatuses))) →
        (q.afterPasses services clock codec).approvals.current clock approvalId =
          q.approvals.current clock approvalId) := by
  have hrepaired : ((q.indexed services.policy.queueStatuses).repairAll clock codec
      (q.allListed services.policy.queueStatuses)).approvals.current clock approvalId =
        q.approvals.current clock approvalId := current_repairAll clock codec _ _ approvalId
  have htables : (q.afterPasses services clock codec).approvals =
      cancelledTables services clock (linksOf services.policy (overdueListed services clock
          (q.afterWatch services clock codec)) ++ linksOf services.policy
            (overflowListed services (q.afterOverdue services clock codec)))
        ((q.indexed services.policy.queueStatuses).repairAll clock codec
          (q.allListed services.policy.queueStatuses)).approvals := by
    rw [QueueState.afterPasses, approvals_cancelled, cancelledTables, QueueState.afterOverdue,
      approvals_cancelled, cancelledTables, QueueState.afterWatch, approvals_watched,
      ← foldl_append]
    rfl
  rw [htables, ← mem_links_iff hkept hstates hlistable, ← isPending_congr hrepaired, ← hrepaired]
  exact current_cancelledTables services clock _ _ approvalId

omit hkept hstates hlistable in
theorem fresh_afterPasses {approvalId : String}
    (hentry : entry ∈ q.allListed services.policy.queueStatuses)
    (hlinked : linkedApproval entry.2 = some approvalId) :
    (q.afterPasses services clock codec).approvals.Fresh clock approvalId := by
  rw [QueueState.afterPasses, approvals_cancelled, QueueState.afterOverdue, approvals_cancelled,
    QueueState.afterWatch, approvals_watched]
  exact fresh_cancelledTables services (fresh_cancelledTables services
    (fresh_repairAll hentry hlinked) _) _

end Remaining

end Stages

end AIpinho.Queue
