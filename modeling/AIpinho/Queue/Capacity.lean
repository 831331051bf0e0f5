import AIpinho.Lib.Naming
import AIpinho.Lib.Windows
import AIpinho.Queue.Idempotence

/-!
# The bound on waiting runs

A reconciliation lists the newest thousand runs of the queue three times; a run that waits
behind them is not counted and not cancelled. This file says, of the queue before it, when a
reconciliation keeps the bound on all waiting runs.
-/

namespace AIpinho.Queue

open List Lib AIpinho.Runtime AIpinho.Approvals

section Condition

variable (services : QueueServices) (clock : Clock) (codec : Codec) (q : QueueState)

open scoped Classical in
/-- The queue, the newest run first, when the approvals and the artifacts of the newest
thousand were looked at. -/
noncomputable def reviewedRuns : List (String × TaskRun) :=
  let runs := q.allListed services.policy.queueStatuses
  ((runs.take 1000).filter fun entry => decide (StaysOn services clock q entry)).map
    (fun entry => (entry.1, { entry.2 with status := leftStatus clock q entry })) ++
      runs.drop 1000

/-- The queue when the overdue ones of the newest thousand were cancelled. -/
noncomputable def unexpiredRuns : List (String × TaskRun) :=
  let runs := reviewedRuns services clock q
  ((runs.take 1000).filter fun entry =>
    !(services.policy.autoCancelExpired && isOverdue services.policy clock entry.2)) ++
      runs.drop 1000

/-- Not too many runs wait, or none of them behind the newest thousand. -/
def WaitingSeen : Prop :=
  (pendingRuns services.policy (unexpiredRuns services clock q)).length ≤
      services.policy.maxPendingTasks ∨
    pendingRuns services.policy ((unexpiredRuns services clock q).drop 1000) = []

def seenRuns : Except String (List (String × TaskRun) × QueueReport) → List (String × TaskRun)
  | .ok (runs, _) => runs
  | .error _ => []

def cancelledForAge : List (String × TaskRun) :=
  overdueAmong services clock
    (seenRuns ((beforeExpiry services clock).run (queueHandler codec) q).1)

def cancelledForCapacity : List (String × TaskRun) :=
  overflowAmong services
    (seenRuns ((beforeCapacity services clock).run (queueHandler codec) q).1)

def waitingInStore (policy : TaskQueuePolicy) (q : QueueState) : List (String × TaskRun) :=
  pendingRuns policy (q.allListed policy.queueStatuses)

def oldestExcess (policy : TaskQueuePolicy) (q : QueueState) : List (String × TaskRun) :=
  (oldestFirst (waitingInStore policy q)).take
    ((waitingInStore policy q).length - policy.maxPendingTasks)

/-- A reconciliation keeps the bound on waiting runs: it cancels for capacity exactly the
oldest ones that are too many, and never a run that is running. -/
structure KeepsCapacity : Prop where
  bound : (waitingInStore services.policy
    ((reconcile services clock).run (queueHandler codec) q).2).length ≤
      services.policy.maxPendingTasks
  oldest : (cancelledForCapacity services clock codec q).map Prod.fst =
    (oldestExcess services.policy
      ((beforeCapacity services clock).run (queueHandler codec) q).2).map Prod.fst
  notRunning : ∀ entry ∈ cancelledForAge services clock codec q ++
    cancelledForCapacity services clock codec q, entry.2.status ≠ .running

end Condition

section Stages

variable {services : QueueServices} {clock : Clock} {codec : Codec} {q : QueueState}
  {entries : List (String × TaskRun)}

/-- What the last two passes look at. -/
def stateOf (entry : String × TaskRun) : String × String × TaskRunStatus :=
  (entry.1, entry.2.createdAt, entry.2.status)

theorem map_stateOf_filter {p : String × TaskRun → Bool}
    {r : String × String × TaskRunStatus → Bool} (hp : ∀ entry, p entry = r (stateOf entry))
    {runs runs' : List (String × TaskRun)} (h : runs.map stateOf = runs'.map stateOf) :
    (runs.filter p).map stateOf = (runs'.filter p).map stateOf := by
  have hfilter : ∀ runs : List (String × TaskRun),
      (runs.filter p).map stateOf = (runs.map stateOf).filter r := by
    intro runs
    rw [filter_map]
    congr 1
    exact filter_congr fun entry _ => hp entry
  rw [hfilter, hfilter, h]

theorem length_pendingRuns_congr {policy : TaskQueuePolicy} {runs runs' : List (String × TaskRun)}
    (h : runs.map stateOf = runs'.map stateOf) :
    (pendingRuns policy runs).length = (pendingRuns policy runs').length := by
  have hfilter := map_stateOf_filter
    (p := fun entry => policy.pendingStates.contains entry.2.status)
    (r := fun state => policy.pendingStates.contains state.2.2) (fun _ => rfl) h
  have hlength := congrArg List.length hfilter
  rwa [length_map, length_map] at hlength

theorem allListed_cancelled (hstates : services.policy.HasStates)
    (hready : q.Ready services.policy.queueStatuses) (hnodup : (entries.map Prod.fst).Nodup)
    (hentries : ∀ entry ∈ entries, entry ∈ q.allListed services.policy.queueStatuses ∧
      entry.2.status ∈ services.policy.pendingStates) (reason : String) :
    (q.cancelled services clock codec reason entries).allListed services.policy.queueStatuses =
      (q.allListed services.policy.queueStatuses).filter fun entry =>
        !(entries.map Prod.fst).contains entry.1 := by
  have h : LeavesOver services.policy.queueStatuses (fun entry => q.filesOf entry.1)
      (fun entry => entry.1 ∉ entries.map Prod.fst) q
      (q.cancelled services clock codec reason entries) :=
    leavesOver_cancelled hstates hready hnodup hentries reason
  rw [h.allListed_eq, ← filterMap_eq_filter]
  · refine filterMap_congr fun entry hentry => ?_
    by_cases hmem : entry.1 ∈ entries.map Prod.fst
    · rw [QueueState.listedUnder, h.gone entry hentry (not_not.mpr hmem)]
      have hin : (entries.map Prod.fst).contains entry.1 = true := contains_iff_mem.mpr hmem
      simp only [Option.guard, hin, Bool.not_true, Bool.false_eq_true, if_false, Option.map_none]
    · rw [QueueState.listedUnder, h.filesOf entry hentry hmem, (mem_allListed.mp hentry).2]
      have hout : (entries.map Prod.fst).contains entry.1 = false := by
        rw [Bool.eq_false_iff, Ne, contains_iff_mem]
        exact hmem
      simp only [Option.guard, hout, Bool.not_false, if_true, Option.map_some]
  · intro entry hentry _ run hrun
    rw [(mem_allListed.mp hentry).2] at hrun
    cases hrun
    rfl

variable (hkept : q.WellKept services.policy.queueStatuses codec clock)
  (hstates : services.policy.HasStates)
  (hlistable : q.Listable services.policy.queueStatuses)
include hkept hstates hlistable

theorem ready_afterReview :
    (q.afterReview services clock codec).Ready services.policy.queueStatuses :=
  (leavesOver_reviewed hkept hstates hlistable (take_sublist 1000 _)).ready

omit hkept hstates in
/-- The first two passes do not touch a run behind the newest thousand. -/
theorem listedUnder_afterReview_of_drop {entry : String × TaskRun}
    (hentry : entry ∈ (q.allListed services.policy.queueStatuses).drop 1000) :
    (q.afterReview services clock codec).listedUnder services.policy.queueStatuses entry.1 =
      some entry := by
  have hmem := mem_of_mem_drop hentry
  have hout := key_notMem_of_mem_drop (nodup_allListed _ q) hentry
  rw [QueueState.listedUnder, QueueState.afterReview, filesOf_reviewed_of_notMem hout,
    listedIn_indexed_of_mem hlistable hmem]
  rfl

theorem stateOf_listedUnder_afterReview {entry : String × TaskRun}
    (hentry : entry ∈ (q.allListed services.policy.queueStatuses).take 1000) :
    ((q.afterReview services clock codec).listedUnder services.policy.queueStatuses
      entry.1).map stateOf = open scoped Classical in if StaysOn services clock q entry then
        some (entry.1, entry.2.createdAt, leftStatus clock q entry) else none := by
  have hmem := mem_of_mem_take hentry
  have hwatched := watchedFiles_of_mem hkept hstates hlistable hmem
  rw [QueueState.listedUnder, QueueState.afterReview,
    filesOf_reviewed (take_sublist 1000 _) hentry, listedIn]
  split
  · rename_i hstays
    obtain ⟨run, hrun, halike, hstatus⟩ := (listed_filesAfter hkept hlistable hmem).1 hstays.2
    rw [hwatched.1 hstays, hrun]
    change some (entry.1, run.createdAt, run.status) = _
    rw [halike.createdAt, hstatus]
  · rename_i hleaves
    rw [hwatched.2 hleaves]
    rfl

theorem stateOf_afterReview :
    ((q.afterReview services clock codec).allListed services.policy.queueStatuses).map stateOf =
      (reviewedRuns services clock q).map stateOf := by
  set runs := q.allListed services.policy.queueStatuses with hruns
  have h := leavesOver_reviewed hkept hstates hlistable (take_sublist 1000 runs)
  have hsplit : runs.take 1000 ++ runs.drop 1000 = runs := take_append_drop 1000 runs
  have hlisted : (q.afterReview services clock codec).allListed services.policy.queueStatuses =
      runs.filterMap fun entry => (q.afterReview services clock codec).listedUnder
        services.policy.queueStatuses entry.1 := by
    refine h.allListed_eq fun entry hentry hleft run hrun => ?_
    split at hrun
    · rename_i hwindow
      obtain ⟨run', hrun', halike, -⟩ := (listed_filesAfter hkept hlistable hentry).1
        (hleft hwindow).2
      rw [listedIn, hrun'] at hrun
      obtain rfl := Option.some.inj (show some run' = some run from hrun)
      exact halike.createdAt
    · rw [listedIn_indexed_of_mem hlistable hentry] at hrun
      cases hrun
      rfl
  classical
  rw [hlisted, reviewedRuns, ← hruns, map_append, map_map, ← hsplit,
    filterMap_append, map_append, hsplit, filterMap_congr fun _ hentry =>
      listedUnder_afterReview_of_drop hlistable hentry, filterMap_some]
  congr 1
  rw [map_filterMap, filterMap_congr fun _ hentry =>
    stateOf_listedUnder_afterReview hkept hstates hlistable hentry, ← filterMap_eq_map,
    filterMap_filter]
  simp only [decide_eq_true_eq]
  rfl

theorem stateOf_afterExpiry :
    ((q.afterExpiry services clock codec).allListed services.policy.queueStatuses).map stateOf =
      (unexpiredRuns services clock q).map stateOf := by
  have hready : (q.afterReview services clock codec).Ready services.policy.queueStatuses :=
    ready_afterReview hkept hstates hlistable
  have hreviewed : ((q.afterReview services clock codec).allListed
      services.policy.queueStatuses).map stateOf = _ := stateOf_afterReview hkept hstates hlistable
  have hnodup := nodup_allListed services.policy.queueStatuses (q.afterReview services clock codec)
  rw [QueueState.afterExpiry]
  generalize q.afterReview services clock codec = q' at hready hreviewed hnodup ⊢
  set runs := q'.allListed services.policy.queueStatuses with hruns
  set overdue := overdueAmong services clock (runs.take 1000) with hoverdue
  have hsubset : overdue ⊆ runs.take 1000 := fun entry hentry => (mem_overdueAmong hentry).1
  have hids : ((runs.take 1000).map Prod.fst).Nodup :=
    hnodup.sublist ((take_sublist 1000 runs).map Prod.fst)
  have hfront : ∀ entry ∈ runs.take 1000, (!(overdue.map Prod.fst).contains entry.1) =
      !(services.policy.autoCancelExpired && isOverdue services.policy clock entry.2) := by
    intro entry hentry
    congr 1
    rw [Bool.eq_iff_iff, contains_iff_mem, mem_of_fst_mem (mem_of_mem_take hentry)
      (fun e he => mem_of_mem_take (hsubset he)), Bool.and_eq_true, hoverdue, overdueAmong]
    split
    · rename_i hauto
      simp only [hauto, true_and, oldestFirst, mem_insertionSort, mem_filter, hentry]
    · rename_i hauto
      simp [hauto]
  have hbehind : ∀ entry ∈ runs.drop 1000, (!(overdue.map Prod.fst).contains entry.1) = true := by
    intro entry hentry
    rw [Bool.not_eq_true', Bool.eq_false_iff, Ne, contains_iff_mem]
    exact fun hmem => key_notMem_of_mem_drop hnodup hentry (map_subset Prod.fst hsubset hmem)
  have hlisted : (q'.cancelled services clock codec "queue_wait_timeout_exceeded"
      overdue).allListed services.policy.queueStatuses =
        (runs.take 1000 ++ runs.drop 1000).filter fun entry =>
          !(overdue.map Prod.fst).contains entry.1 := by
    rw [take_append_drop]
    refine allListed_cancelled hstates hready (nodup_overdueAmong hids) (fun entry hentry => ?_) _
    exact ⟨mem_of_mem_take (hsubset hentry), (mem_overdueAmong hentry).2⟩
  rw [hlisted, filter_append, filter_congr hfront, filter_eq_self.mpr hbehind,
    unexpiredRuns, map_append, map_append]
  congr 1
  · refine map_stateOf_filter (r := fun state => !(services.policy.autoCancelExpired &&
      (services.policy.pendingStates.contains state.2.2 &&
        services.policy.maxWaitSeconds < ageSeconds clock state.2.1))) (fun _ => rfl) ?_
    rw [map_take, hreviewed, map_take]
  · rw [map_drop, hreviewed, map_drop]

variable (codec) in
theorem length_waiting_afterCapacity
    (hstrategy : services.policy.overflowStrategy = "cancel_oldest_pending") :
    (waitingInStore services.policy (q.afterCapacity services clock codec)).length +
        ((pendingRuns services.policy ((unexpiredRuns services clock q).take 1000)).length -
          services.policy.maxPendingTasks) =
      (pendingRuns services.policy (unexpiredRuns services clock q)).length := by
  have hready : (q.afterExpiry services clock codec).Ready services.policy.queueStatuses :=
    (leavesOver_afterExpiry hkept hstates hlistable).ready
  have hstates' : ((q.afterExpiry services clock codec).allListed
      services.policy.queueStatuses).map stateOf = _ := stateOf_afterExpiry hkept hstates hlistable
  have hnodup := nodup_allListed services.policy.queueStatuses (q.afterExpiry services clock codec)
  rw [QueueState.afterCapacity]
  generalize q.afterExpiry services clock codec = q' at hready hstates' hnodup ⊢
  set runs := q'.allListed services.policy.queueStatuses with hruns
  have htake : ((runs.take 1000).map stateOf) =
      ((unexpiredRuns services clock q).take 1000).map stateOf := by
    rw [map_take, hstates', map_take]
  have hoverflow : ∀ entry ∈ overflowAmong services (runs.take 1000),
      entry ∈ runs ∧ entry.2.status ∈ services.policy.pendingStates := fun entry hentry =>
    ⟨mem_of_mem_take (mem_overflowAmong hentry).1, (mem_overflowAmong hentry).2⟩
  have hids : ((overflowAmong services (runs.take 1000)).map Prod.fst).Nodup :=
    nodup_overflowAmong (hnodup.sublist ((take_sublist 1000 runs).map Prod.fst))
  have hpending : ((pendingRuns services.policy runs).map Prod.fst).Nodup :=
    hnodup.sublist (List.filter_sublist.map Prod.fst)
  have hsubset : (overflowAmong services (runs.take 1000)).map Prod.fst ⊆
      (pendingRuns services.policy runs).map Prod.fst := by
    intro runId hrunId
    obtain ⟨entry, hentry, rfl⟩ := mem_map.mp hrunId
    obtain ⟨hmem, hstatus⟩ := hoverflow entry hentry
    exact mem_map.mpr
      ⟨entry, mem_filter.mpr ⟨hmem, contains_iff_mem.mpr hstatus⟩, rfl⟩
  have hleft : waitingInStore services.policy (q'.cancelled services clock codec
      "queue_capacity_exceeded" (overflowAmong services (runs.take 1000))) =
        (pendingRuns services.policy runs).filter fun entry =>
          !((overflowAmong services (runs.take 1000)).map Prod.fst).contains entry.1 := by
    rw [waitingInStore, allListed_cancelled hstates hready hids hoverflow, pendingRuns,
      filter_filter, pendingRuns, filter_filter]
    exact filter_congr fun entry _ => Bool.and_comm _ _
  have hcount := length_filter_keys hpending hids hsubset
  have hlength : (overflowAmong services (runs.take 1000)).length =
      (pendingRuns services.policy (runs.take 1000)).length - services.policy.maxPendingTasks := by
    rw [overflowAmong, if_pos hstrategy, overflowRuns, length_take, oldestFirst,
      length_insertionSort]
    omega
  rw [hleft, ← length_pendingRuns_congr htake, ← length_pendingRuns_congr hstates', ← hlength]
  rw [length_map] at hcount
  exact hcount

theorem runs_reconcile (henabled : services.policy.enabled = true) :
    ((reconcile services clock).run (queueHandler codec) q).2.runs =
      (q.afterCapacity services clock codec).runs := by
  have hready : (q.afterCapacity services clock codec).Ready services.policy.queueStatuses := by
    refine (leavesOver_cancelled hstates (leavesOver_afterExpiry hkept hstates hlistable).ready
      (nodup_overflowAmong ?_) (fun entry hentry => ?_) _).ready
    · exact (nodup_allListed _ _).sublist ((take_sublist 1000 _).map Prod.fst)
    · exact ⟨mem_of_mem_take (mem_overflowAmong hentry).1, (mem_overflowAmong hentry).2⟩
  obtain ⟨report, hpasses⟩ := run_reconcilePasses_take clock codec hkept hstates hlistable
  rw [reconcile, if_pos henabled, Program.run_bind_of_ok _ (congrArg Prod.fst hpasses), hpasses,
    snd_run_bind_pure]
  have hlist := run_listQueueRuns_take codec hready
  rw [buildSnapshot, Program.run_bind_of_ok _ (congrArg Prod.fst hlist), hlist]
  have hitems := readsAlike_snapshotItems services.policy clock codec
    (((q.afterCapacity services clock codec).allListed services.policy.queueStatuses).take 1000)
    (q.afterCapacity services clock codec)
  cases hresult : ((snapshotItems services.policy clock
      (((q.afterCapacity services clock codec).allListed
        services.policy.queueStatuses).take 1000)).run (queueHandler codec)
          (q.afterCapacity services clock codec)).1 with
  | error e =>
    rw [Program.run_bind_of_error _ hresult]
    exact hitems.runs
  | ok items =>
    rw [Program.run_bind_of_ok _ hresult]
    exact hitems.runs

variable (codec) in
theorem waitingInStore_reconcile (henabled : services.policy.enabled = true) :
    waitingInStore services.policy ((reconcile services clock).run (queueHandler codec) q).2 =
      waitingInStore services.policy (q.afterCapacity services clock codec) := by
  have hlisted : ∀ q₁ q₂ : QueueState, q₁.runs = q₂.runs →
      waitingInStore services.policy q₁ = waitingInStore services.policy q₂ := by
    rintro ⟨runs, approvals⟩ ⟨_, approvals'⟩ rfl
    rfl
  exact hlisted _ _ (runs_reconcile hkept hstates hlistable henabled)

/-- A reconciliation keeps the bound on waiting runs exactly if not too many wait, or none
behind the newest thousand. -/
theorem keepsCapacity_iff_waitingSeen (henabled : services.policy.enabled = true)
    (hstrategy : services.policy.overflowStrategy = "cancel_oldest_pending") :
    KeepsCapacity services clock codec q ↔ WaitingSeen services clock q := by
  have hlength := length_waiting_afterCapacity codec hkept hstates hlistable hstrategy
  have hwaiting := waitingInStore_reconcile codec hkept hstates hlistable henabled
  have hsplit : (pendingRuns services.policy (unexpiredRuns services clock q)).length =
      (pendingRuns services.policy ((unexpiredRuns services clock q).take 1000)).length +
        (pendingRuns services.policy ((unexpiredRuns services clock q).drop 1000)).length := by
    rw [← length_append, pendingRuns, pendingRuns, pendingRuns, ← filter_append, take_append_drop]
  constructor
  · intro h
    have hbound := h.bound
    rw [hwaiting] at hbound
    rw [WaitingSeen, ← length_eq_zero_iff]
    omega
  · intro h
    rw [WaitingSeen, ← length_eq_zero_iff] at h
    have hstates' : ((q.afterExpiry services clock codec).allListed
        services.policy.queueStatuses).map stateOf = _ :=
      stateOf_afterExpiry hkept hstates hlistable
    obtain ⟨report, hage⟩ := run_beforeExpiry clock codec hkept hstates hlistable
    obtain ⟨report', hcapacity⟩ := run_beforeCapacity clock codec hkept hstates hlistable
    refine ⟨?_, ?_, ?_⟩
    · rw [hwaiting]
      omega
    · rw [cancelledForCapacity, hcapacity]
      dsimp only [seenRuns]
      rw [overflowAmong, if_pos hstrategy, overflowRuns, oldestExcess, waitingInStore]
      generalize (q.afterExpiry services clock codec).allListed services.policy.queueStatuses =
        runs at hstates' ⊢
      have hall : (pendingRuns services.policy runs).length = _ := length_pendingRuns_congr hstates'
      have hseen : (pendingRuns services.policy (runs.take 1000)).length =
          (pendingRuns services.policy ((unexpiredRuns services clock q).take 1000)).length :=
        length_pendingRuns_congr (by rw [map_take, hstates', map_take])
      have hstart : pendingRuns services.policy (runs.take 1000) <+:
          pendingRuns services.policy runs := ( take_prefix 1000 runs).filter _
      rcases h with hfew | hnone
      · rw [Nat.sub_eq_zero_of_le (by omega), Nat.sub_eq_zero_of_le (by omega), take_zero,
          take_zero]
      · rw [hstart.eq_of_length (by omega)]
    · have hpending : ∀ status ∈ services.policy.pendingStates, status ≠ .running := by
        rw [hstates.pending]
        decide
      intro entry hentry
      rcases mem_append.mp hentry with hentry | hentry
      · exact hpending _ (mem_overdueAmong hentry).2
      · exact hpending _ (mem_overflowAmong hentry).2

end Stages

section Crowded

variable (n : ℕ)

/-- A queued run that waits for no approval, created at the same time as the others. -/
def crowdedRun : TaskRun :=
  { sampleRun [] with runId := String.ofList ("task_run_".toList ++ List.replicate n '1') }

def crowdedEntries : List (String × RunFiles) :=
  (List.range n).map fun m => ((crowdedRun m).runId, sampleFiles (crowdedRun m))

theorem nodup_crowdedEntries : ((crowdedEntries n).map Prod.fst).Nodup := by
  rw [crowdedEntries, map_map]
  exact List.nodup_range.map (padded_injective "task_run_" '1')

def crowdedQueue : QueueState :=
  ⟨⟨crowdedEntries n, nodup_crowdedEntries n⟩, ⟨[], List.nodup_nil⟩⟩

theorem listed_crowdedEntry (m : ℕ) :
    listed sampleQueueServices.policy.queueStatuses (sampleFiles (crowdedRun m)) =
      .ok (some (crowdedRun m).projected) := by
  rfl

theorem filesOf_crowdedQueue {m n : ℕ} (h : m < n) :
    (crowdedQueue n).filesOf (crowdedRun m).runId = sampleFiles (crowdedRun m) := by
  have hget : (crowdedQueue n).runs.get? (crowdedRun m).runId = some (sampleFiles (crowdedRun m)) :=
    Table.get?_eq_some_iff.mpr (mem_map.mpr ⟨m, mem_range.mpr h, rfl⟩)
  rw [QueueState.filesOf, hget]
  rfl

theorem listable_crowdedQueue :
    (crowdedQueue n).Listable sampleQueueServices.policy.queueStatuses := by
  intro runId hrunId
  obtain ⟨e, he, rfl⟩ := mem_map.mp hrunId
  obtain ⟨m, hm, rfl⟩ := mem_map.mp he
  refine ⟨(crowdedRun m).projected, ?_⟩
  rw [filesOf_crowdedQueue (mem_range.mp hm)]
  exact listed_crowdedEntry m

theorem mem_crowdedQueue {n : ℕ} {entry : String × TaskRun}
    (h : entry ∈ (crowdedQueue n).allListed sampleQueueServices.policy.queueStatuses) :
    ∃ m < n, entry = ((crowdedRun m).runId, (crowdedRun m).projected) := by
  obtain ⟨hname, hlisted⟩ := mem_allListed.mp h
  obtain ⟨e, he, hfst⟩ := mem_map.mp hname
  obtain ⟨m, hm, rfl⟩ := mem_map.mp he
  refine ⟨m, mem_range.mp hm, Prod.ext hfst.symm ?_⟩
  rw [← hfst, filesOf_crowdedQueue (mem_range.mp hm), listedIn, listed_crowdedEntry] at hlisted
  exact (Option.some.inj hlisted).symm

theorem length_crowdedQueue :
    ((crowdedQueue n).allListed sampleQueueServices.policy.queueStatuses).length = n := by
  have hfound : (crowdedEntries n).filterMap
      (listedEntry sampleQueueServices.policy.queueStatuses) =
        (List.range n).map fun m => ((crowdedRun m).runId, (crowdedRun m).projected) := by
    rw [crowdedEntries, filterMap_map, ← filterMap_eq_map]
    rfl
  rw [allListed_eq, newestFirst, length_insertionSort, crowdedQueue]
  dsimp only
  rw [hfound, length_map, length_range]

/-- No approval is waited for, and no run has waited too long. -/
theorem crowded_stays {n : ℕ} {entry : String × TaskRun}
    (h : entry ∈ (crowdedQueue n).allListed sampleQueueServices.policy.queueStatuses) :
    StaysOn sampleQueueServices sampleClock (crowdedQueue n) entry ∧
      leftStatus sampleClock (crowdedQueue n) entry = entry.2.status ∧
      isOverdue sampleQueueServices.policy sampleClock entry.2 = false := by
  obtain ⟨m, -, rfl⟩ := mem_crowdedQueue h
  have hskip : repairOf sampleClock (crowdedQueue n).approvals (crowdedRun m).projected = .skip :=
    rfl
  refine ⟨⟨fun hstalls => ?_, .inl hskip⟩, ?_, rfl⟩
  · have hactive := hstalls.1
    rw [hskip] at hactive
    revert hactive
    exact (by decide : TaskRunStatus.queued ∉ sampleQueueServices.policy.activeStates)
  · rw [leftStatus, hskip]
    rfl

open scoped Classical in
theorem unexpiredRuns_crowdedQueue :
    unexpiredRuns sampleQueueServices sampleClock (crowdedQueue n) =
      (crowdedQueue n).allListed sampleQueueServices.policy.queueStatuses := by
  set runs := (crowdedQueue n).allListed sampleQueueServices.policy.queueStatuses with hruns
  have hstays := fun (entry : String × TaskRun) (hentry : entry ∈ runs) => crowded_stays hentry
  have hreviewed : reviewedRuns sampleQueueServices sampleClock (crowdedQueue n) = runs := by
    rw [reviewedRuns, ← hruns]
    dsimp only
    rw [filter_eq_self.mpr fun entry hentry =>
        decide_eq_true (hstays entry (mem_of_mem_take hentry)).1,
      map_congr_left (g := id) fun entry hentry => ?_, map_id, take_append_drop]
    rw [(hstays entry (mem_of_mem_take hentry)).2.1]
    rfl
  rw [unexpiredRuns, hreviewed, filter_eq_self.mpr fun entry hentry => ?_, take_append_drop]
  rw [(hstays entry (mem_of_mem_take hentry)).2.2, Bool.and_false]
  rfl

theorem pendingRuns_crowdedQueue {n : ℕ} {runs : List (String × TaskRun)}
    (h : runs ⊆ (crowdedQueue n).allListed sampleQueueServices.policy.queueStatuses) :
    pendingRuns sampleQueueServices.policy runs = runs := by
  refine filter_eq_self.mpr fun entry hentry => ?_
  obtain ⟨m, -, rfl⟩ := mem_crowdedQueue (h hentry)
  rfl

theorem wellKept_crowdedQueue (codec : Codec) (n : ℕ) :
    (crowdedQueue n).WellKept sampleQueueServices.policy.queueStatuses codec sampleClock := by
  have hwaits : ∀ m, (crowdedRun m).projected.status ≠ .running := fun _ => nofun
  refine ⟨fun entry h => ?_, fun entry h hrunning => ?_, fun entry h hrunning => ?_⟩
  all_goals obtain ⟨m, -, rfl⟩ := mem_crowdedQueue h
  · have hcreated : sanitizeText "2026-01-01T00:00:00Z" = "2026-01-01T00:00:00Z" := by
      decide
    exact ⟨hcreated, rfl⟩
  · exact absurd hrunning (hwaits m)
  · exact absurd hrunning (hwaits m)

/-- Thirty waiting runs are all seen, and the five that are too many are cancelled. -/
theorem thirty_runs_keep_bound :
    KeepsCapacity sampleQueueServices sampleClock sampleServices.codec (crowdedQueue 30) := by
  refine (keepsCapacity_iff_waitingSeen (wellKept_crowdedQueue _ 30) ⟨rfl, rfl⟩
    (listable_crowdedQueue 30) rfl rfl).mpr (.inr ?_)
  rw [unexpiredRuns_crowdedQueue, drop_eq_nil_of_le]
  · rfl
  · rw [length_crowdedQueue]
    decide

/-- Of a thousand and one waiting runs one is not seen, and twenty-six are left. -/
theorem hidden_run_exceeds_bound :
    ¬KeepsCapacity sampleQueueServices sampleClock sampleServices.codec (crowdedQueue 1001) := by
  have hkept := wellKept_crowdedQueue sampleServices.codec 1001
  have hlength := length_waiting_afterCapacity _ hkept ⟨rfl, rfl⟩ (listable_crowdedQueue 1001) rfl
  rw [unexpiredRuns_crowdedQueue, pendingRuns_crowdedQueue (take_subset _ _),
    pendingRuns_crowdedQueue (List.Subset.refl _), length_take, length_crowdedQueue] at hlength
  have hwaiting := waitingInStore_reconcile _ hkept ⟨rfl, rfl⟩ (listable_crowdedQueue 1001) rfl
  intro h
  have hbound := h.bound
  rw [hwaiting] at hbound
  have hmax : sampleQueueServices.policy.maxPendingTasks = 25 := rfl
  rw [hmax] at hlength hbound
  omega

end Crowded

end AIpinho.Queue
