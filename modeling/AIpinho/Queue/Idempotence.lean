import AIpinho.Queue.Leftovers

/-!
# When a second reconciliation changes nothing

The passes of a reconciliation are repeated by the next one. A run that stays in the queue with
an approved approval is resumed again and again, and a running run whose approval is gone is
asked to stop again and again. This file says for which queues a second reconciliation at the
same time changes nothing.
-/

namespace AIpinho.Queue

open List Lib AIpinho.Runtime AIpinho.Approvals

section Snapshot

variable (policy : TaskQueuePolicy) (clock : Clock) (codec : Codec) {q : QueueState}

/-- The approvals of one queue read like those of another, and what no reader would write
there no reader writes here. -/
structure ReadsAlike (q q' : QueueState) : Prop where
  runs : q'.runs = q.runs
  current : ∀ approvalId,
    q'.approvals.current clock approvalId = q.approvals.current clock approvalId
  fresh : ∀ approvalId, q.approvals.Fresh clock approvalId →
    q'.approvals.Fresh clock approvalId

theorem readsAlike_touch (q : QueueState) (approvalId : String) :
    ReadsAlike clock q { q with approvals := q.approvals.touch clock approvalId } :=
  ⟨rfl, fun _ => ApprovalTable.current_touch clock _ _ _, fun _ h => h.touch approvalId⟩

theorem snd_run_bind_pure {α β : Type} (f : α → β) (p : QueueProgram α) (q : QueueState) :
    ((p >>= fun a => (pure (f a) : QueueProgram β)).run (queueHandler codec) q).2 =
      (p.run (queueHandler codec) q).2 :=
  congrArg Prod.snd (Program.run_map (queueHandler codec) f p q)

theorem run_snapshotItem (entry : String × TaskRun) (q : QueueState) :
    (snapshotItem policy clock entry).run (queueHandler codec) q =
      if entry.2.approvalId.getD "" = "" then (.ok (queueItem policy clock entry none), q)
      else
        ((q.approvals.current clock (entry.2.approvalId.getD "")).map fun approval =>
            queueItem policy clock entry
              (some (approval.elim "missing" fun approval => approval.status.text)),
          { q with approvals := q.approvals.touch clock (entry.2.approvalId.getD "") }) := by
  rw [snapshotItem]
  split
  · rfl
  · have hread : (onApprovals (getApproval clock (entry.2.approvalId.getD ""))).run
        (queueHandler codec) q = (q.approvals.current clock (entry.2.approvalId.getD ""),
          { q with approvals := q.approvals.touch clock (entry.2.approvalId.getD "") }) := by
      rw [run_onApprovals, ApprovalTable.run_getApproval]
    cases hcurrent : q.approvals.current clock (entry.2.approvalId.getD "") with
    | error e =>
      rw [hcurrent] at hread
      rw [Program.run_bind_of_error _ (congrArg Prod.fst hread), hread]
      rfl
    | ok found =>
      rw [hcurrent] at hread
      rw [Program.run_bind_of_ok _ (congrArg Prod.fst hread), hread]
      cases found <;> rfl

theorem readsAlike_snapshotItem (entry : String × TaskRun) (q : QueueState) :
    ReadsAlike clock q ((snapshotItem policy clock entry).run (queueHandler codec) q).2 := by
  rw [run_snapshotItem]
  split
  · exact ⟨rfl, fun _ => rfl, fun _ h => h⟩
  · exact readsAlike_touch clock q _

variable {clock} in
theorem ReadsAlike.trans {q' q'' : QueueState} (h : ReadsAlike clock q q')
    (h' : ReadsAlike clock q' q'') : ReadsAlike clock q q'' :=
  ⟨h'.runs.trans h.runs, fun approvalId => (h'.current approvalId).trans (h.current approvalId),
    fun approvalId hfresh => h'.fresh approvalId (h.fresh approvalId hfresh)⟩

theorem readsAlike_snapshotItems (entries : List (String × TaskRun)) (q : QueueState) :
    ReadsAlike clock q ((snapshotItems policy clock entries).run (queueHandler codec) q).2 := by
  induction entries generalizing q with
  | nil => exact ⟨rfl, fun _ => rfl, fun _ h => h⟩
  | cons entry entries ih =>
    rw [snapshotItems]
    split
    · exact ih q
    · have hitem := readsAlike_snapshotItem policy clock codec entry q
      cases hresult : ((snapshotItem policy clock entry).run (queueHandler codec) q).1 with
      | error e =>
        rw [Program.run_bind_of_error _ hresult]
        exact hitem
      | ok item =>
        rw [Program.run_bind_of_ok _ hresult]
        refine hitem.trans ?_
        rw [snd_run_bind_pure]
        exact ih _

theorem snapshotItem_again {entry : String × TaskRun} {q' : QueueState}
    (h : ReadsAlike clock ((snapshotItem policy clock entry).run (queueHandler codec) q).2 q') :
    (snapshotItem policy clock entry).run (queueHandler codec) q' =
      (((snapshotItem policy clock entry).run (queueHandler codec) q).1, q') := by
  rw [run_snapshotItem] at h ⊢
  rw [run_snapshotItem]
  split
  · rfl
  · rename_i hlinked
    rw [if_neg hlinked] at h
    have hfresh := h.fresh _ (ApprovalTable.fresh_touch_self clock _ q.approvals)
    have hcurrent := h.current (entry.2.approvalId.getD "")
    rw [ApprovalTable.current_touch] at hcurrent
    rw [hcurrent, ApprovalTable.touch_of_fresh hfresh]

theorem snapshotItems_again {entries : List (String × TaskRun)} {q' : QueueState}
    (h : ReadsAlike clock ((snapshotItems policy clock entries).run (queueHandler codec) q).2 q') :
    ((snapshotItems policy clock entries).run (queueHandler codec) q').2 = q' := by
  induction entries generalizing q with
  | nil => rfl
  | cons entry entries ih =>
    rw [snapshotItems] at h ⊢
    split at h
    · rename_i hterminal
      rw [if_pos hterminal]
      exact ih h
    · rename_i hterminal
      rw [if_neg hterminal]
      cases hresult : ((snapshotItem policy clock entry).run (queueHandler codec) q).1 with
      | error e =>
        rw [Program.run_bind_of_error _ hresult] at h
        have hagain := snapshotItem_again policy clock codec h
        rw [hresult] at hagain
        rw [Program.run_bind_of_error _ (congrArg Prod.fst hagain), hagain]
      | ok item =>
        rw [Program.run_bind_of_ok _ hresult] at h
        rw [snd_run_bind_pure] at h
        have hitem := (readsAlike_snapshotItems policy clock codec entries _).trans h
        have hagain := snapshotItem_again policy clock codec hitem
        rw [hresult] at hagain
        rw [Program.run_bind_of_ok _ (congrArg Prod.fst hagain), hagain, snd_run_bind_pure]
        exact ih h

end Snapshot

section Again

variable {services : QueueServices} {clock : Clock} {codec : Codec} {q : QueueState}
  {entry : String × TaskRun} {run' : TaskRun}

theorem linkedApproval_of_staysOn (hstates : services.policy.HasStates)
    (hstays : StaysOn services clock q entry) (halike : TaskRun.Alike entry.2 run')
    (hstatus : run'.status = leftStatus clock q entry) :
    linkedApproval run' = linkedApproval entry.2 := by
  have hterminal : run'.status.isTerminal = entry.2.status.isTerminal := by
    rw [hstatus]
    by_cases hskip : repairOf clock q.approvals entry.2 = .skip
    · rw [leftStatus, hskip]
      rfl
    · rw [not_isTerminal_of_repair hskip]
      by_contra h
      rw [Bool.not_eq_false] at h
      exact hstates.notMem_of_isTerminal h (hstays.2.resolve_left hskip)
  rw [linkedApproval, linkedApproval, hterminal, halike.approvalId]

variable {approvals : ApprovalTable} {approvalId : String}

variable {run : TaskRun}

theorem repairOf_of_current (hlinked : linkedApproval run = some approvalId)
    {approval : Option ApprovalRequest}
    (hcurrent : approvals.current clock approvalId = .ok approval) :
    repairOf clock approvals run = repairFor approvalId run approval := by
  rw [repairOf, hlinked]
  simp only [hcurrent]

theorem repairOf_of_error {e : String} (hlinked : linkedApproval run = some approvalId)
    (hcurrent : approvals.current clock approvalId = .error e) :
    repairOf clock approvals run = .skip := by
  rw [repairOf, hlinked]
  simp only [hcurrent]

theorem repairOf_of_not_linked (hlinked : linkedApproval run = none) :
    repairOf clock approvals run = .skip := by
  rw [repairOf, hlinked]

theorem repairFor_pending {approval : ApprovalRequest} (hpending : approval.status = .pending) :
    repairFor approvalId run (some approval) =
      if run.status = .created ∨ run.status = .queued then .await approvalId else .skip := by
  simp only [repairFor, hpending]

theorem isRepeated_repairFor {approval : Option ApprovalRequest}
    (h : ∀ a, approval = some a → a.status ≠ .pending ∧ a.status ≠ .rejected) :
    (repairFor approvalId run approval).IsRepeated := by
  cases approval with
  | none => trivial
  | some a =>
    obtain ⟨hpending, hrejected⟩ := h a rfl
    cases hstatus : a.status with
    | pending => exact absurd hstatus hpending
    | rejected => exact absurd hstatus hrejected
    | approved =>
      simp only [repairFor, hstatus]
      trivial
    | cancelled =>
      simp only [repairFor, hstatus]
      trivial
    | expired =>
      simp only [repairFor, hstatus]
      trivial
    | invalidatedByPolicyChange =>
      simp only [repairFor, hstatus]
      trivial

variable (hkept : q.WellKept services.policy.queueStatuses codec clock)
  (hstates : services.policy.HasStates)
  (hlistable : q.Listable services.policy.queueStatuses)
include hkept hstates hlistable

/-- The second pass over the approvals cancels or resumes the run, or leaves it as it is. -/
theorem repairOf_again (hstays : StaysOn services clock q entry)
    (halike : TaskRun.Alike entry.2 run')
    (hstatus : run'.status = leftStatus clock q entry) :
    (Repeats services clock q (q.allListed services.policy.queueStatuses) entry →
        (repairOf clock (q.afterPasses services clock codec).approvals run').IsRepeated) ∧
      (¬Repeats services clock q (q.allListed services.policy.queueStatuses) entry →
        repairOf clock (q.afterPasses services clock codec).approvals run' = .skip) := by
  have hlinks := linkedApproval_of_staysOn hstates hstays halike hstatus
  cases hlinked : linkedApproval entry.2 with
  | none =>
    have hfirst : repairOf clock q.approvals entry.2 = .skip := repairOf_of_not_linked hlinked
    refine ⟨?_, fun _ => repairOf_of_not_linked (hlinks.trans hlinked)⟩
    rintro (h | ⟨approvalId, h, -⟩)
    · rw [hfirst] at h
      exact h.elim
    · rw [hlinked] at h
      cases h
  | some approvalId =>
    rw [hlinked] at hlinks
    obtain ⟨hcancelled, hsame⟩ := current_afterPasses hkept hstates hlistable approvalId
    by_cases hboth : IsPending clock q.approvals approvalId ∧ approvalId ∈ linksOf services.policy
          (overdueRuns services clock q (q.allListed services.policy.queueStatuses) ++
            excessRuns services clock q (q.allListed services.policy.queueStatuses))
    · obtain ⟨approval, hclosed, hcurrent⟩ := hcancelled hboth
      refine ⟨fun _ => ?_, fun h => absurd (.inr ⟨approvalId, hlinked, hboth⟩) h⟩
      rw [repairOf_of_current hlinks hcurrent]
      refine isRepeated_repairFor ?_
      rintro a ⟨⟩
      rw [hclosed]
      exact ⟨by decide, by decide⟩
    · have hcurrent := hsame hboth
      have hnot : Repeats services clock q (q.allListed services.policy.queueStatuses) entry →
          (repairOf clock q.approvals entry.2).IsRepeated := by
        rintro (h | ⟨approvalId', h, hpending, hmem⟩)
        · exact h
        · rw [hlinked] at h
          cases h
          exact absurd ⟨hpending, hmem⟩ hboth
      cases hread : q.approvals.current clock approvalId with
      | error e =>
        have hfirst : repairOf clock q.approvals entry.2 = .skip := repairOf_of_error hlinked hread
        refine ⟨fun h => ?_, fun _ => repairOf_of_error hlinks (hcurrent.trans hread)⟩
        have hrepeated := hnot h
        rw [hfirst] at hrepeated
        exact hrepeated.elim
      | ok found =>
        have hfirst := repairOf_of_current hlinked hread
        rw [repairOf_of_current hlinks (hcurrent.trans hread)]
        by_cases hopen : ∃ a, found = some a ∧ a.status = .pending
        · obtain ⟨a, rfl, hpending⟩ := hopen
          rw [repairFor_pending hpending] at hfirst ⊢
          have hskip : ¬(run'.status = .created ∨ run'.status = .queued) := by
            rw [hstatus, leftStatus, hfirst]
            split
            · simp [Repair.leaves]
            · rename_i hwaiting
              exact hwaiting
          rw [if_neg hskip]
          refine ⟨fun h => ?_, fun _ => rfl⟩
          have hrepeated := hnot h
          rw [hfirst] at hrepeated
          split at hrepeated
          · exact hrepeated.elim
          · exact hrepeated.elim
        · by_cases hdenied : ∃ a, found = some a ∧ a.status = .rejected
          · obtain ⟨a, rfl, hrejected⟩ := hdenied
            simp only [repairFor, hrejected] at hfirst
            have hblocked : leftStatus clock q entry = .blocked := by
              rw [leftStatus, hfirst]
              rfl
            rcases hstays.2 with hskip | hmem
            · rw [hfirst] at hskip
              cases hskip
            · rw [hblocked] at hmem
              exact absurd hmem (hstates.notMem_of_isTerminal rfl)
          · have hrepeated : ∀ run, (repairFor approvalId run found).IsRepeated := fun run =>
              isRepeated_repairFor fun a ha =>
                ⟨fun h => hopen ⟨a, ha, h⟩, fun h => hdenied ⟨a, ha, h⟩⟩
            refine ⟨fun _ => hrepeated _, fun h => absurd (.inl ?_) h⟩
            rw [hfirst]
            exact hrepeated _

end Again

/-- A queue in which a reconciliation finds nothing to do. -/
structure IsQuiet (services : QueueServices) (clock : Clock) (codec : Codec) (q : QueueState) :
    Prop where
  ready : q.Ready services.policy.queueStatuses
  limit : (q.allListed services.policy.queueStatuses).length ≤ 1000
  skip : ∀ entry ∈ q.allListed services.policy.queueStatuses,
    repairOf clock q.approvals entry.2 = .skip
  fresh : ∀ entry ∈ q.allListed services.policy.queueStatuses, ∀ approvalId,
    linkedApproval entry.2 = some approvalId → q.approvals.Fresh clock approvalId
  watch : ∀ entry ∈ q.allListed services.policy.queueStatuses,
    entry.2.status ∈ services.policy.activeStates → ∃ result,
      (artifactWatch services clock).run (runHandler codec entry.1) (q.filesOf entry.1) =
        (.ok result, q.filesOf entry.1)
  overdue : overdueListed services clock q = []
  overflow : overflowListed services q = []

section Quiet

variable {services : QueueServices} {clock : Clock} {codec : Codec} {q : QueueState}

theorem renewAll_eq_self {files : String × TaskRun → RunFiles → RunFiles}
    {approvals : String × TaskRun → ApprovalTable → ApprovalTable}
    {entries : List (String × TaskRun)}
    (h : ∀ entry ∈ entries, files entry (q.filesOf entry.1) = q.filesOf entry.1 ∧
      approvals entry q.approvals = q.approvals) : q.renewAll files approvals entries = q := by
  induction entries with
  | nil => rfl
  | cons entry entries ih =>
    rw [forall_mem_cons] at h
    have hself : q.renew files approvals entry = q := by
      rw [QueueState.renew, h.1.1, h.1.2, QueueState.setFiles_filesOf]
    calc q.renewAll files approvals (entry :: entries)
        = (q.renew files approvals entry).renewAll files approvals entries := rfl
      _ = q.renewAll files approvals entries := by rw [hself]
      _ = q := ih h.2

theorem repairAll_eq_self {entries : List (String × TaskRun)}
    (h : ∀ entry ∈ entries, repairOf clock q.approvals entry.2 = .skip ∧ ∀ approvalId,
      linkedApproval entry.2 = some approvalId → q.approvals.Fresh clock approvalId) :
    q.repairAll clock codec entries = q := by
  induction entries with
  | nil => rfl
  | cons entry entries ih =>
    rw [forall_mem_cons] at h
    have hfiles : filesAfter codec clock q entry = q.filesOf entry.1 := by
      rw [filesAfter, h.1.1]
      rfl
    have htouch : touchLinked clock entry.2 q.approvals = q.approvals := by
      rw [touchLinked]
      split
      · rfl
      · rename_i approvalId hlinked
        exact ApprovalTable.touch_of_fresh (h.1.2 approvalId hlinked)
    have hself : q.repair codec clock entry = q := by
      rw [QueueState.repair, hfiles, htouch, QueueState.setFiles_filesOf]
    calc q.repairAll clock codec (entry :: entries)
        = (q.repair codec clock entry).repairAll clock codec entries := rfl
      _ = q.repairAll clock codec entries := by rw [hself]
      _ = q := ih h.2

theorem copyAfter_of_skip {entry : String × TaskRun}
    (h : repairOf clock q.approvals entry.2 = .skip) : copyAfter codec clock q entry = entry := by
  rw [copyAfter, h]
  rfl

variable (codec) in
theorem run_buildSnapshot_of_fresh (hready : q.Ready services.policy.queueStatuses)
    (hlimit : (q.allListed services.policy.queueStatuses).length ≤ 1000)
    (hfresh : ∀ entry ∈ q.allListed services.policy.queueStatuses, ∀ approvalId,
      linkedApproval entry.2 = some approvalId → q.approvals.Fresh clock approvalId)
    (warnings : List String) :
    ((buildSnapshot services clock warnings).run (queueHandler codec) q).2 = q := by
  have hitem : ∀ entry ∈ q.allListed services.policy.queueStatuses,
      entry.2.status.isTerminal = false →
        (snapshotItem services.policy clock entry).Keeps (queueHandler codec) (· = q) := by
    rintro entry hentry hopen q' rfl
    rw [run_snapshotItem]
    split
    · rfl
    · rename_i hlinked
      have hsome : linkedApproval entry.2 = some (entry.2.approvalId.getD "") := by
        rw [linkedApproval, if_neg]
        rw [hopen, not_or]
        exact ⟨by decide, hlinked⟩
      rw [ApprovalTable.touch_of_fresh (hfresh entry hentry _ hsome)]
  have hitems : ∀ entries ⊆ q.allListed services.policy.queueStatuses,
      (snapshotItems services.policy clock entries).Keeps (queueHandler codec) (· = q) := by
    intro entries hsubset
    induction entries with
    | nil => exact Program.keeps_done _
    | cons entry entries ih =>
      rw [cons_subset] at hsubset
      rw [snapshotItems]
      split
      · exact ih hsubset.2
      · rename_i hopen
        exact (hitem entry hsubset.1 (by simpa using hopen)).bind fun _ =>
          (ih hsubset.2).bind fun _ => Program.keeps_done _
  have hlist := run_listQueueRuns_of_ready codec hready hlimit
  rw [buildSnapshot, Program.run_bind_of_ok _ (congrArg Prod.fst hlist), hlist]
  exact (hitems _ (List.Subset.refl _)).bind (fun _ => Program.keeps_done _) q rfl

/-- A reconciliation leaves a quiet queue as it is. -/
theorem IsQuiet.run_reconcile (hstates : services.policy.HasStates)
    (h : IsQuiet services clock codec q) :
    ((reconcile services clock).run (queueHandler codec) q).2 = q := by
  have hsnapshot := run_buildSnapshot_of_fresh codec h.ready h.limit h.fresh
  rw [reconcile]
  split
  · have hlist := run_listQueueRuns_of_ready codec h.ready h.limit
    have hhas : ∀ entry ∈ q.allListed services.policy.queueStatuses, q.HasRun entry.1 :=
      fun entry hentry => hasRun_iff_mem_names.mpr (mem_allListed.mp hentry).1
    obtain ⟨report₁, hrepairs⟩ := run_reconcileApprovalStates services clock codec
      (nodup_allListed services.policy.queueStatuses q) hhas ⟨[], [], []⟩
    have hcopies : (q.allListed services.policy.queueStatuses).map (copyAfter codec clock q) =
        q.allListed services.policy.queueStatuses := by
      refine (map_congr_left fun entry hentry => ?_).trans (map_id _)
      exact copyAfter_of_skip (h.skip entry hentry)
    have hrepaired : q.repairAll clock codec (q.allListed services.policy.queueStatuses) = q :=
      repairAll_eq_self fun entry hentry => ⟨h.skip entry hentry, h.fresh entry hentry⟩
    rw [hcopies, hrepaired] at hrepairs
    have hok : ∀ entry ∈ q.allListed services.policy.queueStatuses,
        entry.2.status ∈ services.policy.activeStates → ∃ result,
          ((artifactWatch services clock).run (runHandler codec entry.1)
            (q.filesOf entry.1)).1 = .ok result := by
      intro entry hentry hactive
      obtain ⟨result, hresult⟩ := h.watch entry hentry hactive
      exact ⟨result, congrArg Prod.fst hresult⟩
    obtain ⟨report₂, hwatch⟩ :=
      run_watch (nodup_allListed services.policy.queueStatuses q) hhas hok report₁
    have hwatched : q.watched services clock codec (q.allListed services.policy.queueStatuses) =
        q := by
      refine renewAll_eq_self fun entry hentry => ⟨?_, rfl⟩
      rw [watchedFiles]
      split
      · rename_i hactive
        obtain ⟨result, hresult⟩ := h.watch entry hentry hactive
        exact congrArg Prod.snd hresult
      · rfl
    rw [hwatched] at hwatch
    obtain ⟨report₃, hoverdue⟩ := run_cancelOverdue clock codec hstates
      (List.Sublist.refl (q.allListed services.policy.queueStatuses)) report₂
    obtain ⟨report₄, hoverflow⟩ := run_cancelOverflow clock codec hstates
      (List.Sublist.refl (q.allListed services.policy.queueStatuses)) report₃
    have hnoOverdue : overdueAmong services clock
        (q.allListed services.policy.queueStatuses) = [] := h.overdue
    have hnoOverflow : overflowAmong services
        (q.allListed services.policy.queueStatuses) = [] := h.overflow
    rw [hnoOverdue] at hoverdue
    rw [hnoOverflow] at hoverflow
    have hpasses : (reconcilePasses services clock).run (queueHandler codec) q =
        (.ok report₄, q) := by
      rw [reconcilePasses, Program.run_bind_of_ok _ (congrArg Prod.fst hlist), hlist,
        Program.run_bind_of_ok _ (congrArg Prod.fst hrepairs), hrepairs,
        Program.run_bind_of_ok _ (congrArg Prod.fst hwatch), hwatch,
        Program.run_bind_of_ok _ (congrArg Prod.fst hlist), hlist,
        Program.run_bind_of_ok _ (congrArg Prod.fst hoverdue), hoverdue]
      change (listQueueRuns _ _ >>= _).run _ q = _
      rw [Program.run_bind_of_ok _ (congrArg Prod.fst hlist), hlist, hoverflow]
      rfl
    rw [Program.run_bind_of_ok _ (congrArg Prod.fst hpasses), hpasses]
    rw [snd_run_bind_pure]
    exact hsnapshot _
  · rw [snd_run_bind_pure]
    exact hsnapshot _

end Quiet

section First

variable {services : QueueServices} {clock : Clock} {codec : Codec} {q : QueueState}
  {entry entry' : String × TaskRun}
  (hkept : q.WellKept services.policy.queueStatuses codec clock)
  (hstates : services.policy.HasStates)
  (hlistable : q.Listable services.policy.queueStatuses)
include hkept hstates hlistable

theorem origin_of_mem
    (h : entry' ∈ (q.afterPasses services clock codec).allListed services.policy.queueStatuses) :
    ∃ entry ∈ q.allListed services.policy.queueStatuses,
      Remains services clock q (q.allListed services.policy.queueStatuses) entry ∧
      entry'.1 = entry.1 ∧ TaskRun.Alike entry.2 entry'.2 ∧
      entry'.2.status = leftStatus clock q entry ∧
      (q.afterPasses services clock codec).filesOf entry'.1 =
        filesAfter codec clock (q.indexed services.policy.queueStatuses) entry := by
  have hstage := leavesOver_afterPasses hkept hstates hlistable
  obtain ⟨entry, hentry, hremains, hid, hlisted⟩ := hstage.mem_allListed_iff.mp h
  obtain ⟨run, hrun, halike, hstatus⟩ := (listed_filesAfter hkept hlistable hentry).1 hremains.1.2
  rw [listedIn, hrun] at hlisted
  obtain rfl : run = entry'.2 := Option.some.inj hlisted
  refine ⟨entry, hentry, hremains, hid, halike, hstatus, ?_⟩
  rw [hid]
  exact hstage.filesOf entry hentry hremains

theorem fresh_of_mem_afterPasses {approvalId : String}
    (h : entry' ∈ (q.afterPasses services clock codec).allListed services.policy.queueStatuses)
    (hlinked : linkedApproval entry'.2 = some approvalId) :
    (q.afterPasses services clock codec).approvals.Fresh clock approvalId := by
  obtain ⟨entry, hentry, hremains, -, halike, hstatus, -⟩ := origin_of_mem hkept hstates hlistable h
  rw [linkedApproval_of_staysOn hstates hremains.1 halike hstatus] at hlinked
  exact fresh_afterPasses hentry hlinked

/-- No run is left that has waited too long. -/
theorem overdueListed_afterPasses :
    overdueListed services clock (q.afterPasses services clock codec) = [] := by
  rw [overdueListed]
  split
  · rename_i hauto
    have hnone : ((q.afterPasses services clock codec).allListed
        services.policy.queueStatuses).filter (fun entry =>
          isOverdue services.policy clock entry.2) = [] := by
      rw [filter_eq_nil_iff]
      intro entry' hentry' hold
      obtain ⟨entry, hentry, hremains, -, halike, hstatus, -⟩ :=
        origin_of_mem hkept hstates hlistable hentry'
      refine hremains.2.1 (mem_filter.mpr ⟨hentry, ?_⟩)
      rw [isOverdue, hstatus, halike.createdAt] at hold
      rw [waits, isTooOld, hauto, Bool.true_and]
      exact hold
    rw [hnone]
    rfl
  · rfl

omit hkept hstates hlistable in
theorem length_waiting_le {waiting : List (String × TaskRun)}
    (hnodup : (waiting.map Prod.fst).Nodup) (limit : ℕ) :
    (waiting.filter fun entry => !(((oldestFirst waiting).take
      (waiting.length - limit)).map Prod.fst).contains entry.1).length ≤ limit := by
  set excess := ((oldestFirst waiting).take (waiting.length - limit)).map Prod.fst with hexcess
  have hperm : (oldestFirst waiting).Perm waiting := perm_insertionSort _ waiting
  have hlength : excess.length = min (waiting.length - limit) waiting.length := by
    rw [hexcess, length_map, length_take, hperm.length_eq]
  have hsublist : excess.Sublist ((oldestFirst waiting).map Prod.fst) :=
    (take_sublist _ _).map Prod.fst
  have hsubset : excess ⊆ waiting.map Prod.fst := fun runId h =>
    (hperm.map Prod.fst).subset (hsublist.subset h)
  have hcount := length_filter_keys hnodup (hsublist.nodup (nodup_oldestFirst hnodup)) hsubset
  omega

/-- Not too many runs are left that wait. -/
theorem overflowListed_afterPasses :
    overflowListed services (q.afterPasses services clock codec) = [] := by
  rw [overflowListed]
  split
  · rename_i hstrategy
    set runs := q.allListed services.policy.queueStatuses with hruns
    have hexcess : excessRuns services clock q runs =
        (oldestFirst (waitingRuns services clock q runs)).take
          ((waitingRuns services clock q runs).length - services.policy.maxPendingTasks) := by
      rw [excessRuns, if_pos hstrategy]
    have hsubset : excessRuns services clock q runs ⊆ runs := by
      rw [hexcess]
      intro entry hentry
      exact mem_of_mem_filter ((mem_insertionSort _).mp (mem_of_mem_take hentry))
    have hkeys : (pendingRuns services.policy ((q.afterPasses services clock codec).allListed
        services.policy.queueStatuses)).map keyOf = (runs.filter fun entry =>
            !((excessRuns services clock q runs).map Prod.fst).contains entry.1 &&
              (waits services clock q entry && !isTooOld services clock entry)).map keyOf := by
      refine (leavesOver_afterPasses hkept hstates hlistable).keys hkept hlistable
        (fun _ h => h.1) ?_ ?_
      · rintro entry hentry ⟨-, hyoung, hfew⟩ run - hstatus
        rw [← mem_of_fst_mem hentry hsubset] at hfew
        have hnot : ((excessRuns services clock q runs).map Prod.fst).contains entry.1 = false := by
          rw [Bool.eq_false_iff, Ne, contains_iff_mem]
          exact hfew
        rw [hstatus, hnot, Bool.not_false, Bool.true_and]
        exact waits_eq_of_not_overdue hentry hyoung
      · intro entry hentry hleft
        by_contra hwaiting
        rw [Bool.not_eq_false, Bool.and_eq_true, Bool.and_eq_true, Bool.not_eq_true',
          Bool.not_eq_true', Bool.eq_false_iff, Ne, contains_iff_mem] at hwaiting
        obtain ⟨hfew, hwaits, hyoung⟩ := hwaiting
        exact hleft ⟨staysOn_of_waits hstates hwaits, not_overdue_of_young hyoung,
          fun hmem => hfew ((mem_of_fst_mem hentry hsubset).mpr hmem)⟩
    have hlength := congrArg List.length hkeys
    rw [length_map, length_map, ← filter_filter, ← waitingRuns, hexcess] at hlength
    have hle : (pendingRuns services.policy ((q.afterPasses services clock codec).allListed
        services.policy.queueStatuses)).length ≤ services.policy.maxPendingTasks := by
      rw [hlength]
      refine length_waiting_le ?_ services.policy.maxPendingTasks
      exact (nodup_allListed _ q).sublist (List.filter_sublist.map Prod.fst)
    rw [overflowRuns, Nat.sub_eq_zero_of_le hle, take_zero]
  · rfl

variable (hlimit : (q.allListed services.policy.queueStatuses).length ≤ 1000)
include hlimit

theorem length_afterPasses :
    ((q.afterPasses services clock codec).allListed services.policy.queueStatuses).length ≤ 1000 :=
  (leavesOver_afterPasses hkept hstates hlistable).length_le hkept hlistable (fun _ h => h.1) hlimit

theorem run_reconcile (henabled : services.policy.enabled = true) :
    ((reconcile services clock).run (queueHandler codec) q).2 =
      q.afterPasses services clock codec := by
  obtain ⟨report, hpasses⟩ := run_reconcilePasses clock codec hkept hstates hlistable hlimit
  rw [reconcile, if_pos henabled, Program.run_bind_of_ok _ (congrArg Prod.fst hpasses), hpasses,
    snd_run_bind_pure]
  exact run_buildSnapshot_of_fresh codec (leavesOver_afterPasses hkept hstates hlistable).ready
    (length_afterPasses hkept hstates hlistable hlimit)
    (fun _ hentry _ hlinked => fresh_of_mem_afterPasses hkept hstates hlistable hentry hlinked) _

theorem isQuiet_afterPasses
    (h : ∀ entry ∈ q.allListed services.policy.queueStatuses,
      Remains services clock q (q.allListed services.policy.queueStatuses) entry →
        ¬Repeats services clock q (q.allListed services.policy.queueStatuses) entry) :
    IsQuiet services clock codec (q.afterPasses services clock codec) where
  ready := (leavesOver_afterPasses hkept hstates hlistable).ready
  limit := length_afterPasses hkept hstates hlistable hlimit
  skip := by
    intro entry' hentry'
    obtain ⟨entry, hentry, hremains, -, halike, hstatus, -⟩ :=
      origin_of_mem hkept hstates hlistable hentry'
    exact (repairOf_again hkept hstates hlistable hremains.1 halike hstatus).2
      (h entry hentry hremains)
  fresh _ hentry _ hlinked := fresh_of_mem_afterPasses hkept hstates hlistable hentry hlinked
  watch := by
    intro entry' hentry' hactive
    obtain ⟨entry, hentry, hremains, hid, -, hstatus, hfiles⟩ :=
      origin_of_mem hkept hstates hlistable hentry'
    have hcopy : (copyAfter codec clock (q.indexed services.policy.queueStatuses)
        entry).2.status ∈ services.policy.activeStates := by
      rw [hstates.active, mem_singleton] at hactive ⊢
      rw [status_copyAfter]
      refine (Repair.status_eq_running_iff entry.2 _).mpr ?_
      exact hstatus.symm.trans hactive
    obtain ⟨result, hresult⟩ := artifactWatch_ok_of_mem hkept hstates hlistable hentry hcopy
    have hstate := (watchedFiles_of_mem hkept hstates hlistable hentry).1 hremains.1
    rw [watchedFiles, if_pos hcopy] at hstate
    rw [hfiles, hid]
    exact ⟨result, Prod.ext hresult hstate⟩
  overdue := overdueListed_afterPasses hkept hstates hlistable
  overflow := overflowListed_afterPasses hkept hstates hlistable

theorem length_lt_of_repeats (henabled : services.policy.enabled = true)
    (hentry : entry ∈ q.allListed services.policy.queueStatuses)
    (hremains : Remains services clock q (q.allListed services.policy.queueStatuses) entry)
    (hrepeats : Repeats services clock q (q.allListed services.policy.queueStatuses) entry) :
    ((q.afterPasses services clock codec).filesOf entry.1).events.length <
      (((reconcile services clock).run (queueHandler codec)
        (q.afterPasses services clock codec)).2.filesOf entry.1).events.length := by
  set q' := q.afterPasses services clock codec with hq'
  have hstage := leavesOver_afterPasses hkept hstates hlistable
  obtain ⟨run, hrun, halike, hstatus⟩ := (listed_filesAfter hkept hlistable hentry).1 hremains.1.2
  have hlisted : (entry.1, run) ∈ q'.allListed services.policy.queueStatuses :=
    hstage.mem_allListed_iff.mpr ⟨entry, hentry, hremains, rfl, by rw [listedIn, hrun]; rfl⟩
  have hrepeated : (repairOf clock q'.approvals run).IsRepeated :=
    (repairOf_again hkept hstates hlistable hremains.1 halike hstatus).1 hrepeats
  have hread := (listedIn_eq_some_iff.mp (mem_allListed.mp hlisted).2).1
  have hskip : repairOf clock q'.approvals run ≠ .skip := by
    intro hskip
    rw [hskip] at hrepeated
    exact hrepeated.elim
  have hopen := not_isTerminal_of_repair hskip
  have hruns := queueRuns_of_listable hstage.ready.listable
    (length_afterPasses hkept hstates hlistable hlimit)
  have hkeeps : ∀ runId {α : Type} (p : RunProgram α), p.Keeps (runHandler codec runId)
      fun files => runId = entry.1 → (q'.filesOf entry.1).events.length < files.events.length :=
    fun runId _ p files h hid => (h hid).trans_le (length_le_run p files)
  have hinvariant : RunInvariant codec fun runId files => runId = entry.1 →
      (q'.filesOf entry.1).events.length < files.events.length :=
    ⟨fun _ _ _ h => h, fun runId _ _ => hkeeps runId _⟩
  refine reconcile_each services clock hinvariant (fun _ _ _ => hkeeps _ _)
    (fun _ _ h => h) henabled hruns ?_ entry.1 rfl
  rintro runId rfl
  rw [indexed_of_ready hstage.ready,
    filesOf_repairAll clock codec (nodup_allListed _ q') hlisted q', filesAfter]
  exact Repair.grows hread hopen hrepeated

end First

/-- The runs, their logs and the approvals are the same. -/
structure QueueState.Unchanged (q q' : QueueState) : Prop where
  run : ∀ runId, (q'.filesOf runId).run = (q.filesOf runId).run
  events : ∀ runId, (q'.filesOf runId).events = (q.filesOf runId).events
  approvals : q'.approvals = q.approvals

theorem unchanged_indexed (statuses : List TaskRunStatus) (q : QueueState) :
    q.Unchanged (q.indexed statuses) := by
  refine ⟨fun runId => ?_, fun runId => ?_, rfl⟩
  · obtain ⟨index, hindex⟩ := filesOf_indexed statuses q runId
    rw [hindex]
  · obtain ⟨index, hindex⟩ := filesOf_indexed statuses q runId
    rw [hindex]

section Unlisted

variable {services : QueueServices} {clock : Clock} {codec : Codec} {q : QueueState}
  {statuses : List TaskRunStatus} {e : String}

theorem listEntries_again {entries : List (String × RunFiles)}
    (h : (listEntries statuses entries).1 = .error e) :
    (listEntries statuses (listEntries statuses entries).2).1 = .error e := by
  induction entries with
  | nil => cases h
  | cons head entries ih =>
    obtain ⟨runId, files⟩ := head
    rw [listEntries] at h ⊢
    cases hlisted : listed statuses files with
    | error e' =>
      rw [hlisted] at h
      simp only [listEntries, hlisted]
      exact h
    | ok found =>
      cases found with
      | none =>
        simp only [hlisted] at h
        simp only [listEntries, hlisted]
        exact ih h
      | some run =>
        simp only [hlisted] at h
        have hagain : listed statuses (withIndex run files) = .ok (some run) := by
          refine listedIn_eq_some (listedIn_withIndex ?_)
          rw [listedIn, hlisted]
          rfl
        have hrest : (listEntries statuses entries).1 = .error e := by
          cases hrest : (listEntries statuses entries).1 with
          | error e' =>
            rw [hrest] at h
            exact congrArg Except.error (Except.error.inj h)
          | ok runs =>
            rw [hrest] at h
            cases h
        simp only [listEntries, hagain, ih hrest]
        rfl

theorem queueRuns_indexed_of_error {limit : ℕ} (h : q.queueRuns statuses limit = .error e) :
    (q.indexed statuses).queueRuns statuses limit = .error e := by
  have hlist : (listEntries statuses q.runs.entries).1 = .error e := by
    rw [QueueState.queueRuns] at h
    cases hlist : (listEntries statuses q.runs.entries).1 with
    | error e' =>
      rw [hlist] at h
      exact congrArg Except.error (Except.error.inj h)
    | ok runs =>
      rw [hlist] at h
      cases h
  have hagain : (listEntries statuses (q.indexed statuses).runs.entries).1 = .error e :=
    listEntries_again hlist
  rw [QueueState.queueRuns, hagain]
  rfl

theorem run_buildSnapshot_of_error
    (h : q.queueRuns services.policy.queueStatuses 1000 = .error e) (warnings : List String) :
    ((buildSnapshot services clock warnings).run (queueHandler codec) q).2 =
      q.indexed services.policy.queueStatuses := by
  have hlist := run_listQueueRuns codec services.policy.queueStatuses 1000 q
  rw [h] at hlist
  rw [buildSnapshot, Program.run_bind_of_error _ (congrArg Prod.fst hlist), hlist]

theorem run_reconcile_of_error (h : q.queueRuns services.policy.queueStatuses 1000 = .error e) :
    ((reconcile services clock).run (queueHandler codec) q).2 =
      q.indexed services.policy.queueStatuses := by
  rw [reconcile]
  split
  · have hlist := run_listQueueRuns codec services.policy.queueStatuses 1000 q
    rw [h] at hlist
    have hpasses : (reconcilePasses services clock).run (queueHandler codec) q =
        (.error e, q.indexed services.policy.queueStatuses) := by
      rw [reconcilePasses, Program.run_bind_of_error _ (congrArg Prod.fst hlist), hlist]
    rw [Program.run_bind_of_error _ (congrArg Prod.fst hpasses), hpasses]
  · rw [snd_run_bind_pure]
    exact run_buildSnapshot_of_error h _

theorem run_buildSnapshot_again (hlistable : q.Listable services.policy.queueStatuses)
    (hlimit : (q.allListed services.policy.queueStatuses).length ≤ 1000)
    (warnings warnings' : List String) :
    ((buildSnapshot services clock warnings').run (queueHandler codec)
      ((buildSnapshot services clock warnings).run (queueHandler codec) q).2).2 =
        ((buildSnapshot services clock warnings).run (queueHandler codec) q).2 := by
  have hlist := run_listQueueRuns codec services.policy.queueStatuses 1000 q
  rw [queueRuns_of_listable hlistable hlimit] at hlist
  have hfirst : ((buildSnapshot services clock warnings).run (queueHandler codec) q).2 =
      ((snapshotItems services.policy clock (q.allListed services.policy.queueStatuses)).run
        (queueHandler codec) (q.indexed services.policy.queueStatuses)).2 := by
    rw [buildSnapshot, Program.run_bind_of_ok _ (congrArg Prod.fst hlist), hlist]
    exact snd_run_bind_pure codec _ _ _
  rw [hfirst]
  have hreads := readsAlike_snapshotItems services.policy clock codec
    (q.allListed services.policy.queueStatuses) (q.indexed services.policy.queueStatuses)
  set q' := ((snapshotItems services.policy clock (q.allListed
    services.policy.queueStatuses)).run (queueHandler codec)
      (q.indexed services.policy.queueStatuses)).2 with hq'
  have hready : q'.Ready services.policy.queueStatuses := by
    have hindexed := ready_indexed hlistable
    have hfiles : q'.filesOf = (q.indexed services.policy.queueStatuses).filesOf := by
      funext runId
      rw [QueueState.filesOf, QueueState.filesOf, hreads.runs]
    have hnames : q'.names = (q.indexed services.policy.queueStatuses).names := by
      rw [QueueState.names, QueueState.names, hreads.runs]
    refine ⟨fun runId hname => ?_, fun runId run hrun => ?_⟩
    · rw [hfiles]
      exact hindexed.listable runId (hnames ▸ hname)
    · rw [hfiles] at hrun ⊢
      exact hindexed.indexed runId run hrun
  have hsame : q'.allListed services.policy.queueStatuses =
      q.allListed services.policy.queueStatuses := by
    rw [← allListed_indexed hlistable, allListed_eq, allListed_eq, hreads.runs]
  have hlist' := run_listQueueRuns_of_ready codec hready (hsame ▸ hlimit)
  rw [buildSnapshot, Program.run_bind_of_ok _ (congrArg Prod.fst hlist'), hlist', hsame]
  refine (snd_run_bind_pure codec _ _ _).trans ?_
  exact snapshotItems_again services.policy clock codec
    ⟨rfl, fun _ => rfl, fun _ h => h⟩

end Unlisted

/-- A second reconciliation at the same time changes nothing exactly if every run that the
first one leaves in the queue has no approval, or one that cannot be read, or one that is
pending and not cancelled together with another run. The queue has at most as many runs as
one listing shows. -/
theorem reconcile_idempotent_iff (services : QueueServices) (clock : Clock) (codec : Codec)
    (q : QueueState) (hkept : q.WellKept services.policy.queueStatuses codec clock)
    (hstates : services.policy.HasStates)
    (hlimit : (q.allListed services.policy.queueStatuses).length ≤ 1000) :
    ((reconcile services clock).run (queueHandler codec) q).2.Unchanged
        ((reconcile services clock).run (queueHandler codec)
          ((reconcile services clock).run (queueHandler codec) q).2).2 ↔
      Settles services clock q := by
  have hsame : ∀ q : QueueState, q.Unchanged q := fun q => ⟨fun _ => rfl, fun _ => rfl, rfl⟩
  cases hruns : q.queueRuns services.policy.queueStatuses 1000 with
  | error e =>
    have hsettles : Settles services clock q := by
      intro _ runs hok
      rw [hruns] at hok
      cases hok
    rw [run_reconcile_of_error hruns, run_reconcile_of_error (queueRuns_indexed_of_error hruns)]
    exact ⟨fun _ => hsettles, fun _ => unchanged_indexed _ _⟩
  | ok runs =>
    have hlistable := listable_of_queueRuns hruns
    have hall : runs = q.allListed services.policy.queueStatuses := by
      rw [queueRuns_of_listable hlistable hlimit] at hruns
      exact (Except.ok.inj hruns).symm
    cases henabled : services.policy.enabled with
    | false =>
      have hsettles : Settles services clock q := by
        intro hon
        rw [henabled] at hon
        cases hon
      have hreconcile : ∀ q : QueueState,
          ((reconcile services clock).run (queueHandler codec) q).2 =
            ((buildSnapshot services clock ["task_queue_disabled"]).run
              (queueHandler codec) q).2 := by
        intro q
        rw [reconcile, if_neg (by simp [henabled]), snd_run_bind_pure]
      rw [hreconcile, hreconcile, run_buildSnapshot_again hlistable hlimit]
      exact ⟨fun _ => hsettles, fun _ => hsame _⟩
    | true =>
      rw [run_reconcile hkept hstates hlistable hlimit henabled]
      constructor
      · intro hunchanged _ runs' hok entry hentry hremains hrepeats
        rw [hruns, Except.ok.injEq] at hok
        subst hok
        rw [hall] at hentry hremains hrepeats
        have hlt := length_lt_of_repeats hkept hstates hlistable hlimit henabled hentry hremains
          hrepeats
        rw [hunchanged.events entry.1] at hlt
        exact lt_irrefl _ hlt
      · intro hsettles
        have hquiet := isQuiet_afterPasses hkept hstates hlistable hlimit fun entry hentry => by
          have hentry' := hsettles henabled runs hruns entry
          rw [hall] at hentry'
          exact hentry' hentry
        rw [hquiet.run_reconcile hstates]
        exact hsame _

/-- A run that waits for its approval is left as it is. -/
theorem pending_run_is_left :
    ((reconcile sampleQueueServices sampleClock).run (queueHandler sampleServices.codec)
        (sampleQueue sampleLinkedRun (sampleApprovals .pending))).2.Unchanged
      ((reconcile sampleQueueServices sampleClock).run (queueHandler sampleServices.codec)
        ((reconcile sampleQueueServices sampleClock).run (queueHandler sampleServices.codec)
          (sampleQueue sampleLinkedRun (sampleApprovals .pending))).2).2 := by
  let entry := ("task_run_1", (sampleLinkedRun.stored sampleServices.codec).projected)
  have hlisted : (sampleQueue sampleLinkedRun (sampleApprovals .pending)).allListed
      sampleQueueServices.policy.queueStatuses = [entry] := by
    rfl
  have hwaits : entry.2.status ≠ .running := by
    decide
  have hlinks : linksOf sampleQueueServices.policy
      (overdueRuns sampleQueueServices sampleClock
          (sampleQueue sampleLinkedRun (sampleApprovals .pending)) [entry] ++
        excessRuns sampleQueueServices sampleClock
          (sampleQueue sampleLinkedRun (sampleApprovals .pending)) [entry]) = [] := by
    decide
  refine (reconcile_idempotent_iff sampleQueueServices sampleClock sampleServices.codec
    (sampleQueue sampleLinkedRun (sampleApprovals .pending)) ⟨?_, ?_, ?_⟩ ⟨rfl, rfl⟩ ?_).mpr ?_
  · rw [hlisted, forall_mem_singleton]
    exact ⟨by decide, by decide⟩
  · rw [hlisted, forall_mem_singleton]
    exact fun hrunning => absurd hrunning hwaits
  · rw [hlisted, forall_mem_singleton]
    exact fun hrunning => absurd hrunning hwaits
  · rw [hlisted]
    decide
  · intro _ runs hruns listed hmem _
    obtain rfl : [entry] = runs := Except.ok.inj hruns
    rw [mem_singleton.mp hmem]
    rintro (hrepeated | ⟨approvalId, -, -, hmem⟩)
    · exact hrepeated
    · rw [hlinks] at hmem
      cases hmem

/-- A run whose approval is approved is resumed again by the second reconciliation. -/
theorem approved_run_is_resumed_again :
    ¬((reconcile sampleQueueServices sampleClock).run (queueHandler sampleServices.codec)
        (sampleQueue sampleLinkedRun (sampleApprovals .approved))).2.Unchanged
      ((reconcile sampleQueueServices sampleClock).run (queueHandler sampleServices.codec)
        ((reconcile sampleQueueServices sampleClock).run (queueHandler sampleServices.codec)
          (sampleQueue sampleLinkedRun (sampleApprovals .approved))).2).2 := by
  intro hunchanged
  have hlength := congrArg List.length (hunchanged.events "task_run_1")
  revert hlength
  decide

end AIpinho.Queue
