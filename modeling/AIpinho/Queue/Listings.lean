import AIpinho.Lib.Listing
import AIpinho.Queue.Passes

/-!
# Listings before and after a pass

A pass of the queue changes the files of the runs it goes over and leaves the directories in
their order. So the listing after a pass is the one before it, without the runs that have ended.
-/

namespace AIpinho.Queue

open List Lib AIpinho.Runtime AIpinho.Approvals

def listedIn (statuses : List TaskRunStatus) (files : RunFiles) : Option TaskRun :=
  (listed statuses files).toOption.join

variable {statuses : List TaskRunStatus}

theorem listedIn_eq_some {files : RunFiles} {run : TaskRun}
    (h : listedIn statuses files = some run) : listed statuses files = .ok (some run) := by
  rw [listedIn] at h
  cases hlisted : listed statuses files with
  | error e =>
    rw [hlisted] at h
    cases h
  | ok found =>
    rw [hlisted] at h
    exact congrArg Except.ok h

/-- Whether a listing looks at a document of a status: the index has one of the statuses,
or there is neither an index nor a result and the document has one. -/
def IsShown (statuses : List TaskRunStatus) (files : RunFiles) (status : TaskRunStatus) : Prop :=
  match files.index with
  | some index => index ∈ statuses
  | none => files.result = none ∧ status ∈ statuses

theorem listedIn_eq_some_iff {files : RunFiles} {run : TaskRun} :
    listedIn statuses files = some run ↔
      files.getRunLightweight = .found run ∧ IsShown statuses files run.status := by
  have hjoin : ∀ found : Option TaskRun,
      (Except.ok found : Except String (Option TaskRun)).toOption.join = found := fun _ => rfl
  rw [listedIn, listed, IsShown]
  cases hindex : files.index with
  | some index =>
    by_cases hmem : index ∈ statuses
    · cases hread : files.getRunLightweight <;> simp [hmem, Except.toOption]
    · simp [hmem, hjoin]
  | none =>
    cases hresult : files.result with
    | some result => simp [hjoin]
    | none =>
      cases hread : files.getRunLightweight with
      | missing => simp [hjoin]
      | invalid => simp [Except.toOption]
      | found run' =>
        by_cases hstatus : run'.status ∈ statuses
        · simp [hstatus, hjoin]
          rintro rfl
          exact hstatus
        · simp [hstatus, hjoin]
          rintro rfl
          exact hstatus

namespace QueueState

def names (q : QueueState) : List String := q.runs.entries.map Prod.fst

variable (statuses : List TaskRunStatus)

/-- The run that a listing finds in the directory of a name, with the name. -/
def listedUnder (q : QueueState) (runId : String) : Option (String × TaskRun) :=
  (listedIn statuses (q.filesOf runId)).map fun run => (runId, run)

def allListed (q : QueueState) : List (String × TaskRun) :=
  newestFirst (q.names.filterMap (q.listedUnder statuses))

def Listable (q : QueueState) : Prop :=
  ∀ runId ∈ q.names, ∃ found, listed statuses (q.filesOf runId) = .ok found

/-- A listing finds an index beside every run. -/
structure Ready (statuses : List TaskRunStatus) (q : QueueState) : Prop where
  listable : q.Listable statuses
  indexed : ∀ runId run, listedIn statuses (q.filesOf runId) = some run →
    (q.filesOf runId).index.isSome = true

end QueueState

section Listing

variable {statuses : List TaskRunStatus} {q q' : QueueState} {runId : String}

theorem hasRun_iff_mem_names : q.HasRun runId ↔ runId ∈ q.names := by
  rw [QueueState.HasRun, ← not_iff_not, Bool.not_eq_true, Option.isSome_eq_false_iff,
    Option.isNone_iff_eq_none]
  exact Table.lookup_eq_none_iff_notMem

theorem entries_eq_map_names (q : QueueState) :
    q.runs.entries = q.names.map fun runId => (runId, q.filesOf runId) := by
  rw [QueueState.names, map_map]
  refine (map_id _).symm.trans (map_congr_left fun e he => ?_)
  have hget : q.runs.get? e.1 = some e.2 := Table.get?_eq_some_iff.mpr he
  rw [Function.comp_apply, QueueState.filesOf, hget]
  rfl

theorem allListed_eq (statuses : List TaskRunStatus) (q : QueueState) :
    q.allListed statuses = newestFirst (q.runs.entries.filterMap (listedEntry statuses)) := by
  rw [QueueState.allListed, entries_eq_map_names, filterMap_map]
  rfl

theorem mem_allListed {entry : String × TaskRun} : entry ∈ q.allListed statuses ↔
      entry.1 ∈ q.names ∧ listedIn statuses (q.filesOf entry.1) = some entry.2 := by
  rw [QueueState.allListed, newestFirst, mem_insertionSort, mem_filterMap]
  constructor
  · rintro ⟨runId, hname, hlisted⟩
    obtain ⟨run, hrun, rfl⟩ := Option.map_eq_some_iff.mp hlisted
    exact ⟨hname, hrun⟩
  · rintro ⟨hname, hrun⟩
    exact ⟨entry.1, hname, Option.map_eq_some_iff.mpr ⟨entry.2, hrun, rfl⟩⟩

theorem nodup_allListed (statuses : List TaskRunStatus) (q : QueueState) :
    ((q.allListed statuses).map Prod.fst).Nodup := by
  rw [allListed_eq, newestFirst]
  have hperm := perm_insertionSort
    (fun a b : String × TaskRun => b.2.createdAt ≤ a.2.createdAt)
    (q.runs.entries.filterMap (listedEntry statuses))
  exact (hperm.map Prod.fst).nodup_iff.mpr (nodup_filterMap_listedEntry _ q.runs.nodup)

theorem mem_of_fst_mem {entry : String × TaskRun} {entries : List (String × TaskRun)}
    (hentry : entry ∈ q.allListed statuses) (hentries : entries ⊆ q.allListed statuses) :
    entry.1 ∈ entries.map Prod.fst ↔ entry ∈ entries := by
  constructor
  · intro h
    obtain ⟨entry', hentry', hid⟩ := mem_map.mp h
    have heq : entry' = entry :=
      inj_on_of_nodup_map (nodup_allListed statuses q) (hentries hentry') hentry hid
    exact heq ▸ hentry'
  · exact fun h => mem_map.mpr ⟨entry, h, rfl⟩

theorem listEntries_of_listable {entries : List (String × RunFiles)}
    (h : ∀ e ∈ entries, ∃ found, listed statuses e.2 = .ok found) :
    ∃ runs, (listEntries statuses entries).1 = .ok runs := by
  induction entries with
  | nil => exact ⟨[], rfl⟩
  | cons e entries ih =>
    obtain ⟨runId, files⟩ := e
    rw [forall_mem_cons] at h
    obtain ⟨⟨found, hfound⟩, hrest⟩ := h
    obtain ⟨runs, hruns⟩ := ih hrest
    rw [listEntries, hfound]
    cases found with
    | none => exact ⟨runs, hruns⟩
    | some run => exact ⟨(runId, run) :: runs, by rw [hruns]; rfl⟩

theorem queueRuns_of_listable_take (h : q.Listable statuses) :
    q.queueRuns statuses 1000 = .ok ((q.allListed statuses).take 1000) := by
  have hentries : ∀ e ∈ q.runs.entries, ∃ found, listed statuses e.2 = .ok found := by
    rw [entries_eq_map_names]
    exact forall_mem_map.mpr h
  obtain ⟨runs, hruns⟩ := listEntries_of_listable hentries
  have hok : q.queueRuns statuses 1000 = .ok ((newestFirst runs).take 1000) := by
    rw [QueueState.queueRuns, hruns]
    rfl
  obtain ⟨-, htake⟩ := queueRuns_eq_ok hok
  rw [hok, htake, ← allListed_eq]
  rfl

theorem queueRuns_of_listable (h : q.Listable statuses)
    (hlimit : (q.allListed statuses).length ≤ 1000) :
    q.queueRuns statuses 1000 = .ok (q.allListed statuses) := by
  rw [queueRuns_of_listable_take h, take_of_length_le hlimit]

theorem listable_of_queueRuns {runs : List (String × TaskRun)}
    (h : q.queueRuns statuses 1000 = .ok runs) : q.Listable statuses := by
  obtain ⟨hlist, -⟩ := queueRuns_eq_ok h
  intro runId hname
  have he : (runId, q.filesOf runId) ∈ q.runs.entries := by
    rw [entries_eq_map_names]
    exact mem_map.mpr ⟨runId, hname, rfl⟩
  exact (listEntries_of_ok hlist).2.2 _ he

theorem listedIn_withIndex {files : RunFiles} {run : TaskRun}
    (h : listedIn statuses files = some run) :
    listedIn statuses (withIndex run files) = some run := by
  rw [listedIn_eq_some_iff] at h ⊢
  refine ⟨h.1, ?_⟩
  simp only [IsShown, withIndex] at h ⊢
  cases hindex : files.index with
  | none =>
    simp only [hindex] at h
    exact h.2.2
  | some status =>
    simp only [hindex] at h
    exact h.2

theorem names_indexed (statuses : List TaskRunStatus) (q : QueueState) :
    (q.indexed statuses).names = q.names :=
  map_fst_listEntries statuses q.runs.entries

theorem filesOf_indexed_of_listable (h : q.Listable statuses) (runId : String) :
    (q.indexed statuses).filesOf runId =
      ((listedIn statuses (q.filesOf runId)).map fun run => withIndex run (q.filesOf runId)).getD
        (q.filesOf runId) := by
  have hentries : ∀ e ∈ q.runs.entries, ∃ found, listed statuses e.2 = .ok found := by
    rw [entries_eq_map_names]
    exact forall_mem_map.mpr h
  obtain ⟨runs, hruns⟩ := listEntries_of_listable hentries
  have hindexed : (q.indexed statuses).runs.entries =
      q.runs.entries.map (indexedEntry statuses) := (listEntries_of_ok hruns).2.1
  by_cases hname : runId ∈ q.names
  · have hmem : (runId, (indexedEntry statuses (runId, q.filesOf runId)).2) ∈
        (q.indexed statuses).runs.entries := by
      rw [hindexed, entries_eq_map_names, map_map]
      exact mem_map.mpr ⟨runId, hname, rfl⟩
    rw [QueueState.filesOf, Table.get?_eq_some_iff.mpr hmem]
    rfl
  · have hnone : ∀ q : QueueState, runId ∉ q.names → q.filesOf runId = noFiles := by
      intro q hname
      have hget : q.runs.get? runId = none := Table.lookup_eq_none_iff_notMem.mpr hname
      rw [QueueState.filesOf, hget]
      rfl
    rw [hnone _ (by rw [names_indexed]; exact hname), hnone _ hname]
    rfl

theorem listedIn_indexed (h : q.Listable statuses) (runId : String) :
    listedIn statuses ((q.indexed statuses).filesOf runId) =
      listedIn statuses (q.filesOf runId) := by
  rw [filesOf_indexed_of_listable h]
  cases hlisted : listedIn statuses (q.filesOf runId) with
  | none => exact hlisted
  | some run => exact listedIn_withIndex hlisted

theorem allListed_indexed (h : q.Listable statuses) :
    (q.indexed statuses).allListed statuses = q.allListed statuses := by
  have hunder : (q.indexed statuses).listedUnder statuses = q.listedUnder statuses := by
    funext runId
    rw [QueueState.listedUnder, QueueState.listedUnder, listedIn_indexed h]
  rw [QueueState.allListed, QueueState.allListed, names_indexed, hunder]

theorem ready_indexed (h : q.Listable statuses) : (q.indexed statuses).Ready statuses := by
  refine ⟨fun runId hname => ?_, fun runId run hrun => ?_⟩
  · rw [names_indexed] at hname
    rw [filesOf_indexed_of_listable h]
    cases hlisted : listedIn statuses (q.filesOf runId) with
    | none => exact h runId hname
    | some run => exact ⟨_, listedIn_eq_some (listedIn_withIndex hlisted)⟩
  · rw [listedIn_indexed h] at hrun
    rw [filesOf_indexed_of_listable h, hrun]
    rfl

theorem indexed_of_ready (h : q.Ready statuses) : q.indexed statuses = q := by
  have hfiles : ∀ runId, (q.indexed statuses).filesOf runId = q.filesOf runId := by
    intro runId
    rw [filesOf_indexed_of_listable h.listable]
    cases hlisted : listedIn statuses (q.filesOf runId) with
    | none => rfl
    | some run =>
      obtain ⟨index, hindex⟩ := Option.isSome_iff_exists.mp (h.indexed runId run hlisted)
      simp only [Option.map_some, Option.getD_some, withIndex, hindex]
      rw [← hindex]
  have hentries : (q.indexed statuses).runs.entries = q.runs.entries := by
    rw [entries_eq_map_names, names_indexed, entries_eq_map_names q]
    exact map_congr_left fun runId _ => by rw [hfiles]
  have hruns : (q.indexed statuses).runs = q.runs := Table.ext hentries
  calc q.indexed statuses = ⟨(q.indexed statuses).runs, q.approvals⟩ := rfl
    _ = q := by rw [hruns]

theorem run_listQueueRuns_take (codec : Codec) (h : q.Ready statuses) :
    (listQueueRuns statuses 1000).run (queueHandler codec) q =
      (.ok ((q.allListed statuses).take 1000), q) := by
  rw [run_listQueueRuns, queueRuns_of_listable_take h.listable, indexed_of_ready h]

theorem run_listQueueRuns_of_ready (codec : Codec) (h : q.Ready statuses)
    (hlimit : (q.allListed statuses).length ≤ 1000) :
    (listQueueRuns statuses 1000).run (queueHandler codec) q = (.ok (q.allListed statuses), q) := by
  rw [run_listQueueRuns_take codec h, take_of_length_le hlimit]

theorem allListed_of_renewed {f : String × TaskRun → Option (String × TaskRun)}
    (hnames : q'.names = q.names)
    (hlisted : ∀ runId ∈ q.names,
      q'.listedUnder statuses runId = (q.listedUnder statuses runId).bind f)
    (hcreated : ∀ entry ∈ q.allListed statuses, ∀ entry', f entry = some entry' →
      entry'.2.createdAt = entry.2.createdAt) :
    q'.allListed statuses = (q.allListed statuses).filterMap f := by
  let r : String × TaskRun → String × TaskRun → Prop := fun a b => b.2.createdAt ≤ a.2.createdAt
  have : Std.Total r := ⟨fun a b => le_total b.2.createdAt a.2.createdAt⟩
  have : IsTrans (String × TaskRun) r := ⟨fun _ _ _ hab hbc => le_trans hbc hab⟩
  have hfound : q.names.filterMap (q'.listedUnder statuses) =
      (q.names.filterMap (q.listedUnder statuses)).filterMap f := by
    rw [filterMap_filterMap]
    exact filterMap_congr hlisted
  have hmem : ∀ entry ∈ q.names.filterMap (q.listedUnder statuses),
      entry ∈ q.allListed statuses := fun entry hentry => (mem_insertionSort r).mpr hentry
  rw [QueueState.allListed, hnames, hfound, QueueState.allListed]
  refine (filterMap_insertionSort (r := r) (s := r) ?_).symm
  intro a ha b hb a' b' hfa hfb
  simp only [r, hcreated a (hmem a ha) a' hfa, hcreated b (hmem b hb) b' hfb]

end Listing

namespace QueueState

def renew (files : String × TaskRun → RunFiles → RunFiles)
    (approvals : String × TaskRun → ApprovalTable → ApprovalTable) (entry : String × TaskRun)
    (q : QueueState) : QueueState :=
  { q.setFiles entry.1 (files entry (q.filesOf entry.1)) with
    approvals := approvals entry q.approvals }

def renewAll (files : String × TaskRun → RunFiles → RunFiles)
    (approvals : String × TaskRun → ApprovalTable → ApprovalTable)
    (entries : List (String × TaskRun)) (q : QueueState) : QueueState :=
  entries.foldl (fun q entry => q.renew files approvals entry) q

end QueueState

section Passes

variable {files : String × TaskRun → RunFiles → RunFiles}
  {approvals : String × TaskRun → ApprovalTable → ApprovalTable} {q : QueueState}
  {entry : String × TaskRun} {entries : List (String × TaskRun)} {runId : String}

theorem names_setFiles (h : q.HasRun runId) (files : RunFiles) :
    (q.setFiles runId files).names = q.names := by
  have hsome : (q.runs.get? runId).isSome = true := h
  rw [QueueState.setFiles_of_hasRun h, QueueState.names, QueueState.names]
  dsimp only
  rw [Table.insert, dif_pos hsome]
  exact Table.map_fst_replaceEntry runId files q.runs.entries

theorem names_renew (h : q.HasRun entry.1) : (q.renew files approvals entry).names = q.names :=
  names_setFiles h _

theorem filesOf_renew_of_ne (h : runId ≠ entry.1) (q : QueueState) :
    (q.renew files approvals entry).filesOf runId = q.filesOf runId :=
  QueueState.filesOf_setFiles_of_ne h _ q

theorem filesOf_renew_self (q : QueueState) (entry : String × TaskRun) :
    (q.renew files approvals entry).filesOf entry.1 = files entry (q.filesOf entry.1) :=
  QueueState.filesOf_setFiles_self _ _ _

theorem names_renewAll (h : ∀ entry ∈ entries, q.HasRun entry.1) :
    (q.renewAll files approvals entries).names = q.names := by
  induction entries generalizing q with
  | nil => rfl
  | cons entry entries ih =>
    rw [forall_mem_cons] at h
    have hnames : (q.renew files approvals entry).names = q.names := names_renew h.1
    refine (ih (q := q.renew files approvals entry) fun entry' hentry' => ?_).trans hnames
    rw [hasRun_iff_mem_names, hnames, ← hasRun_iff_mem_names]
    exact h.2 entry' hentry'

theorem names_repairAll (clock : Clock) (codec : Codec)
    (h : ∀ entry ∈ entries, q.HasRun entry.1) :
    (q.repairAll clock codec entries).names = q.names := by
  induction entries generalizing q with
  | nil => rfl
  | cons entry entries ih =>
    rw [forall_mem_cons] at h
    have hnames : (q.repair codec clock entry).names = q.names := names_setFiles h.1 _
    refine (ih (q := q.repair codec clock entry) fun entry' hentry' => ?_).trans hnames
    exact hasRun_repair clock codec (h.2 entry' hentry') entry

theorem filesOf_renewAll_of_notMem (h : runId ∉ entries.map Prod.fst) (q : QueueState) :
    (q.renewAll files approvals entries).filesOf runId = q.filesOf runId := by
  induction entries generalizing q with
  | nil => rfl
  | cons entry entries ih =>
    rw [map_cons, mem_cons, not_or] at h
    exact (ih h.2 _).trans (filesOf_renew_of_ne h.1 q)

theorem filesOf_renewAll (hnodup : (entries.map Prod.fst).Nodup) (hentry : entry ∈ entries)
    (q : QueueState) :
    (q.renewAll files approvals entries).filesOf entry.1 = files entry (q.filesOf entry.1) := by
  induction entries generalizing q with
  | nil => cases hentry
  | cons head entries ih =>
    rw [map_cons, nodup_cons] at hnodup
    change ((q.renew files approvals head).renewAll files approvals entries).filesOf entry.1 = _
    rcases mem_cons.mp hentry with rfl | hentry
    · rw [filesOf_renewAll_of_notMem hnodup.1, filesOf_renew_self]
    · have hne : entry.1 ≠ head.1 := by
        intro heq
        exact hnodup.1 (mem_map.mpr ⟨entry, hentry, heq⟩)
      rw [ih hnodup.2 hentry, filesOf_renew_of_ne hne]

theorem approvals_renewAll (entries : List (String × TaskRun)) (q : QueueState) :
    (q.renewAll files approvals entries).approvals =
      entries.foldl (fun table entry => approvals entry table) q.approvals := by
  induction entries generalizing q with
  | nil => rfl
  | cons entry entries ih => exact ih (q.renew files approvals entry)

theorem run_passEach {β : Type} {codec : Codec} {step : String × TaskRun → β → QueueProgram β}
    (hnodup : (entries.map Prod.fst).Nodup) (hruns : ∀ entry ∈ entries, q.HasRun entry.1)
    (hstep : ∀ entry ∈ entries, ∀ q' : QueueState, q'.HasRun entry.1 →
      q'.filesOf entry.1 = q.filesOf entry.1 → ∀ b, ∃ b',
        (step entry b).run (queueHandler codec) q' = (.ok b', q'.renew files approvals entry))
    (b : β) :
    ∃ b', (Program.passEach step entries b).run (queueHandler codec) q =
      (.ok b', q.renewAll files approvals entries) := by
  induction entries generalizing q b with
  | nil => exact ⟨b, rfl⟩
  | cons entry entries ih =>
    rw [map_cons, nodup_cons] at hnodup
    rw [forall_mem_cons] at hruns hstep
    have hnames : (q.renew files approvals entry).names = q.names := names_renew hruns.1
    obtain ⟨b₁, hfirst⟩ := hstep.1 q hruns.1 rfl b
    have hrest := ih (q := q.renew files approvals entry) hnodup.2 ?_ ?_ b₁
    · obtain ⟨b₂, hrest⟩ := hrest
      refine ⟨b₂, ?_⟩
      rw [Program.passEach, Program.run_bind_of_ok _ (congrArg Prod.fst hfirst), hfirst, hrest]
      rfl
    · intro entry' hentry'
      rw [hasRun_iff_mem_names, hnames, ← hasRun_iff_mem_names]
      exact hruns.2 entry' hentry'
    · intro entry' hentry' q' hhas hfiles
      have hne : entry'.1 ≠ entry.1 := by
        intro heq
        exact hnodup.1 (mem_map.mpr ⟨entry', hentry', heq⟩)
      rw [filesOf_renew_of_ne hne] at hfiles
      exact hstep.2 entry' hentry' q' hhas hfiles

end Passes

theorem QueueState.Ready.of_renewed {q q' : QueueState} (h : q.Ready statuses)
    (hnames : q'.names = q.names) (hruns : ∀ runId, q'.filesOf runId = q.filesOf runId ∨
      listed statuses (q'.filesOf runId) = .ok none ∨
        (∃ run, listed statuses (q'.filesOf runId) = .ok (some run)) ∧
          (q'.filesOf runId).index.isSome = true) : q'.Ready statuses := by
  refine ⟨fun runId hname => ?_, fun runId run hrun => ?_⟩
  · rcases hruns runId with hsame | hnone | ⟨⟨run, hrun⟩, -⟩
    · rw [hsame]
      exact h.listable runId (hnames ▸ hname)
    · exact ⟨none, hnone⟩
    · exact ⟨some run, hrun⟩
  · rcases hruns runId with hsame | hnone | ⟨-, hindex⟩
    · rw [hsame] at hrun ⊢
      exact h.indexed runId run hrun
    · rw [listedIn, hnone] at hrun
      cases hrun
    · exact hindex

/-- Some of the runs that were listed are left, and have the given files; no others are
listed any more. -/
structure LeavesOver (statuses : List TaskRunStatus) (files : String × TaskRun → RunFiles)
    (Left : String × TaskRun → Prop) (q q' : QueueState) : Prop where
  names : q'.names = q.names
  ready : q'.Ready statuses
  filesOf : ∀ entry ∈ q.allListed statuses, Left entry → q'.filesOf entry.1 = files entry
  gone : ∀ entry ∈ q.allListed statuses, ¬Left entry →
    listedIn statuses (q'.filesOf entry.1) = none
  unlisted : ∀ runId, listedIn statuses (q.filesOf runId) = none →
    listedIn statuses (q'.filesOf runId) = none

namespace LeavesOver

variable {statuses : List TaskRunStatus} {files : String × TaskRun → RunFiles}
  {Left : String × TaskRun → Prop} {q q' : QueueState}

theorem congr {Left' : String × TaskRun → Prop} (h : LeavesOver statuses files Left q q')
    (hleft : ∀ entry ∈ q.allListed statuses, Left entry ↔ Left' entry) :
    LeavesOver statuses files Left' q q' where
  names := h.names
  ready := h.ready
  filesOf entry hentry hleft' := h.filesOf entry hentry ((hleft entry hentry).mpr hleft')
  gone entry hentry hleft' := h.gone entry hentry fun hold => hleft' ((hleft entry hentry).mp hold)
  unlisted := h.unlisted

theorem allListed_eq (h : LeavesOver statuses files Left q q')
    (hcreated : ∀ entry ∈ q.allListed statuses, Left entry → ∀ run,
      listedIn statuses (files entry) = some run → run.createdAt = entry.2.createdAt) :
    q'.allListed statuses =
      (q.allListed statuses).filterMap fun entry => q'.listedUnder statuses entry.1 := by
  refine allListed_of_renewed h.names (fun runId _ => ?_) fun entry hentry entry' hentry' => ?_
  · rw [QueueState.listedUnder, QueueState.listedUnder]
    cases hlisted : listedIn statuses (q.filesOf runId) with
    | none =>
      rw [h.unlisted runId hlisted]
      rfl
    | some run => rfl
  · obtain ⟨run, hrun, rfl⟩ := Option.map_eq_some_iff.mp hentry'
    by_cases hleft : Left entry
    · rw [h.filesOf entry hentry hleft] at hrun
      exact hcreated entry hentry hleft run hrun
    · rw [h.gone entry hentry hleft] at hrun
      cases hrun

theorem mem_allListed_iff (h : LeavesOver statuses files Left q q') {entry' : String × TaskRun} :
    entry' ∈ q'.allListed statuses ↔ ∃ entry ∈ q.allListed statuses, Left entry ∧
      entry'.1 = entry.1 ∧ listedIn statuses (files entry) = some entry'.2 := by
  rw [mem_allListed, h.names]
  constructor
  · rintro ⟨hname, hlisted⟩
    cases hbefore : listedIn statuses (q.filesOf entry'.1) with
    | none =>
      rw [h.unlisted entry'.1 hbefore] at hlisted
      cases hlisted
    | some run =>
      have hentry : (entry'.1, run) ∈ q.allListed statuses := mem_allListed.mpr ⟨hname, hbefore⟩
      have hleft : Left (entry'.1, run) := by
        by_contra hleft
        have hgone := h.gone _ hentry hleft
        rw [hgone] at hlisted
        cases hlisted
      refine ⟨(entry'.1, run), hentry, hleft, rfl, ?_⟩
      rw [← h.filesOf _ hentry hleft]
      exact hlisted
  · rintro ⟨entry, hentry, hleft, hid, hlisted⟩
    rw [hid, h.filesOf entry hentry hleft]
    exact ⟨(mem_allListed.mp hentry).1, hlisted⟩

end LeavesOver

end AIpinho.Queue
