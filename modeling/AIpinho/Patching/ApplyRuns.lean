import AIpinho.Lib.Runs
import AIpinho.Patching.PatchApply

/-!
# The lifecycle of an apply run

An apply run is executed, cancelled and rolled back through `PatchApplyService`, while others
may edit the files. The lifecycle table says from which statuses a run can be cancelled or
rolled back; `rollback` does not ask it.
-/

namespace AIpinho.Patching

open Lib

/-- `PatchApplyLifecycleService.is_terminal`. -/
def ApplyRunStatus.isTerminal : ApplyRunStatus → Bool
  | .completed | .blocked | .cancelled | .rolledBack | .rollbackFailed => true
  | .readyToExecute | .running => false

/-- `PatchApplyLifecycleService.can_execute`. -/
def ApplyRunStatus.canExecute (status : ApplyRunStatus) : Bool := status = .readyToExecute

/-- `PatchApplyLifecycleService.can_cancel`. -/
def ApplyRunStatus.canCancel (status : ApplyRunStatus) : Bool :=
  !status.isTerminal && status ≠ .running

/-- An apply run in the store, its result and its backups, and the files. The last two
fields record what has happened to the run. -/
structure ApplyRun where
  status : ApplyRunStatus
  backupIds : List ℕ
  result : Option PatchApplyResult
  backups : List PatchApplyBackup
  workspace : Workspace
  /-- How often the engine was asked to apply the plan. -/
  applications : ℕ
  /-- Whether a rollback has completed. -/
  undone : Bool

/-- What a call finds: other services, what fails, and the plan of the run. -/
structure ApplyCall where
  services : ApplyServices
  faults : Faults
  plan : Option PatchPlan

/-- The run that `create_run_from_plan` saves. -/
def createApplyRun (call : ApplyCall) (workspace : Workspace) : ApplyRun where
  status :=
    if (call.services.guard call.plan workspace).isEmpty then .readyToExecute else .blocked
  backupIds := []
  result := none
  backups := []
  workspace := workspace
  applications := 0
  undone := false

/-- `PatchRollbackService.rollback`, with a result that may not be saved yet. -/
def rollbackRun (call : ApplyCall) (result : Option PatchApplyResult) (s : ApplyRun) :
    RollbackResult × ApplyRun :=
  let (restored, workspace) := restoreBackups call.services call.faults.restore s.backups
    s.backupIds ⟨[], []⟩ s.workspace
  let completed := restored.failedFiles.isEmpty
  (restored,
    { s with
      status := if completed then .rolledBack else .rollbackFailed
      result := (result.map fun r =>
        { r with
          status := if completed then .failedWithRollback else .rollbackFailed
          safeToReportSuccess := false
          rollback := some restored }).or s.result
      workspace := workspace
      undone := s.undone || completed })

/-- What `execute` does with a plan that the guard allows. -/
def applyPlan (call : ApplyCall) (plan : PatchPlan) (s : ApplyRun) : ApplyRun :=
  let s := { s with status := .running, applications := s.applications + 1 }
  match applyFiles call.services plan call.faults.file 0 plan.affectedFiles []
      ⟨s.workspace, s.backups, []⟩ with
  | (.error error, st) =>
    (rollbackRun call (some (failedResult [] none [error]))
      { s with workspace := st.workspace, backups := st.backups }).2
  | (.ok results, st) =>
    let s := { s with
      workspace := st.workspace
      backups := st.backups
      backupIds := results.filterMap (·.backupId) }
    match validate call.services call.faults.validation plan results st with
    | .error error => (rollbackRun call (some (failedResult results none [error])) s).2
    | .ok post =>
      if post.passed then
        { s with
          status := .completed
          result := some ⟨.completed, true, results, some post, none, []⟩ }
      else (rollbackRun call (some (failedResult results (some post) [])) s).2

def blockedResult (reasons : List String) : PatchApplyResult :=
  ⟨.blocked, false, [], none, none, reasons.eraseDups⟩

/-- `PatchApplyService.execute`. -/
def executeRun (call : ApplyCall) (s : ApplyRun) : ApplyRun :=
  match s.result with
  | some _ => s
  | none =>
    if !s.status.canExecute then
      { s with result := some (blockedResult ["run_not_ready:" ++ s.status.text]) }
    else
      let reasons := call.services.guard call.plan s.workspace
      match call.plan with
      | none => { s with status := .blocked, result := some (blockedResult reasons) }
      | some plan =>
        if !reasons.isEmpty then
          { s with status := .blocked, result := some (blockedResult reasons) }
        else applyPlan call plan s

/-- `PatchApplyService.cancel`. -/
def cancelRun (s : ApplyRun) : ApplyRun :=
  if s.status.canCancel then { s with status := .cancelled } else s

/-- `PatchApplyService.rollback`. -/
def requestRollback (call : ApplyCall) (s : ApplyRun) : RollbackResult × ApplyRun :=
  rollbackRun call s.result s

/-- A step: a call on the run, or an edit of the files. -/
inductive ApplyOp
  | execute (call : ApplyCall)
  | cancel
  | rollback (call : ApplyCall)
  | edit (workspace : Workspace)

def applyStep (s : ApplyRun) : ApplyOp → ApplyRun
  | .execute call => executeRun call s
  | .cancel => cancelRun s
  | .rollback call => (requestRollback call s).2
  | .edit workspace => { s with workspace := workspace }

def ApplyRun.Unedited (platform : Platform) (s : ApplyRun) : Prop :=
  ∀ id ∈ s.backupIds, ∀ backup, s.backups[id]? = some backup →
    s.workspace backup.filePath = some (.text (platform.encodeText backup.content))

/-- A rollback is not asked of a run that was blocked or cancelled, and after a rollback
has completed only of a run whose files were not edited. -/
def RollsBackSafely (s : ApplyRun) : ApplyOp → Prop
  | .rollback call => s.status ≠ .blocked ∧ s.status ≠ .cancelled ∧
      (s.undone = true → s.Unedited call.services.platform)
  | _ => True

section

variable {call : ApplyCall} {plan : PatchPlan} {s : ApplyRun} {op : ApplyOp}
  {result : Option PatchApplyResult}

theorem status_rollbackRun : (rollbackRun call result s).2.status =
    if (rollbackRun call result s).1.failedFiles.isEmpty then .rolledBack else .rollbackFailed :=
  rfl

theorem rollbackRun_spec (call : ApplyCall) (result : Option PatchApplyResult) (s : ApplyRun) :
    (rollbackRun call result s).2.applications = s.applications ∧
      ((rollbackRun call result s).2.status = .rolledBack ∨
        (rollbackRun call result s).2.status = .rollbackFailed) := by
  refine ⟨rfl, ?_⟩
  rw [status_rollbackRun]
  split
  · exact .inl rfl
  · exact .inr rfl

theorem applyPlan_spec (call : ApplyCall) (plan : PatchPlan) (s : ApplyRun) :
    (applyPlan call plan s).applications = s.applications + 1 ∧
    ((applyPlan call plan s).status = .completed ∨ (applyPlan call plan s).status = .rolledBack ∨
      (applyPlan call plan s).status = .rollbackFailed) := by
  rw [applyPlan]
  dsimp only
  split
  · exact ⟨(rollbackRun_spec ..).1, .inr (rollbackRun_spec ..).2⟩
  · split
    · exact ⟨(rollbackRun_spec ..).1, .inr (rollbackRun_spec ..).2⟩
    · split
      · exact ⟨rfl, .inl rfl⟩
      · exact ⟨(rollbackRun_spec ..).1, .inr (rollbackRun_spec ..).2⟩

theorem executeRun_of_not_ready (call : ApplyCall) (h : s.status ≠ .readyToExecute) :
    ∃ result, executeRun call s = { s with result := result } := by
  rw [executeRun]
  cases hresult : s.result with
  | some existing => exact ⟨s.result, rfl⟩
  | none =>
    have hnot : (!s.status.canExecute) = true := by
      rw [ApplyRunStatus.canExecute, decide_eq_false h]
      rfl
    dsimp only
    rw [if_pos hnot]
    exact ⟨_, rfl⟩

/-- A run is blocked, which leaves the files, or its plan is applied. -/
theorem executeRun_cases (call : ApplyCall) (s : ApplyRun) :
    (∃ result, executeRun call s = { s with result := result }) ∨
      (∃ result, executeRun call s = { s with status := .blocked, result := result }) ∨
      ∃ plan, s.status = .readyToExecute ∧ executeRun call s = applyPlan call plan s := by
  by_cases hready : s.status = .readyToExecute
  · rw [executeRun]
    cases hresult : s.result with
    | some existing => exact .inl ⟨s.result, rfl⟩
    | none =>
      have hcan : ¬(!s.status.canExecute) = true := by
        rw [hready]
        decide
      dsimp only
      rw [if_neg hcan]
      cases call.plan with
      | none => exact .inr (.inl ⟨_, rfl⟩)
      | some plan =>
        dsimp only
        split
        · exact .inr (.inl ⟨_, rfl⟩)
        · exact .inr (.inr ⟨plan, hready, rfl⟩)
  · exact .inl (executeRun_of_not_ready call hready)

/-- What every call keeps: a run that is ready was not given to the engine, and a run that
was blocked or cancelled has no backups. -/
structure ApplyRun.Lawful (s : ApplyRun) : Prop where
  /-- The engine is asked at most once. -/
  once : s.applications ≤ 1
  ready : s.status = .readyToExecute → s.applications = 0
  stopped : s.status = .readyToExecute ∨ s.status = .blocked ∨ s.status = .cancelled →
    s.backupIds = []
  /-- A run that was rolled back is not ready. -/
  undone : s.undone = true → s.status ≠ .readyToExecute

theorem lawful_createApplyRun (call : ApplyCall) (workspace : Workspace) :
    (createApplyRun call workspace).Lawful :=
  ⟨Nat.zero_le 1, fun _ => rfl, fun _ => rfl, fun h => by cases h⟩

theorem Lawful_rollbackRun (h : s.applications ≤ 1) : (rollbackRun call result s).2.Lawful := by
  obtain ⟨happlications, hstatus⟩ := rollbackRun_spec call result s
  refine ⟨by omega, fun hready => ?_, fun hstopped => ?_, fun _ hready => ?_⟩
  · rcases hstatus with hstatus | hstatus <;> rw [hstatus] at hready <;> cases hready
  · rcases hstatus with hstatus | hstatus <;> rw [hstatus] at hstopped <;> simp at hstopped
  · rcases hstatus with hstatus | hstatus <;> rw [hstatus] at hready <;> cases hready

theorem ApplyRun.Lawful.applyPlan (h : s.Lawful) (hready : s.status = .readyToExecute) :
    (applyPlan call plan s).Lawful := by
  obtain ⟨happlications, hstatus⟩ := applyPlan_spec call plan s
  have hzero := h.ready hready
  refine ⟨by omega, fun hready => ?_, fun hstopped => ?_, fun _ hready => ?_⟩
  · rcases hstatus with hstatus | hstatus | hstatus <;> rw [hstatus] at hready <;> cases hready
  · rcases hstatus with hstatus | hstatus | hstatus <;> rw [hstatus] at hstopped <;>
      simp at hstopped
  · rcases hstatus with hstatus | hstatus | hstatus <;> rw [hstatus] at hready <;> cases hready

theorem ApplyRun.Lawful.step (h : s.Lawful) (op : ApplyOp) : (applyStep s op).Lawful := by
  cases op with
  | execute call =>
    rw [applyStep]
    rcases executeRun_cases call s with
      ⟨result, hsame⟩ | ⟨result, hblocked⟩ | ⟨plan, hready, happlied⟩
    · rw [hsame]
      exact ⟨h.once, h.ready, h.stopped, h.undone⟩
    · by_cases hready : s.status = .readyToExecute
      · rw [hblocked]
        refine ⟨h.once, fun hnot => ?_, fun _ => h.stopped (.inl hready), fun _ hnot => ?_⟩
        · cases hnot
        · cases hnot
      · obtain ⟨result', hsame⟩ := executeRun_of_not_ready call hready
        rw [hsame]
        exact ⟨h.once, h.ready, h.stopped, h.undone⟩
    · rw [happlied]
      exact h.applyPlan hready
  | cancel =>
    rw [applyStep, cancelRun]
    split
    · rename_i hcan
      have hready : s.status = .readyToExecute := by
        cases hstatus : s.status <;> rw [hstatus] at hcan <;>
          first | rfl | exact absurd hcan (by decide)
      refine ⟨h.once, fun hnot => ?_, fun _ => h.stopped (.inl hready), fun _ hnot => ?_⟩
      · cases hnot
      · cases hnot
    · exact h
  | rollback call => exact Lawful_rollbackRun h.once
  | edit workspace => exact ⟨h.once, h.ready, h.stopped, h.undone⟩

theorem status_step_of_stopped (hstopped : s.status = .blocked ∨ s.status = .cancelled)
    (hsafe : RollsBackSafely s op) : (applyStep s op).status = s.status := by
  have hnot : s.status ≠ .readyToExecute := by
    rcases hstopped with h | h <;> rw [h] <;> decide
  cases op with
  | execute call =>
    obtain ⟨result, hsame⟩ := executeRun_of_not_ready call hnot
    rw [applyStep, hsame]
  | cancel =>
    have hcan : s.status.canCancel = false := by
      rcases hstopped with h | h <;> rw [h] <;> decide
    rw [applyStep, cancelRun, hcan, if_neg Bool.false_ne_true]
  | rollback call =>
    rcases hstopped with h | h
    · exact absurd h hsafe.1
    · exact absurd h hsafe.2.1
  | edit workspace => rfl

theorem restoreBackup_of_unedited {services : ApplyServices} {fault : Option RestoreFault}
    {backup : PatchApplyBackup} {id : ℕ} {workspace : Workspace}
    (h : workspace backup.filePath = some (.text (services.platform.encodeText backup.content))) :
    ∀ change ∈ (restoreBackup services fault (some backup) id workspace).2,
      workspace change.1 = change.2 ∨
        change.1 = tempPath backup.filePath ∧ workspace change.1 = none := by
  intro change hchange
  cases htemp : workspace (tempPath backup.filePath) <;>
    rcases fault with _ | _ | _ | ⟨_ | _ | _⟩ <;>
      simp [restoreBackup, atomicWrite, htemp] at hchange <;> simp [hchange, h, htemp]

theorem restoreBackups_cons (services : ApplyServices) (faults : ℕ → Option RestoreFault)
    (backups : List PatchApplyBackup) (id : ℕ) (ids : List ℕ) (rollback : RollbackResult)
    (workspace : Workspace) :
    ∃ rollback', restoreBackups services faults backups (id :: ids) rollback workspace =
      restoreBackups services faults backups ids rollback'
        (overlay workspace
          (restoreBackup services (faults id) backups[id]? id workspace).2) := by
  rw [restoreBackups]
  rcases hrestore : restoreBackup services (faults id) backups[id]? id workspace with
    ⟨_ | _, changes⟩ <;> exact ⟨_, rfl⟩

theorem restoreBackups_of_unedited {services : ApplyServices} {faults : ℕ → Option RestoreFault}
    {backups : List PatchApplyBackup} {ids : List ℕ} {workspace : Workspace}
    (h : ∀ id ∈ ids, ∀ backup, backups[id]? = some backup →
      workspace backup.filePath = some (.text (services.platform.encodeText backup.content)))
    (rollback : RollbackResult) {path : String}
    (hpath : ∀ backup ∈ backups, path ≠ tempPath backup.filePath) :
    (restoreBackups services faults backups ids rollback workspace).2 path = workspace path := by
  induction ids generalizing rollback workspace with
  | nil => rfl
  | cons id ids ih =>
    rw [List.forall_mem_cons] at h
    obtain ⟨rollback', hround⟩ := restoreBackups_cons services faults backups id ids rollback
      workspace
    rw [hround]
    generalize hchanges : (restoreBackup services (faults id) backups[id]? id workspace).2 = changes
    have hsame : ∀ other, (workspace other).isSome ∨ (∀ backup ∈ backups,
        other ≠ tempPath backup.filePath) → overlay workspace changes other = workspace other := by
      intro other hother
      rw [overlay_apply]
      cases hlast : lastChange changes other with
      | none => rfl
      | some content =>
        have hmem := mem_of_lastChange hlast
        rw [← hchanges] at hmem
        cases hbackup : backups[id]? with
        | none =>
          rw [hbackup] at hmem
          cases hmem
        | some backup =>
          rw [hbackup] at hmem
          rcases restoreBackup_of_unedited (h.1 backup hbackup) _ hmem with hsame | ⟨htemp, hnone⟩
          · exact hsame.symm
          · rcases hother with hthere | hnot
            · rw [hnone] at hthere
              cases hthere
            · exact absurd htemp (hnot backup (List.mem_of_getElem? hbackup))
    rw [ih (fun id hid backup hbackup => ?_), hsame path (.inr hpath)]
    have hheld := h.2 id hid backup hbackup
    rw [hsame backup.filePath (.inl (by rw [hheld]; rfl))]
    exact hheld

theorem workspace_step_of_undone (hlawful : s.Lawful) (hundone : s.undone = true)
    (hsafe : RollsBackSafely s op) (hcall : ∀ workspace, op ≠ .edit workspace) {path : String}
    (hpath : ∀ backup ∈ s.backups, path ≠ tempPath backup.filePath) :
    (applyStep s op).workspace path = s.workspace path := by
  cases op with
  | execute call =>
    obtain ⟨result, hsame⟩ := executeRun_of_not_ready call (hlawful.undone hundone)
    rw [applyStep, hsame]
  | cancel =>
    rw [applyStep, cancelRun]
    split <;> rfl
  | rollback call => exact restoreBackups_of_unedited (hsafe.2.2 hundone) _ hpath
  | edit workspace => exact absurd rfl (hcall workspace)

end

/-- In every sequence of calls and edits in which no rollback is asked of a run that was blocked
or cancelled, or of files that were edited since they were rolled back, the engine is asked at
most once, what was blocked or cancelled stays so, and after a rollback no call changes a file.
-/
theorem apply_run_lifecycle (call : ApplyCall) (workspace : Workspace) (ops : List ApplyOp)
    (hops : Along applyStep RollsBackSafely (createApplyRun call workspace) ops) :
    (run applyStep (createApplyRun call workspace) ops).applications ≤ 1 ∧
      (∀ before after, ops = before ++ after →
        let s := run applyStep (createApplyRun call workspace) before
        s.status = .blocked ∨ s.status = .cancelled →
          (run applyStep (createApplyRun call workspace) ops).status = s.status) ∧
      (∀ before call' after, ops = before ++ .rollback call' :: after →
        let s := run applyStep (createApplyRun call workspace) before
        s.status = .blocked ∨ s.status = .cancelled →
          (requestRollback call' s).1.failedFiles ≠ []) ∧
      ∀ before op after, ops = before ++ op :: after →
        let s := run applyStep (createApplyRun call workspace) before
        s.undone = true → (∀ edited, op ≠ .edit edited) →
          ∀ path, (∀ backup ∈ s.backups, path ≠ tempPath backup.filePath) →
            (applyStep s op).workspace path = s.workspace path := by
  have hlawful : ∀ ops, (run applyStep (createApplyRun call workspace) ops).Lawful := fun ops =>
    run_always (P := ApplyRun.Lawful) (fun s op h => h.step op)
      (lawful_createApplyRun call workspace) ops
  refine ⟨(hlawful ops).once, ?_, ?_, ?_⟩
  · rintro before after rfl
    dsimp only
    intro hstopped
    rw [run_append]
    generalize hs : run applyStep (createApplyRun call workspace) before = s at hstopped ⊢
    have hafter : Along applyStep RollsBackSafely s after := by
      rw [← hs]
      exact hops.of_append_right
    refine run_invariant (P := fun s' : ApplyRun => s'.status = s.status)
      (fun s' op hsame hsafe => ?_) rfl hafter
    have hstopped' : s'.status = .blocked ∨ s'.status = .cancelled := by rwa [hsame]
    rw [status_step_of_stopped hstopped' hsafe, hsame]
  · rintro before call' after rfl
    dsimp only
    intro hstopped
    have hsafe := Along.of_append hops
    rcases hstopped with h | h
    · exact absurd h hsafe.1
    · exact absurd h hsafe.2.1
  · rintro before op after rfl
    dsimp only
    intro hundone hcall path hpath
    exact workspace_step_of_undone (hlawful before) hundone (Along.of_append hops) hcall hpath

def sampleServices : ApplyServices where
  platform := .posix
  sha256
    | .text chars => String.ofList chars
    | .binary _ => "binary"
  hasSecret text := text = ['k', 'e', 'y']
  syntaxCheck contents := (contents.all fun c => c.2 ≠ ['('], [])
  guard _ _ := []

def samplePlan (files : List (String × Text × Text)) : PatchPlan where
  affectedFiles := files.map fun f => ⟨f.1, some f.1, some f.1, none⟩
  hunks := files.map fun f => ⟨"hunk", f.1, f.2.1, f.2.2⟩

/-- A file and one with a secret. -/
def sampleWorkspace : Workspace
  | "a" => some (.text ['1'])
  | "b" => some (.text ['k', 'e', 'y'])
  | _ => none

/-- A call in which no operation fails, for a plan that replaces a text in a file. -/
def sampleCall (reasons : List String) : ApplyCall where
  services := { sampleServices with guard := fun _ _ => reasons }
  faults := ⟨fun _ => ⟨none, none, none, none⟩, none, fun _ => none⟩
  plan := some (samplePlan [("a", ['1'], ['2'])])

def editedWorkspace : Workspace
  | "a" => some (.text ['3'])
  | _ => none

/-- A run that is executed twice and rolled back once. -/
theorem executed_once : (run applyStep (createApplyRun (sampleCall []) sampleWorkspace)
      [.execute (sampleCall []), .execute (sampleCall []), .rollback (sampleCall [])]
      ).applications ≤ 1 :=
  (apply_run_lifecycle (sampleCall []) sampleWorkspace
    [.execute (sampleCall []), .execute (sampleCall []), .rollback (sampleCall [])]
    ⟨trivial, trivial, ⟨by decide, by decide, fun h => absurd h (by decide)⟩, trivial⟩).1

/-- A blocked run is rolled back with success, and a second rollback of a run undoes an edit
that was made after the first. -/
theorem rollback_asks_no_lifecycle :
    ((createApplyRun (sampleCall ["approval_missing"]) sampleWorkspace).status = .blocked ∧
      (requestRollback (sampleCall [])
        (createApplyRun (sampleCall ["approval_missing"]) sampleWorkspace)).1.failedFiles = [] ∧
      (applyStep (createApplyRun (sampleCall ["approval_missing"]) sampleWorkspace)
        (.rollback (sampleCall []))).status = .rolledBack) ∧
    let s := run applyStep (createApplyRun (sampleCall []) sampleWorkspace)
      [.execute (sampleCall []), .rollback (sampleCall []), .edit editedWorkspace]
    s.undone = true ∧ s.workspace "a" = some (.text ['3']) ∧
      (applyStep s (.rollback (sampleCall []))).workspace "a" = some (.text ['1']) := by
  decide

end AIpinho.Patching
