import AIpinho.Artifacts.WriteRuns

/-!
# What a failed write leaves behind

Only an exception restores the backup, a file that was created is never removed, and a backup
comes back with other ends of lines.
-/

namespace AIpinho.Artifacts

open Lib
open Patching (Content Platform Text WriteFault Workspace universalNewlines)

theorem tempPath_ne (target : String) : tempPath target ≠ target := by
  intro h
  have hlength : (tempPath target).length = target.length := congrArg String.length h
  rw [tempPath, String.length_append] at hlength
  have htemp : (".aipinho_tmp" : String).length = 12 := rfl
  omega

@[simp]
theorem overlay_single_self (files : Workspace) (path : String) (content : Option Content) :
    overlay files [(path, content)] path = content := by
  simp

variable {path writeRunId : String} {services : WriteServices} {s : WriteState}

theorem overlay_single_of_ne {files : Workspace} {path' : String} {content : Option Content}
    (h : path' ≠ path) : overlay files [(path, content)] path' = files path' := by
  simp [Function.update_of_ne h]

variable (platform : Platform)

variable (fault : Option RestoreFault)

def restoredContent (current : Option Content) (backup : Text) : Option Content :=
  match fault with
  | some .missing | some .unreadable | some .refused => current
  | some (.torn left) => some left
  | none => some (.text (restoredText platform backup))

theorem restoreBackup_target (target : String) (backup : Text) (files : Workspace) :
    restoreBackup platform fault target backup files target =
      restoredContent platform fault (files target) backup := by
  unfold restoreBackup restoredContent
  split <;> simp

theorem restoreBackup_of_ne {target : String} (backup : Text) (files : Workspace)
    (h : path ≠ target) : restoreBackup platform fault target backup files path = files path := by
  unfold restoreBackup
  split
  · rfl
  · rfl
  · rfl
  · exact overlay_single_of_ne h
  · exact overlay_single_of_ne h

theorem not_mem_universalNewlines (text : Text) : '\r' ∉ universalNewlines text := by
  fun_induction universalNewlines text with
  | case1 rest ih => simp [ih]
  | case2 rest _ ih => simp [ih]
  | case3 c rest _ hc ih =>
    rw [List.mem_cons, not_or]
    exact ⟨fun h => hc h.symm, ih⟩
  | case4 => simp

theorem restoredText_posix_iff (text : Text) : restoredText .posix text = text ↔ '\r' ∉ text := by
  change universalNewlines text = text ↔ '\r' ∉ text
  constructor
  · intro h
    rw [← h]
    exact not_mem_universalNewlines text
  · intro h
    fun_induction universalNewlines text with
    | case1 | case2 => simp at h
    | case3 c rest _ _ ih =>
      rw [List.mem_cons, not_or] at h
      rw [ih h.2]
    | case4 => rfl

def BackupFails (services : WriteServices) (fault : Option String) (old : Option Content) : Prop :=
  ∃ content, old = some content ∧
    (services.maxBackupBytes < contentSize content ∨ (∃ bytes, content = .binary bytes) ∨
      (∃ chars, content = .text chars ∧ services.hasSecret chars = true) ∨ fault.isSome = true)

/-- A backup fails, or holds the text of the file. -/
theorem backupTarget_cases (services : WriteServices) (faults : WriteFaults) (target : String)
    (files : Workspace) :
    (BackupFails services faults.backup (files target) ∧
      ∃ error, backupTarget services faults target files = .error error) ∨
    (¬BackupFails services faults.backup (files target) ∧
      ∃ backup : Option Text, backupTarget services faults target files = .ok backup ∧
        files target = backup.map Content.text) := by
  unfold backupTarget BackupFails
  cases hold : files target with
  | none =>
    right
    exact ⟨by simp, none, rfl, rfl⟩
  | some content =>
    dsimp only
    unfold createBackup
    by_cases hsize : services.maxBackupBytes < contentSize content
    · left
      refine ⟨⟨content, rfl, Or.inl hsize⟩, "backup_size_limit_exceeded", ?_⟩
      rw [if_pos hsize]
      rfl
    · rw [if_neg hsize]
      cases content with
      | binary bytes =>
        left
        exact ⟨⟨.binary bytes, rfl, Or.inr (Or.inl ⟨bytes, rfl⟩)⟩, "backup_binary_blocked", rfl⟩
      | text chars =>
        cases hsecret : services.hasSecret chars with
        | true =>
          left
          exact ⟨⟨.text chars, rfl, Or.inr (Or.inr (Or.inl ⟨chars, rfl, hsecret⟩))⟩,
            "backup_secret_file_blocked", by simp [hsecret, Except.map]⟩
        | false =>
          cases hfault : faults.backup with
          | some error =>
            left
            exact ⟨⟨.text chars, rfl, Or.inr (Or.inr (Or.inr rfl))⟩, error,
              by simp [hsecret, Except.map]⟩
          | none =>
            right
            refine ⟨?_, some chars, by simp [hsecret, Except.map], rfl⟩
            rintro ⟨content, hcontent, hfails⟩
            cases hcontent
            simp [hsize, hsecret] at hfails

/-- `write_text_atomic` refuses to write. -/
def WriteRefused (services : WriteServices) (target : String) (content : Text)
    (overwrite : Bool) (files : Workspace) : Prop :=
  (files (tempPath target)).isSome ∨ ((files target).isSome ∧ overwrite = false) ∨
    services.maxWriteBytes < contentSize (.text content)

theorem writeTextAtomic_of_refused {target : String} {content : Text} {overwrite : Bool}
    {files : Workspace} (h : WriteRefused services target content overwrite files)
    (fault : Option WriteFault) :
    ∃ reasons, writeTextAtomic services fault target content overwrite files =
      (.blocked reasons, []) := by
  unfold writeTextAtomic
  by_cases htemp : (files (tempPath target)).isSome
  · exact ⟨["temp_exists"], if_pos htemp⟩
  · rw [if_neg htemp]
    cases htarget : (files target).isSome && !overwrite with
    | true => exact ⟨["target_exists"], rfl⟩
    | false =>
      have hsize : services.maxWriteBytes < contentSize (.text content) := by
        rcases h with h | ⟨hsome, hoverwrite⟩ | h
        · exact absurd h htemp
        · simp [hsome, hoverwrite] at htarget
        · exact h
      exact ⟨["write_bytes_limit_exceeded"], if_pos hsize⟩

theorem writeTextAtomic_of_not_refused {target : String} {content : Text} {overwrite : Bool}
    {files : Workspace} (h : ¬WriteRefused services target content overwrite files)
    (fault : Option WriteFault) :
    writeTextAtomic services fault target content overwrite files = match fault with
      | some (.clean error) => (.raised error, [])
      | some (.litter error left) => (.raised error, [(tempPath target, some left)])
      | some (.late error) => (.raised error, [(target, some (.text content))])
      | none => (.completed (contentSize (.text content)) content.length,
          [(target, some (.text content))]) := by
  unfold WriteRefused at h
  push Not at h
  obtain ⟨htemp, htarget, hsize⟩ := h
  have hboth : ¬((files target).isSome && !overwrite) = true := by
    simpa using htarget
  unfold writeTextAtomic
  refine (if_neg htemp).trans ((if_neg hboth).trans ((if_neg (not_lt.mpr hsize)).trans ?_))
  rcases fault with _ | _ | _ | _ <;> rfl

/-- The write that a call of `execute` makes: its run, what the guard says and the file. -/
structure PendingWrite where
  run : ArtifactWriteRun
  guard : ArtifactWriteGuard
  target : String

def pendingOf (services : WriteServices) (clock : ℕ) (run : ArtifactWriteRun)
    (files : Workspace) : Option PendingWrite :=
  if run.status ≠ .readyToExecute then none
  else
    let guard := validateRequest services clock run.request files
    if guard.allowed then
      (guard.targetPath.filter (· ≠ "")).map (⟨{ run with status := .running }, guard, ·⟩)
    else none

/-- The write that a call of `execute` makes, if it makes one. -/
def WriteState.pending (s : WriteState) (services : WriteServices) (call : ExecuteCall)
    (writeRunId : String) : Option PendingWrite :=
  match s.requireRun writeRunId, s.results.get? writeRunId with
  | .ok run, none => pendingOf services call.clock run s.files
  | _, _ => none

def PendingWrite.Validates (write : PendingWrite) (services : WriteServices)
    (faults : WriteFaults) (files : Workspace) : Prop :=
  let written := Content.text write.guard.resolvedContent
  ∃ validation,
    postValidate services faults.validation write.run.workspace write.target
      write.guard.contentHash (contentSize written) (files write.target).isSome
      write.run.wouldOverwrite (overlay files [(write.target, some written)]) = .ok validation ∧
    validation.passed = true

/-- Backup, write and validation all succeed. -/
def PendingWrite.Completes (write : PendingWrite) (services : WriteServices)
    (faults : WriteFaults) (files : Workspace) : Prop :=
  ¬BackupFails services faults.backup (files write.target) ∧
  ¬WriteRefused services write.target write.guard.resolvedContent write.run.allowOverwrite files ∧
  faults.write = none ∧ write.Validates services faults files

/-- Where a step fails, the old file is still there, or is restored. -/
def PendingWrite.Recovered (write : PendingWrite) (services : WriteServices)
    (faults : WriteFaults) (files : Workspace) : Prop :=
  let old := files write.target
  let written := some (Content.text write.guard.resolvedContent)
  BackupFails services faults.backup old ∨
  WriteRefused services write.target write.guard.resolvedContent write.run.allowOverwrite files ∨
  match faults.write, faults.validation with
  -- The exception comes before the file is replaced: restoring the backup writes it anew.
  | some (.clean _), _ | some (.litter _ _), _ =>
    ∀ chars, old = some (.text chars) →
      restoredContent services.platform faults.restore old chars = old
  -- The exception comes after it: only a file that was there is restored.
  | some (.late _), _ | none, some (.raises _) =>
    ∃ chars, old = some (.text chars) ∧
      restoredContent services.platform faults.restore written chars = old
  -- A validation that fails restores nothing.
  | none, _ => old = written

theorem recover_early_iff {target : String} {backup : Option Text} {files files' : Workspace}
    (hold : files target = backup.map Content.text) (hsame : files' target = files target) :
    (match backup with
      | some backup => restoreBackup platform fault target backup files'
      | none => files') target = files target ↔
    ∀ chars, files target = some (.text chars) →
      restoredContent platform fault (files target) chars = files target := by
  cases backup with
  | none =>
    rw [hold] at hsame ⊢
    simp [hsame]
  | some backup =>
    dsimp only
    rw [restoreBackup_target, hsame]
    constructor
    · intro h chars hchars
      obtain rfl : backup = chars := by simpa [hold] using hchars
      exact h
    · intro h
      exact h backup hold

theorem recover_late_iff {target : String} {backup : Option Text} {files files' : Workspace}
    {written : Content} (hold : files target = backup.map Content.text)
    (hwritten : files' target = some written) :
    (match backup with
      | some backup => restoreBackup platform fault target backup files'
      | none => files') target = files target ↔
    ∃ chars, files target = some (.text chars) ∧
      restoredContent platform fault (some written) chars = files target := by
  cases backup with
  | none =>
    rw [hold]
    simp [hwritten]
  | some backup =>
    dsimp only
    rw [restoreBackup_target, hwritten]
    constructor
    · intro h
      exact ⟨backup, hold, h⟩
    · rintro ⟨chars, hchars, h⟩
      obtain rfl : backup = chars := by simpa [hold] using hchars
      exact h

theorem recover_of_ne {target : String} (backup : Option Text) (files : Workspace)
    (h : path ≠ target) :
    (match backup with
      | some backup => restoreBackup platform fault target backup files
      | none => files) path = files path := by
  cases backup with
  | none => rfl
  | some backup => exact restoreBackup_of_ne platform fault backup files h

variable {call : ExecuteCall} {write : PendingWrite}

/-- The channels by which a write ends, with the files that each leaves. -/
theorem attemptWrite_cases (services : WriteServices) (faults : WriteFaults)
    (write : PendingWrite) (files : Workspace) :
    let attempt := attemptWrite services faults write.run write.guard write.target files
    let written := Content.text write.guard.resolvedContent
    let files' := overlay files [(write.target, some written)]
    (BackupFails services faults.backup (files write.target) ∧
      ∃ error, attempt = (.raised error, none, files)) ∨
    (¬BackupFails services faults.backup (files write.target) ∧
      ∃ backup : Option Text, files write.target = backup.map Content.text ∧
      ((WriteRefused services write.target write.guard.resolvedContent write.run.allowOverwrite
            files ∧ ∃ reasons, attempt = (.stopped reasons, backup, files)) ∨
        (¬WriteRefused services write.target write.guard.resolvedContent
            write.run.allowOverwrite files ∧
          match faults.write with
          | some (.clean error) => attempt = (.raised error, backup, files)
          | some (.litter error left) =>
            attempt = (.raised error, backup, overlay files [(tempPath write.target, some left)])
          | some (.late error) => attempt = (.raised error, backup, files')
          | none =>
            match postValidate services faults.validation write.run.workspace write.target
              write.guard.contentHash (contentSize written) backup.isSome write.run.wouldOverwrite
              files' with
            | .error error => attempt = (.raised error, backup, files')
            | .ok validation => attempt = (.validated (contentSize written)
                write.guard.resolvedContent.length validation, backup, files')))) := by
  obtain ⟨run, guard, target⟩ := write
  unfold attemptWrite
  dsimp only
  rcases backupTarget_cases services faults target files with
    ⟨hfails, error, hbackup⟩ | ⟨hfails, backup, hbackup, hold⟩
  · rw [hbackup]
    exact Or.inl ⟨hfails, error, rfl⟩
  right
  refine ⟨hfails, backup, hold, ?_⟩
  rw [hbackup]
  dsimp only
  by_cases hrefused : WriteRefused services target guard.resolvedContent run.allowOverwrite files
  · obtain ⟨reasons, hwrite⟩ := writeTextAtomic_of_refused hrefused faults.write
    rw [hwrite]
    exact Or.inl ⟨hrefused, reasons, rfl⟩
  right
  refine ⟨hrefused, ?_⟩
  rw [writeTextAtomic_of_not_refused hrefused]
  rcases faults.write with _ | _ | _ | _
  · dsimp only
    split
    · rename_i error hvalidation
      rw [hvalidation]
    · rename_i validation hvalidation
      rw [hvalidation]
  · rfl
  · rfl
  · rfl

theorem postValidate_error_iff {fault : Option ValidationFault}
    {workspace target expectedHash : String} {expectedBytes : ℕ} {backedUp overwrite : Bool}
    {files : Workspace} {error : String} :
    postValidate services fault workspace target expectedHash expectedBytes backedUp overwrite
      files = .error error ↔ fault = some (.raises error) := by
  unfold postValidate
  rcases fault with _ | _ | _ <;> simp

/-- The target is as before exactly if it was recovered. -/
theorem writeTarget_target_iff (services : WriteServices) (call : ExecuteCall)
    (write : PendingWrite) (files : Workspace) :
    (writeTarget services call write.run write.guard write.target files).2.2 write.target =
      files write.target ↔ write.Recovered services call.faults files := by
  unfold PendingWrite.Recovered writeTarget
  dsimp only
  rcases attemptWrite_cases services call.faults write files with
    ⟨hfails, error, hattempt⟩ | ⟨hfails, backup, hold, hattempt⟩
  · rw [hattempt]
    exact ⟨fun _ => Or.inl hfails, fun _ => rfl⟩
  rw [or_iff_right hfails]
  rcases hattempt with ⟨hrefused, reasons, hattempt⟩ | ⟨hrefused, hattempt⟩
  · rw [hattempt]
    exact ⟨fun _ => Or.inl hrefused, fun _ => rfl⟩
  rw [or_iff_right hrefused]
  cases hwrite : call.faults.write with
  | some fault =>
    rw [hwrite] at hattempt
    cases fault with
    | clean error =>
      rw [hattempt]
      exact recover_early_iff _ _ hold rfl
    | litter error left =>
      rw [hattempt]
      exact recover_early_iff _ _ hold (overlay_single_of_ne (tempPath_ne write.target).symm)
    | late error =>
      rw [hattempt]
      exact recover_late_iff _ _ hold (overlay_single_self _ _ _)
  | none =>
    rw [hwrite] at hattempt
    dsimp only at hattempt ⊢
    split at hattempt
    · rename_i error hvalidation
      rw [hattempt, postValidate_error_iff.mp hvalidation]
      exact recover_late_iff _ _ hold (overlay_single_self _ _ _)
    · rename_i validation hvalidation
      rw [hattempt]
      dsimp only
      rw [overlay_single_self]
      rcases hfault : call.faults.validation with _ | error | found
      · exact eq_comm
      · rw [postValidate_error_iff.mpr hfault] at hvalidation
        cases hvalidation
      · exact eq_comm

theorem writeTarget_of_ne (services : WriteServices) (call : ExecuteCall) (write : PendingWrite)
    (files : Workspace) (htarget : path ≠ write.target) (htemp : path ≠ tempPath write.target) :
    (writeTarget services call write.run write.guard write.target files).2.2 path = files path := by
  unfold writeTarget
  dsimp only
  rcases attemptWrite_cases services call.faults write files with
    ⟨-, error, hattempt⟩ | ⟨-, backup, -, ⟨-, reasons, hattempt⟩ | ⟨-, hattempt⟩⟩
  · rw [hattempt]
  · rw [hattempt]
  have hlate : overlay files [(write.target, some (.text write.guard.resolvedContent))] path =
      files path := overlay_single_of_ne htarget
  rcases hwrite : call.faults.write with _ | _ | _ | _
  · rw [hwrite] at hattempt
    dsimp only at hattempt
    split at hattempt
    · rw [hattempt]
      exact (recover_of_ne _ _ _ _ htarget).trans hlate
    · rw [hattempt]
      exact hlate
  · rw [hwrite] at hattempt
    rw [hattempt]
    exact recover_of_ne _ _ _ _ htarget
  · rw [hwrite] at hattempt
    rw [hattempt]
    exact (recover_of_ne _ _ _ _ htarget).trans (overlay_single_of_ne htemp)
  · rw [hwrite] at hattempt
    rw [hattempt]
    exact (recover_of_ne _ _ _ _ htarget).trans hlate

theorem writeTarget_completed_iff (services : WriteServices) (call : ExecuteCall)
    (write : PendingWrite) (files : Workspace) :
    (writeTarget services call write.run write.guard write.target files).2.1.status =
      .completed ↔ write.Completes services call.faults files := by
  unfold PendingWrite.Completes PendingWrite.Validates writeTarget failedResult
  dsimp only
  rcases attemptWrite_cases services call.faults write files with
    ⟨hfails, error, hattempt⟩ | ⟨hfails, backup, hold, hattempt⟩
  · rw [hattempt]
    simp [hfails]
  rcases hattempt with ⟨hrefused, reasons, hattempt⟩ | ⟨hrefused, hattempt⟩
  · rw [hattempt]
    simp [hrefused]
  have hsome : (files write.target).isSome = backup.isSome := by simp [hold]
  rcases hwrite : call.faults.write with _ | _ | _ | _
  · rw [hwrite] at hattempt
    dsimp only at hattempt
    rw [hsome]
    split at hattempt
    · rename_i error hvalidation
      rw [hattempt, hvalidation]
      simp
    · rename_i validation hvalidation
      rw [hattempt, hvalidation]
      cases hpassed : validation.passed <;> simp [hfails, hrefused, hpassed]
  · rw [hwrite] at hattempt
    rw [hattempt]
    simp
  · rw [hwrite] at hattempt
    rw [hattempt]
    simp
  · rw [hwrite] at hattempt
    rw [hattempt]
    simp

theorem executeRun_of_no_write {run : ArtifactWriteRun} {files : Workspace}
    (h : pendingOf services call.clock run files = none) :
    (executeRun services call run files).2.2 = files := by
  unfold pendingOf at h
  unfold executeRun
  by_cases hready : run.status ≠ .readyToExecute
  · rw [if_pos hready]
  · rw [if_neg hready] at h ⊢
    dsimp only at h ⊢
    split
    · rename_i target hallowed htarget
      rw [if_pos hallowed, htarget] at h
      cases h
    · rfl

theorem executeRun_of_write {run : ArtifactWriteRun} {files : Workspace}
    (h : pendingOf services call.clock run files = some write) :
    executeRun services call run files =
      writeTarget services call write.run write.guard write.target files := by
  unfold pendingOf at h
  unfold executeRun
  by_cases hready : run.status ≠ .readyToExecute
  · rw [if_pos hready] at h
    cases h
  · rw [if_neg hready] at h ⊢
    dsimp only at h ⊢
    split at h
    · rename_i hallowed
      obtain ⟨target, htarget, rfl⟩ := Option.map_eq_some_iff.mp h
      rw [hallowed, htarget]
    · cases h

theorem pending_eq_some (h : s.pending services call writeRunId = some write) :
    ∃ run, s.requireRun writeRunId = .ok run ∧ s.results.get? writeRunId = none ∧
      pendingOf services call.clock run s.files = some write := by
  unfold WriteState.pending at h
  split at h
  · rename_i run hrun hresult
    exact ⟨run, hrun, hresult, h⟩
  · cases h

theorem execute_of_no_write (h : s.pending services call writeRunId = none) :
    (execute services call writeRunId s).2.files = s.files := by
  unfold WriteState.pending at h
  unfold execute
  cases hrun : s.requireRun writeRunId with
  | error error => rfl
  | ok run =>
    cases hresult : s.results.get? writeRunId with
    | some existing => rfl
    | none =>
      rw [hrun, hresult] at h
      exact executeRun_of_no_write h

theorem execute_of_write (h : s.pending services call writeRunId = some write) :
    (execute services call writeRunId s).2.files =
      (writeTarget services call write.run write.guard write.target s.files).2.2 := by
  obtain ⟨run, hrun, hresult, hwrite⟩ := pending_eq_some h
  have hfiles := executeRun_of_write hwrite
  unfold execute
  rw [hrun]
  dsimp only
  rw [hresult]
  dsimp only
  rw [← hfiles]
  rfl

theorem execute_result_of_write (h : s.pending services call writeRunId = some write) :
    (execute services call writeRunId s).1 =
      .ok (writeTarget services call write.run write.guard write.target s.files).2.1 := by
  obtain ⟨run, hrun, hresult, hwrite⟩ := pending_eq_some h
  unfold execute
  rw [hrun]
  dsimp only
  rw [hresult]
  dsimp only
  rw [executeRun_of_write hwrite]

/-- Every call that does not complete leaves the files but for the temporary one as they
were exactly if the write it makes, if any, completes or is recovered. -/
theorem failed_write_is_undone_iff (services : WriteServices) (call : ExecuteCall)
    (writeRunId : String) (s : WriteState) :
    (∀ result, (execute services call writeRunId s).1 = .ok result → result.status ≠ .completed →
      ∀ path, (∀ write, s.pending services call writeRunId = some write →
          path ≠ tempPath write.target) →
        (execute services call writeRunId s).2.files path = s.files path) ↔
    ∀ write, s.pending services call writeRunId = some write →
      write.Completes services call.faults s.files ∨
        write.Recovered services call.faults s.files := by
  cases hpending : s.pending services call writeRunId with
  | none =>
    rw [execute_of_no_write hpending]
    simp
  | some write =>
    rw [execute_of_write hpending, execute_result_of_write hpending]
    have hcompleted := writeTarget_completed_iff services call write s.files
    have htarget := writeTarget_target_iff services call write s.files
    constructor
    · rintro h write' hwrite
      cases hwrite
      by_cases hcompletes : write.Completes services call.faults s.files
      · exact Or.inl hcompletes
      · right
        refine htarget.mp (h _ rfl (fun hstatus => hcompletes (hcompleted.mp hstatus)) _ ?_)
        rintro write' hwrite
        cases hwrite
        exact (tempPath_ne write.target).symm
    · rintro h result hresult hstatus path hpath
      cases hresult
      rcases h write rfl with hcompletes | hrecovered
      · exact absurd (hcompleted.mpr hcompletes) hstatus
      · by_cases hsame : path = write.target
        · subst hsame
          exact htarget.mpr hrecovered
        · exact writeTarget_of_ne services call write s.files hsame (hpath write rfl)

def sampleHash : Content → String
  | .text chars => "text " ++ String.ofList chars
  | .binary _ => "binary"

theorem sampleHash_ne (content : Content) : sampleHash content ≠ "" := by
  cases content with
  | text chars =>
    intro h
    have hlength : ("text " ++ String.ofList chars).length = ("" : String).length :=
      congrArg String.length h
    rw [String.length_append] at hlength
    have htext : ("text " : String).length = 5 := rfl
    have hempty : ("" : String).length = 0 := rfl
    omega
  | binary bytes =>
    change "binary" ≠ ""
    decide

/-- Services on POSIX that allow every path and content, with a preview that overwrites the
file `a` and its approval. -/
def sampleServices : WriteServices where
  platform := .posix
  sha256 := sampleHash
  sha256_ne := sampleHash_ne
  hasSecret _ := false
  preview _ := some ⟨"preview", .approvedForFutureWrite, "workspace", ⟨"a", some "a", some "a"⟩,
    "text", "report", ['n'], "text n", true, false, .low, some "approval", true, "text o"⟩
  approval _ := some ⟨"preview", .approved, .futureArtifactWrite, "not_executed", "later", ""⟩
  pathGuard _ path files := ⟨true, true, (files path).isSome, [], [], some ⟨path, path, path⟩⟩
  contentValidator _ _ _ := ⟨true, [], []⟩
  risk _ _ := ⟨.low, false, [], []⟩
  expired _ _ := false
  maxBackupBytes := 300000
  maxWriteBytes := 300000

def sampleCall : ExecuteCall := ⟨0, "artifact_backup_a", ⟨none, none, none, none⟩⟩

def oldFiles : Workspace
  | "a" => some (.text ['o'])
  | _ => none

/-- A run is created while `a` has its old text; then someone changes the files. -/
def sampleState (files : Workspace) : WriteState :=
  { (createRunFromPreview sampleServices 0 "a" "preview" ⟨"preview", "approval", true, true⟩
      ⟨⟨[], List.nodup_nil⟩, ⟨[], List.nodup_nil⟩, oldFiles⟩).2 with files := files }

/-- The file is gone when the run is executed, so there is no backup. It is written anew,
the validation asks for the backup, and the new file stays. -/
theorem failed_write_creates_file : ((execute sampleServices sampleCall "artifact_write_run_a"
        (sampleState fun _ => none)).1.toOption.map fun result =>
          (result.status, result.blockedReasons)) =
      some (.failed, ["backup_missing_for_overwrite"]) ∧
    (sampleState fun _ => none).files "a" = none ∧
    (execute sampleServices sampleCall "artifact_write_run_a"
      (sampleState fun _ => none)).2.files "a" = some (.text ['n']) := by
  decide +kernel

end AIpinho.Artifacts
