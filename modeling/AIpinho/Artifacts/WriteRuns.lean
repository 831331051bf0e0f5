import AIpinho.Lib.Table
import AIpinho.Patching.PatchApply
import Mathlib.Algebra.GroupWithZero.Nat

/-!
# Artifact write runs

An approved artifact preview becomes a write run, and `execute` writes its content: the guard
validates the preview and the approval once more, an existing file is backed up, and what is
there afterwards is validated. Every operation on a file can fail; the store of the runs works.
-/

namespace AIpinho.Artifacts

open Lib
open Patching (Change Content Platform Text WriteFault Workspace universalNewlines)

structure ArtifactTarget where
  targetPath : String
  normalizedTargetPath : Option String
  relativeTargetPath : Option String

structure ArtifactTargetValidation where
  /-- Whether the target may be written. -/
  valid : Bool
  extensionAllowed : Bool
  /-- Whether a file is there already. -/
  wouldOverwrite : Bool
  blockedReasons : List String
  warnings : List String
  target : Option ArtifactTarget

/-- `ArtifactContentValidation`, without the hash of the content. -/
structure ArtifactContentValidation where
  /-- Whether the content may be written. -/
  valid : Bool
  blockedReasons : List String
  warnings : List String

inductive ArtifactRiskLevel
  | low
  | medium
  | high
  | critical
  deriving DecidableEq

structure ArtifactRiskAssessment where
  riskLevel : ArtifactRiskLevel
  blocked : Bool
  reasons : List String
  warnings : List String

inductive ArtifactPreviewStatus
  | previewReady
  | blocked
  | needsApproval
  | approvalPending
  | approvedForFutureWrite
  | rejected
  | cancelled
  | expired
  | invalidated
  deriving DecidableEq

def ArtifactPreviewStatus.text : ArtifactPreviewStatus → String
  | .previewReady => "preview_ready"
  | .blocked => "blocked"
  | .needsApproval => "needs_approval"
  | .approvalPending => "approval_pending"
  | .approvedForFutureWrite => "approved_for_future_write"
  | .rejected => "rejected"
  | .cancelled => "cancelled"
  | .expired => "expired"
  | .invalidated => "invalidated"

structure ArtifactPreview where
  previewId : String
  status : ArtifactPreviewStatus
  workspace : String
  target : ArtifactTarget
  format : String
  artifactType : String
  contentPreview : Text
  contentHash : String
  valid : Bool
  riskBlocked : Bool
  riskLevel : ArtifactRiskLevel
  approvalId : Option String
  wouldOverwrite : Bool
  /-- The hash of that file when the preview was made, or the empty text. -/
  existingTargetHash : String

inductive ApprovalStatus
  | pending
  | approved
  | rejected
  | cancelled
  | expired
  | invalidatedByPolicyChange
  deriving DecidableEq

def ApprovalStatus.text : ApprovalStatus → String
  | .pending => "pending"
  | .approved => "approved"
  | .rejected => "rejected"
  | .cancelled => "cancelled"
  | .expired => "expired"
  | .invalidatedByPolicyChange => "invalidated_by_policy_change"

inductive ApprovalScope
  | preview
  | executionPlan
  | futureExecution
  | futureArtifactWrite
  | artifactWriteExecute
  | patchApply
  | curatedMemoryPersist
  | singleAction
  | safeBatch
  | fullTaskLimited
  deriving DecidableEq

def ApprovalScope.text : ApprovalScope → String
  | .preview => "preview"
  | .executionPlan => "execution_plan"
  | .futureExecution => "future_execution"
  | .futureArtifactWrite => "future_artifact_write"
  | .artifactWriteExecute => "artifact_write_execute"
  | .patchApply => "patch_apply"
  | .curatedMemoryPersist => "curated_memory_persist"
  | .singleAction => "single_action"
  | .safeBatch => "safe_batch"
  | .fullTaskLimited => "full_task_limited"

structure ApprovalRequest where
  previewId : String
  status : ApprovalStatus
  approvalScope : ApprovalScope
  executionStatus : String
  expiresAt : String
  /-- The hash of the approved content, or the empty text. -/
  traceHash : String

/-- The status of a write run. -/
inductive WriteRunStatus
  | created
  | validated
  | readyToExecute
  | running
  | completed
  | failed
  | blocked
  | cancelled
  | invalidated
  deriving DecidableEq

def WriteRunStatus.text : WriteRunStatus → String
  | .created => "created"
  | .validated => "validated"
  | .readyToExecute => "ready_to_execute"
  | .running => "running"
  | .completed => "completed"
  | .failed => "failed"
  | .blocked => "blocked"
  | .cancelled => "cancelled"
  | .invalidated => "invalidated"

/-- `ArtifactWriteLifecycleService.is_terminal`. -/
def WriteRunStatus.isTerminal : WriteRunStatus → Bool
  | .completed | .failed | .blocked | .cancelled | .invalidated => true
  | .created | .validated | .readyToExecute | .running => false

structure ArtifactWriteRequest where
  previewId : String
  approvalId : String
  allowOverwrite : Bool
  operatorConfirmed : Bool

structure ArtifactWriteGuard where
  /-- Whether the content may be written. -/
  allowed : Bool
  targetPath : Option String
  contentHash : String
  resolvedContent : Text
  wouldOverwrite : Bool
  existingHash : Option String
  /-- Why the content may not be written. -/
  blockedReasons : List String
  warnings : List String
  trace : List String

structure ArtifactWriteRun where
  writeRunId : String
  previewId : String
  approvalId : String
  status : WriteRunStatus
  workspace : String
  targetPath : String
  relativeTargetPath : Option String
  contentHash : String
  previewStatusSnapshot : String
  approvalStatusSnapshot : String
  approvalScopeSnapshot : String
  wouldOverwrite : Bool
  allowOverwrite : Bool
  operatorConfirmed : Bool
  backupId : Option String
  warnings : List String
  blockedReasons : List String
  trace : List String

variable (run : ArtifactWriteRun)

/-- The request that `execute` makes of a run. -/
def ArtifactWriteRun.request : ArtifactWriteRequest where
  previewId := run.previewId
  approvalId := run.approvalId
  allowOverwrite := run.allowOverwrite
  operatorConfirmed := run.operatorConfirmed

structure ArtifactPostWriteValidation where
  /-- Whether the file is as it should be. -/
  passed : Bool
  fileExists : Bool
  hashMatch : Bool
  sizeMatch : Bool
  targetMatch : Bool
  extensionAllowed : Bool
  /-- Whether the temporary file is gone. -/
  tempCleaned : Bool
  backupValid : Option Bool
  blockedReasons : List String

def ArtifactPostWriteValidation.default : ArtifactPostWriteValidation :=
  ⟨false, false, false, false, false, false, false, none, []⟩

structure ArtifactWriteResult where
  writeRunId : String
  previewId : String
  approvalId : String
  status : WriteRunStatus
  targetPath : String
  contentHash : String
  bytesWritten : ℕ
  charsWritten : ℕ
  backupId : Option String
  postWriteValidation : ArtifactPostWriteValidation
  safeToReportSuccess : Bool
  /-- Why the run was blocked or failed. -/
  blockedReasons : List String

/-- What the write services ask others for. -/
structure WriteServices where
  platform : Platform
  sha256 : Content → String
  sha256_ne : ∀ content, sha256 content ≠ ""
  /-- `ArtifactSecretScanner.has_secret`. -/
  hasSecret : Text → Bool
  /-- `ArtifactPreviewStore.get_preview`. -/
  preview : String → Option ArtifactPreview
  /-- `ApprovalStore.get`. -/
  approval : String → Option ApprovalRequest
  /-- `ArtifactPathGuardService.validate`. -/
  pathGuard : String → String → Workspace → ArtifactTargetValidation
  /-- `ArtifactContentValidator.validate`. -/
  contentValidator : Text → String → String → ArtifactContentValidation
  /-- `ArtifactRiskService.assess`. -/
  risk : ArtifactTargetValidation → ArtifactContentValidation → ArtifactRiskAssessment
  /-- `_expired`, at a time of the clock. -/
  expired : ℕ → String → Bool
  maxBackupBytes : ℕ
  /-- The largest content that is written. -/
  maxWriteBytes : ℕ

/-- How the validation fails: with an exception, or because it reads something else than
what is there. -/
inductive ValidationFault
  | raises (error : String)
  | misreads (found : Option Content)

/-- How restoring a backup fails: there is no backup file, it cannot be read, the target
cannot be opened, or writing breaks off. -/
inductive RestoreFault
  | missing
  | unreadable
  | refused
  | torn (left : Content)

/-- How the operations of one execution fail. -/
structure WriteFaults where
  /-- `create_backup`. -/
  backup : Option String
  /-- `write_text_atomic`. -/
  write : Option WriteFault
  /-- `ArtifactPostWriteValidator.validate`. -/
  validation : Option ValidationFault
  /-- `restore_backup`. -/
  restore : Option RestoreFault

/-- What a call of `execute` finds. -/
structure ExecuteCall where
  clock : ℕ
  backupId : String
  faults : WriteFaults

def reasonIf (fails : Bool) (reason : String) : List String := if fails then [reason] else []

variable (services : WriteServices)

def approvalReasons (clock : ℕ) (preview : ArtifactPreview) : Option ApprovalRequest → List String
  | none => ["approval_missing"]
  | some approval =>
    reasonIf (approval.previewId ≠ preview.previewId) "approval_preview_mismatch" ++
      reasonIf (approval.status ≠ .approved) ("approval_" ++ approval.status.text) ++
      reasonIf (approval.approvalScope ≠ .futureArtifactWrite &&
        approval.approvalScope ≠ .artifactWriteExecute) "approval_scope_invalid" ++
      reasonIf (approval.executionStatus ≠ "not_executed")
        "approval_already_executed_or_invalid" ++
      reasonIf (services.expired clock approval.expiresAt) "approval_expired" ++
      reasonIf (approval.traceHash ≠ "" && approval.traceHash ≠ preview.contentHash)
        "approval_hash_mismatch"

variable (preview : ArtifactPreview)

def previewReasons (approvalId : String) : List String :=
  reasonIf (preview.status ≠ .approvedForFutureWrite) "preview_not_approved" ++
    reasonIf (preview.approvalId.getD "" ≠ "" && preview.approvalId ≠ some approvalId)
      "preview_approval_mismatch" ++
    reasonIf (!preview.valid || preview.riskBlocked) "preview_invalid_or_blocked" ++
    reasonIf (preview.riskLevel = .critical) "critical_risk"

def targetReasons (validation : ArtifactTargetValidation) : List String :=
  (if !validation.valid || validation.target.isNone then validation.blockedReasons else []) ++
    reasonIf (validation.target.any fun target =>
      preview.target.normalizedTargetPath.getD "" ≠ "" &&
        target.normalizedTargetPath ≠ preview.target.normalizedTargetPath) "target_mismatch"

def riskReasons (risk : ArtifactRiskAssessment) : List String :=
  if risk.blocked || risk.riskLevel = .critical then
    if risk.reasons.isEmpty then ["risk_revalidation_failed"] else risk.reasons
  else []

def ArtifactTarget.overwritePath (target : ArtifactTarget) : String :=
  if target.normalizedTargetPath.getD "" ≠ "" then target.normalizedTargetPath.getD ""
  else target.targetPath

/-- `ArtifactOverwritePolicyService.validate`: why a file may not be overwritten, and
warnings. -/
def overwriteValidate (allowOverwrite : Bool) (currentExistingHash : Option String)
    (files : Workspace) : List String × List String :=
  let targetExists := (files preview.target.overwritePath).isSome
  let snapshot :=
    if preview.existingTargetHash = "" then ["existing_file_snapshot_missing"]
    else
      reasonIf (currentExistingHash.getD "" ≠ "" &&
        currentExistingHash ≠ some preview.existingTargetHash) "existing_file_changed_since_preview"
  (reasonIf (targetExists && !allowOverwrite) "overwrite_requires_explicit_approval" ++
    (if allowOverwrite then
      reasonIf (!preview.wouldOverwrite) "overwrite_not_in_preview" ++ snapshot else []),
    reasonIf (!targetExists && allowOverwrite) "overwrite_requested_for_new_file")

/-- The file that the guard allows to write. -/
def guardTarget (validation : ArtifactTargetValidation) : Option String :=
  match validation.target with
  | some target => target.normalizedTargetPath
  | none => preview.target.normalizedTargetPath

def WriteServices.existingHash (targetPath : Option String) (files : Workspace) : Option String :=
  ((targetPath.filter (· ≠ "")).bind files).map services.sha256

/-- `ArtifactWriteGuardService.validate`. -/
def validateRequest (clock : ℕ) (request : ArtifactWriteRequest) (files : Workspace) :
    ArtifactWriteGuard :=
  let confirmation := reasonIf (!request.operatorConfirmed) "operator_confirmation_required"
  match services.preview request.previewId with
  | none => ⟨false, none, "", [], false, none, confirmation ++ ["artifact_preview_not_found"],
      [], ["artifact_write_guard_started"]⟩
  | some preview =>
    let approval :=
      if request.approvalId = "" then none else services.approval request.approvalId
    let validation := services.pathGuard preview.workspace preview.target.targetPath files
    let content :=
      services.contentValidator preview.contentPreview preview.format preview.artifactType
    let risk := services.risk validation content
    let targetPath := guardTarget preview validation
    let existingHash := services.existingHash targetPath files
    let overwrite := overwriteValidate preview request.allowOverwrite existingHash files
    let blocked := confirmation ++ approvalReasons services clock preview approval ++
      previewReasons preview request.approvalId ++ targetReasons preview validation ++
      (if content.valid then [] else content.blockedReasons) ++
      reasonIf (services.sha256 (.text preview.contentPreview) ≠ preview.contentHash)
        "content_hash_mismatch" ++
      riskReasons risk ++ overwrite.1
    { allowed := blocked.isEmpty
      targetPath := targetPath
      contentHash := preview.contentHash
      resolvedContent := if blocked.isEmpty then preview.contentPreview else []
      wouldOverwrite := preview.wouldOverwrite
      existingHash := existingHash
      blockedReasons := blocked.eraseDups
      warnings :=
        (validation.warnings ++ content.warnings ++ risk.warnings ++ overwrite.2).eraseDups
      trace := ["artifact_write_guard_started",
        if blocked.isEmpty then "artifact_write_guard_allowed"
        else "artifact_write_guard_blocked"] }

def contentSize : Content → ℕ
  | .text chars => (chars.map Char.utf8Size).sum
  | .binary bytes => bytes.length

/-- `ArtifactBackupService.create_backup`: the text of the backup. A text without a secret
has nothing that is redacted. -/
def createBackup (fault : Option String) (content : Content) : Except String Text :=
  if services.maxBackupBytes < contentSize content then .error "backup_size_limit_exceeded"
  else
    match content with
    | .binary _ => .error "backup_binary_blocked"
    | .text chars =>
      if services.hasSecret chars then .error "backup_secret_file_blocked"
      else
        match fault with
        | some error => .error error
        | none => .ok chars

def restoredText (platform : Platform) (backup : Text) : Text :=
  platform.encodeText (universalNewlines (platform.encodeText backup))

/-- `ArtifactBackupService.restore_backup`, with its exceptions caught. -/
def restoreBackup (platform : Platform) (fault : Option RestoreFault) (target : String)
    (backup : Text) (files : Workspace) : Workspace :=
  match fault with
  | some .missing | some .unreadable | some .refused => files
  | some (.torn left) => overlay files [(target, some left)]
  | none => overlay files [(target, some (.text (restoredText platform backup)))]

def tempPath (target : String) : String := target ++ ".aipinho_tmp"

/-- How `write_text_atomic` ends. -/
inductive AtomicWriteResult
  | blocked (reasons : List String)
  | completed (bytesWritten charsWritten : ℕ)
  | raised (error : String)

/-- `ArtifactAtomicWriteService.write_text_atomic`, and what has changed. The content is
written with the ends of lines that it has. -/
def writeTextAtomic (fault : Option WriteFault) (target : String) (content : Text)
    (overwrite : Bool) (files : Workspace) : AtomicWriteResult × List Change :=
  let written := Content.text content
  if (files (tempPath target)).isSome then (.blocked ["temp_exists"], [])
  else if (files target).isSome && !overwrite then (.blocked ["target_exists"], [])
  else if services.maxWriteBytes < contentSize written then
    (.blocked ["write_bytes_limit_exceeded"], [])
  else
    match fault with
    | some (.clean error) => (.raised error, [])
    | some (.litter error left) => (.raised error, [(tempPath target, some left)])
    | some (.late error) => (.raised error, [(target, some written)])
    | none => (.completed (contentSize written) content.length, [(target, some written)])

/-- `ArtifactPostWriteValidator.validate`. -/
def postValidate (fault : Option ValidationFault) (workspace : String) (target : String)
    (expectedHash : String) (expectedBytes : ℕ) (backedUp overwrite : Bool) (files : Workspace) :
    Except String ArtifactPostWriteValidation :=
  let check (found : Option Content) : ArtifactPostWriteValidation :=
    let validation := services.pathGuard workspace target files
    let hashMatch : Bool := (found.map services.sha256).getD "" = expectedHash
    let sizeMatch : Bool := found.map contentSize = some expectedBytes
    let tempExists := (files (tempPath target)).isSome
    let blocked :=
      (if found.isNone then ["target_missing_after_write", "target_not_file_after_write"]
        else []) ++
      reasonIf (!hashMatch) "post_write_hash_mismatch" ++
      reasonIf (!sizeMatch) "post_write_size_mismatch" ++
      (if validation.valid then [] else validation.blockedReasons) ++
      reasonIf tempExists "temp_not_cleaned" ++
      reasonIf (overwrite && !backedUp) "backup_missing_for_overwrite"
    { passed := blocked.isEmpty
      fileExists := found.isSome
      hashMatch := hashMatch
      sizeMatch := sizeMatch
      targetMatch := validation.valid
      extensionAllowed := validation.extensionAllowed
      tempCleaned := !tempExists
      backupValid := if backedUp then some true else if overwrite then some false else none
      blockedReasons := blocked.eraseDups }
  match fault with
  | some (.raises error) => .error error
  | some (.misreads found) => .ok (check found)
  | none => .ok (check (files target))

/-- The stores of the service, and the files. -/
structure WriteState where
  runs : Table String ArtifactWriteRun
  results : Table String ArtifactWriteResult
  files : Workspace

/-- How the body of the `try` in `execute` ends: the atomic write was blocked, the file
was validated, or something was raised. -/
inductive WriteAttempt
  | stopped (reasons : List String)
  | validated (bytesWritten charsWritten : ℕ) (validation : ArtifactPostWriteValidation)
  | raised (error : String)

def backupTarget (faults : WriteFaults) (target : String) (files : Workspace) :
    Except String (Option Text) :=
  match files target with
  | none => .ok none
  | some content => (createBackup services faults.backup content).map some

/-- The body of the `try`, the backup that was made, and the files. -/
def attemptWrite (faults : WriteFaults) (run : ArtifactWriteRun) (guard : ArtifactWriteGuard)
    (target : String) (files : Workspace) : WriteAttempt × Option Text × Workspace :=
  match backupTarget services faults target files with
  | .error error => (.raised error, none, files)
  | .ok backup =>
    match writeTextAtomic services faults.write target guard.resolvedContent run.allowOverwrite
        files with
    | (.raised error, changes) => (.raised error, backup, overlay files changes)
    | (.blocked reasons, changes) => (.stopped reasons, backup, overlay files changes)
    | (.completed bytes chars, changes) =>
      let files := overlay files changes
      match postValidate services faults.validation run.workspace target guard.contentHash bytes
          backup.isSome run.wouldOverwrite files with
      | .error error => (.raised error, backup, files)
      | .ok validation => (.validated bytes chars validation, backup, files)

def blockedResult (reasons : List String) : ArtifactWriteResult :=
  ⟨run.writeRunId, run.previewId, run.approvalId, .blocked, run.targetPath, run.contentHash, 0, 0,
    none, .default, false, reasons.eraseDups⟩

def failedResult (reasons : List String) (backupId : Option String) : ArtifactWriteResult :=
  ⟨run.writeRunId, run.previewId, run.approvalId, .failed, run.targetPath, run.contentHash, 0, 0,
    backupId, .default, false, reasons.eraseDups⟩

/-- What `execute` does with a run that the guard allows: the run, its result and the
files. -/
def writeTarget (call : ExecuteCall) (run : ArtifactWriteRun) (guard : ArtifactWriteGuard)
    (target : String) (files : Workspace) : ArtifactWriteRun × ArtifactWriteResult × Workspace :=
  let (attempt, backup, files) := attemptWrite services call.faults run guard target files
  let backupId := backup.map fun _ => call.backupId
  let run := { run with backupId := backupId.or run.backupId }
  match attempt with
  | .stopped reasons =>
    ({ run with status := .failed }, failedResult run reasons backupId, files)
  | .validated bytes chars validation =>
    let status := if validation.passed then .completed else .failed
    ({ run with status := status, backupId := backupId },
      ⟨run.writeRunId, run.previewId, run.approvalId, status, target, guard.contentHash, bytes,
        chars, backupId, validation, validation.passed, validation.blockedReasons⟩, files)
  | .raised error =>
    let files :=
      match backup with
      | some backup => restoreBackup services.platform call.faults.restore target backup files
      | none => files
    ({ run with status := .failed, backupId := backupId }, failedResult run [error] backupId,
      files)

/-- The identifiers that the store accepts. -/
def validRunId (writeRunId : String) : Bool :=
  let head := "artifact_write_run_".toList
  let digits := writeRunId.toList.drop head.length
  head.isPrefixOf writeRunId.toList && !digits.isEmpty &&
    digits.all fun c => ('a' ≤ c && c ≤ 'f') || ('0' ≤ c && c ≤ '9')

/-- `get_run`, where there must be a run. -/
def WriteState.requireRun (s : WriteState) (writeRunId : String) : Except String ArtifactWriteRun :=
  if !validRunId writeRunId then .error "invalid_artifact_write_run_id"
  else
    match s.runs.get? writeRunId with
    | none => .error "artifact_write_run_not_found"
    | some run => .ok run

def WriteState.save (s : WriteState) (writeRunId : String) (run : ArtifactWriteRun)
    (result : ArtifactWriteResult) (files : Workspace) : WriteState where
  runs := s.runs.insert writeRunId run
  results := s.results.insert writeRunId result
  files := files

/-- What `execute` does with a run that has no result yet. -/
def executeRun (call : ExecuteCall) (run : ArtifactWriteRun) (files : Workspace) :
    ArtifactWriteRun × ArtifactWriteResult × Workspace :=
  if run.status ≠ .readyToExecute then
    (run, blockedResult run ["write_run_not_ready:" ++ run.status.text], files)
  else
    let guard := validateRequest services call.clock run.request files
    match guard.allowed, guard.targetPath.filter (· ≠ "") with
    | true, some target =>
      writeTarget services call { run with status := .running } guard target files
    | _, _ =>
      ({ run with status := .blocked, blockedReasons := guard.blockedReasons },
        blockedResult run guard.blockedReasons, files)

/-- `ArtifactWriteExecutionService.execute`. -/
def execute (call : ExecuteCall) (writeRunId : String) (s : WriteState) :
    Except String ArtifactWriteResult × WriteState :=
  match s.requireRun writeRunId with
  | .error error => (.error error, s)
  | .ok run =>
    match s.results.get? writeRunId with
    | some existing => (.ok existing, s)
    | none =>
      let (run, result, files) := executeRun services call run s.files
      (.ok result, s.save writeRunId run result files)

/-- The run that `create_run_from_preview` saves. -/
def newRun (clock : ℕ) (writeRunId : String) (request : ArtifactWriteRequest) (files : Workspace) :
    ArtifactWriteRun :=
  let guard := validateRequest services clock request files
  let preview := services.preview request.previewId
  let approval := services.approval request.approvalId
  { writeRunId := writeRunId
    previewId := request.previewId
    approvalId := request.approvalId
    status := if guard.allowed then .readyToExecute else .blocked
    workspace := (preview.map (·.workspace)).getD ""
    targetPath :=
      if guard.targetPath.getD "" ≠ "" then guard.targetPath.getD ""
      else ((preview.bind (·.target.normalizedTargetPath))).getD ""
    relativeTargetPath := preview.bind (·.target.relativeTargetPath)
    contentHash := guard.contentHash
    previewStatusSnapshot := (preview.map (·.status.text)).getD "missing"
    approvalStatusSnapshot := (approval.map (·.status.text)).getD "missing"
    approvalScopeSnapshot := (approval.map (·.approvalScope.text)).getD "missing"
    wouldOverwrite := guard.wouldOverwrite
    allowOverwrite := request.allowOverwrite
    operatorConfirmed := request.operatorConfirmed
    backupId := none
    warnings := guard.warnings
    blockedReasons := guard.blockedReasons
    trace := guard.trace }

/-- `create_run_from_preview`; the digits of the identifier are new. -/
def createRunFromPreview (clock : ℕ) (digits : String) (previewId : String)
    (request : ArtifactWriteRequest) (s : WriteState) :
    Except String ArtifactWriteRun × WriteState :=
  if request.previewId ≠ previewId then (.error "preview_id_mismatch", s)
  else
    let writeRunId := "artifact_write_run_" ++ digits
    let run := newRun services clock writeRunId request s.files
    (.ok run, { s with runs := s.runs.insert writeRunId run })

/-- `ArtifactWriteExecutionService.cancel`. -/
def cancel (writeRunId : String) (s : WriteState) : Except String ArtifactWriteRun × WriteState :=
  match s.requireRun writeRunId with
  | .error error => (.error error, s)
  | .ok run =>
    if run.status.isTerminal || run.status = .running then
      (.error "artifact_write_run_not_cancellable", s)
    else
      let run := { run with status := .cancelled }
      (.ok run, { s with runs := s.runs.insert writeRunId run })

end AIpinho.Artifacts
