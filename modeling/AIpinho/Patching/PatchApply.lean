import AIpinho.Lib.Overlay
import Mathlib.Data.List.Infix

/-!
# Applying a patch

`PatchApplyService.execute` lets the engine change the affected files of a plan one by one,
validates them afterwards and rolls them back if something went wrong. Every operation on a file
can fail; the store of the apply runs works.
-/

namespace AIpinho.Patching

open Lib

abbrev Text : Type := List Char

/-- The content of a file: the text its bytes encode, or bytes that are no UTF-8. -/
inductive Content
  | text (chars : Text)
  | binary (bytes : List UInt8)
  deriving DecidableEq

abbrev Workspace : Type := String → Option Content

/-- A path with what is there afterwards. -/
abbrev Change : Type := String × Option Content

/-- The systems that differ in how they write the end of a line. -/
inductive Platform
  | posix
  | windows

/-- Reading a text turns every end of a line into a line feed. -/
def universalNewlines : Text → Text
  | '\r' :: '\n' :: rest => '\n' :: universalNewlines rest
  | '\r' :: rest => '\n' :: universalNewlines rest
  | c :: rest => c :: universalNewlines rest
  | [] => []

/-- Writing a text turns every line feed into the end of a line of the platform. -/
def Platform.encodeText : Platform → Text → Text
  | .posix, text => text
  | .windows, text => text.flatMap fun c => if c = '\n' then ['\r', '\n'] else [c]

/-- `Path.read_text`. -/
def Content.readText : Content → Except String Text
  | .text chars => .ok (universalNewlines chars)
  | .binary _ => .error "UnicodeDecodeError"

structure PatchHunk where
  hunkId : String
  filePath : String
  original : Text
  replacement : Text

structure AffectedFile where
  path : String
  normalizedPath : Option String
  relativePath : Option String
  /-- The hash of the file when the plan was made. -/
  originalHash : Option String

def AffectedFile.rel (file : AffectedFile) : String :=
  if file.relativePath.getD "" ≠ "" then file.relativePath.getD "" else file.path

def AffectedFile.target (file : AffectedFile) : String := file.normalizedPath.getD ""

structure PatchPlan where
  affectedFiles : List AffectedFile
  hunks : List PatchHunk

structure HunkApplyResult where
  hunkId : String
  filePath : String
  applied : Bool
  reason : String
  beforeHash : String
  afterHash : String

/-- The status of the result of a file. -/
inductive FileStatus
  | completed
  | failed
  deriving DecidableEq

structure PatchApplyFileResult where
  filePath : String
  status : FileStatus
  changed : Bool
  backupId : Option ℕ
  originalHash : String
  finalHash : String
  hunkResults : List HunkApplyResult
  warnings : List String
  blockedReasons : List String

/-- `PatchApplyBackup`, with the text of the backup file. -/
structure PatchApplyBackup where
  filePath : String
  content : Text

/-- What the services ask others for. -/
structure ApplyServices where
  platform : Platform
  sha256 : Content → String
  hasSecret : Text → Bool
  /-- `StaticSyntaxValidator`: whether the texts are valid, and its warnings. -/
  syntaxCheck : List (String × Text) → Bool × List String
  /-- `PatchApplyGuardService`: the reasons not to apply a plan. -/
  guard : Option PatchPlan → Workspace → List String

/-- How writing a file fails: nothing has happened; the temporary file could not
be removed either; or the target is replaced already. -/
inductive WriteFault
  | clean (error : String)
  | litter (error : String) (left : Content)
  | late (error : String)

/-- How the operations on one file fail. -/
structure FileFaults where
  /-- `sha256_file`. -/
  hash : Option String
  /-- `create_backup`. -/
  backup : Option String
  /-- `read_text`. -/
  read : Option String
  /-- `AtomicPatchWriteService.write`. -/
  write : Option WriteFault

/-- How restoring a backup fails. -/
inductive RestoreFault
  | missing
  | unreadable
  | write (fault : WriteFault)

/-- How the operations of one execution fail. -/
structure Faults where
  file : ℕ → FileFaults
  validation : Option String
  restore : ℕ → Option RestoreFault

def tempPath (target : String) : String := target ++ ".aipinho_patch_tmp"

/-- `AtomicPatchWriteService.write`: the content that was written, and what has
changed. -/
def atomicWrite (platform : Platform) (fault : Option WriteFault) (target : String)
    (content : Text) (workspace : Workspace) : Except String Content × List Change :=
  let written := Content.text (platform.encodeText content)
  if (workspace (tempPath target)).isSome then (.error "patch_temp_file_exists", [])
  else
    match fault with
    | some (.clean error) => (.error error, [])
    | some (.litter error left) => (.error error, [(tempPath target, some left)])
    | some (.late error) => (.error error, [(target, some written)])
    | none => (.ok written, [(target, some written)])

/-- `content.replace(old, new, 1)`. -/
def replaceFirst (old new : Text) : Text → Text
  | [] => if old.isPrefixOf [] then new else []
  | c :: cs =>
    if old.isPrefixOf (c :: cs) then new ++ (c :: cs).drop old.length
    else c :: replaceFirst old new cs

variable (services : ApplyServices)

def ApplyServices.sha256Text (text : Text) : String :=
  services.sha256 (.text text)

/-- `HunkApplyEngine.apply`. -/
def applyHunk (content : Text) (hunk : PatchHunk) : Text × HunkApplyResult :=
  let before := services.sha256Text content
  if hunk.original = [] then
    (hunk.replacement, ⟨hunk.hunkId, hunk.filePath, true, "new_file_content_created", before,
      services.sha256Text hunk.replacement⟩)
  else if ¬hunk.original <:+: content then
    (content, ⟨hunk.hunkId, hunk.filePath, false, "removed_lines_or_context_mismatch", before,
      before⟩)
  else
    let updated := replaceFirst hunk.original hunk.replacement content
    (updated, ⟨hunk.hunkId, hunk.filePath, true, "exact_context_match", before,
      services.sha256Text updated⟩)

def applyHunks (services : ApplyServices) :
    Text → List PatchHunk → List HunkApplyResult →
      Except HunkApplyResult Text × List HunkApplyResult
  | content, [], results => (.ok content, results)
  | content, hunk :: hunks, results =>
    let (updated, result) := applyHunk services content hunk
    if result.applied then applyHunks services updated hunks (results ++ [result])
    else (.error result, results ++ [result])

/-- `PatchApplyEngine._path_key`. -/
def pathKey (path : String) : List Char :=
  let slashes := path.toList.map fun c => if c = '\\' then '/' else c
  ((slashes.dropWhile (· = '/')).reverse.dropWhile (· = '/')).reverse

variable (plan : PatchPlan)

def PatchPlan.hunksOf (file : AffectedFile) : List PatchHunk :=
  plan.hunks.filter fun hunk => pathKey hunk.filePath = pathKey file.rel

/-- What the engine changes: the files, the backups, and the writes that the
tracker has seen. -/
structure ApplyState where
  workspace : Workspace
  backups : List PatchApplyBackup
  observedWrites : List String

/-- `PatchApplyBackupService.create_backup`. -/
def createBackup (fault : Option String) (target : String) (content : Content) :
    Except String PatchApplyBackup := do
  let text ← content.readText
  if services.hasSecret text then .error "backup_secret_file_blocked"
  else
    match fault with
    | some error => .error error
    | none => .ok ⟨target, text⟩

def readTarget (faults : FileFaults) (target : String) :
    Option Content → Except String (String × Option PatchApplyBackup × Text)
  | none => .ok (services.sha256Text [], none, [])
  | some content =>
    match faults.hash with
    | some error => .error error
    | none => do
      let backup ← createBackup services faults.backup target content
      match faults.read with
      | some error => .error error
      | none =>
        let text ← content.readText
        .ok (services.sha256 content, some backup, text)

/-- How the body of the loop over the files ends: with an exception, by returning
from the engine, or with the next file. -/
inductive FileOutcome
  | raised (error : String)
  | stopped (result : PatchApplyFileResult)
  | completed (result : PatchApplyFileResult)

/-- The body of the loop over the files. -/
def applyFile (faults : FileFaults) (file : AffectedFile) (st : ApplyState) :
    FileOutcome × ApplyState :=
  match readTarget services faults file.target (st.workspace file.target) with
  | .error error => (.raised error, st)
  | .ok (originalHash, backup, content) =>
    let backupId := backup.map fun _ => st.backups.length
    let st := { st with backups := st.backups ++ backup.toList }
    match applyHunks services content (plan.hunksOf file) [] with
    | (.error failed, hunkResults) =>
      (.stopped ⟨file.rel, .failed, false, backupId, originalHash, originalHash, hunkResults, [],
        [failed.reason]⟩, st)
    | (.ok updated, hunkResults) =>
      match atomicWrite services.platform faults.write file.target updated st.workspace with
      | (.error error, changes) =>
        (.raised error, { st with workspace := overlay st.workspace changes })
      | (.ok written, changes) =>
        let finalHash := services.sha256 written
        (.completed ⟨file.rel, .completed, finalHash ≠ originalHash, backupId, originalHash,
          finalHash, hunkResults, if backup.isSome then [] else ["created_new_file"], []⟩,
          { st with
            workspace := overlay st.workspace changes
            observedWrites := st.observedWrites ++ [file.target] })

/-- `PatchApplyEngine.apply`, from an index on. -/
def applyFiles (services : ApplyServices) (plan : PatchPlan) (faults : ℕ → FileFaults) :
    ℕ → List AffectedFile → List PatchApplyFileResult → ApplyState →
      Except String (List PatchApplyFileResult) × ApplyState
  | _, [], results, st => (.ok results, st)
  | index, file :: files, results, st =>
    match applyFile services plan (faults index) file st with
    | (.raised error, st) => (.error error, st)
    | (.stopped result, st) => (.ok (results ++ [result]), st)
    | (.completed result, st) =>
      applyFiles services plan faults (index + 1) files (results ++ [result]) st

structure PostApplyValidation where
  /-- Whether the files are as they should be. -/
  passed : Bool
  finalHashes : List (String × String)
  checkedFiles : List String
  unexpectedWrites : List String
  tempFilesRemaining : List String
  warnings : List String
  blockingReasons : List String

/-- `PostApplyValidator._target_path`. -/
def PatchPlan.targetPath (rel : String) : Option String :=
  (plan.affectedFiles.find? fun file => file.relativePath = some rel || file.path = rel).map
    (·.target)

def forwardSlashes (path : String) : List Char :=
  path.toList.map fun c => if c = '\\' then '/' else c

/-- `PostApplyValidator._is_create_file_result`. -/
def PatchPlan.isCreateFileResult (result : PatchApplyFileResult) : Bool :=
  let normalized := forwardSlashes result.filePath
  let affected := plan.affectedFiles.find? fun file => forwardSlashes file.rel = normalized
  let hunks := plan.hunks.filter fun hunk => forwardSlashes hunk.filePath = normalized
  !(affected.any fun file => file.originalHash.getD "" ≠ "") && !hunks.isEmpty &&
    hunks.all (fun hunk => hunk.original = []) && result.warnings.contains "created_new_file"

/-- What the validation has found so far. -/
structure ValidationState where
  blocking : List String
  finalHashes : List (String × String)
  contents : List (String × Text)

def validateFile (st : ApplyState) (v : ValidationState) (result : PatchApplyFileResult) :
    Except String ValidationState :=
  match (plan.targetPath result.filePath).bind st.workspace with
  | none => .ok { v with
      blocking := v.blocking ++ ["target_missing_after_apply:" ++ result.filePath] }
  | some content =>
    let finalHash := services.sha256 content
    let mismatch :=
      if result.finalHash ≠ "" ∧ finalHash ≠ result.finalHash then
        ["final_hash_mismatch:" ++ result.filePath] else []
    let backup :=
      match result.backupId with
      | some id =>
        if (st.backups[id]?).isNone then ["backup_missing_or_invalid:" ++ result.filePath] else []
      | none =>
        if plan.isCreateFileResult result then [] else ["backup_missing:" ++ result.filePath]
    match content.readText with
    | .error error => .error error
    | .ok text =>
      let hunks :=
        if result.hunkResults.all (·.applied) then [] else ["hunk_not_applied:" ++ result.filePath]
      .ok
        { blocking := v.blocking ++ mismatch ++ backup ++ hunks
          finalHashes := v.finalHashes ++ [(result.filePath, finalHash)]
          contents := v.contents ++ [(result.filePath, text)] }

/-- `PostApplyValidator.validate`. -/
def validate (fault : Option String) (plan : PatchPlan) (results : List PatchApplyFileResult)
    (st : ApplyState) :
    Except String PostApplyValidation := do
  if let some error := fault then throw error
  let v ← results.foldlM (validateFile services plan st) ⟨[], [], []⟩
  let expected := plan.affectedFiles.map (·.target)
  let unexpected := (st.observedWrites.filter fun path => !expected.contains path).eraseDups
  let temps := (st.observedWrites.filter fun path => path.endsWith ".aipinho_patch_tmp").eraseDups
  let (valid, warnings) := services.syntaxCheck v.contents
  let blocking := v.blocking ++ unexpected ++ temps.map ("temp_leftover:" ++ ·) ++
    if valid then [] else ["static_syntax_validation_failed"]
  return {
    passed := blocking.isEmpty && results.all (·.status = .completed)
    finalHashes := v.finalHashes
    checkedFiles := v.finalHashes.map Prod.fst
    unexpectedWrites := unexpected
    tempFilesRemaining := temps
    warnings := warnings
    blockingReasons := blocking.eraseDups }

def restoreBackup (fault : Option RestoreFault) (backup : Option PatchApplyBackup) (id : ℕ)
    (workspace : Workspace) : Except String String × List Change :=
  match backup, fault with
  | none, _ => (.error (toString id), [])
  | some _, some .missing => (.error (toString id), [])
  | some backup, some .unreadable => (.error backup.filePath, [])
  | some backup, some (.write fault) =>
    match atomicWrite services.platform (some fault) backup.filePath backup.content workspace with
    | (.ok _, changes) => (.ok backup.filePath, changes)
    | (.error _, changes) => (.error backup.filePath, changes)
  | some backup, none =>
    match atomicWrite services.platform none backup.filePath backup.content workspace with
    | (.ok _, changes) => (.ok backup.filePath, changes)
    | (.error _, changes) => (.error backup.filePath, changes)

structure RollbackResult where
  restoredFiles : List String
  failedFiles : List String

def restoreBackups (services : ApplyServices) (faults : ℕ → Option RestoreFault)
    (backups : List PatchApplyBackup) :
    List ℕ → RollbackResult → Workspace → RollbackResult × Workspace
  | [], rollback, workspace => (rollback, workspace)
  | id :: ids, rollback, workspace =>
    match restoreBackup services (faults id) backups[id]? id workspace with
    | (.ok path, changes) =>
      restoreBackups services faults backups ids
        { rollback with restoredFiles := rollback.restoredFiles ++ [path] }
        (overlay workspace changes)
    | (.error failed, changes) =>
      restoreBackups services faults backups ids
        { rollback with failedFiles := rollback.failedFiles ++ [failed] }
        (overlay workspace changes)

/-- The status of an apply run when it is executed. -/
inductive ApplyRunStatus
  | readyToExecute
  | running
  | completed
  | blocked
  | cancelled
  | rolledBack
  | rollbackFailed
  deriving DecidableEq

def ApplyRunStatus.text : ApplyRunStatus → String
  | .readyToExecute => "ready_to_execute"
  | .running => "running"
  | .completed => "completed"
  | .blocked => "blocked"
  | .cancelled => "cancelled"
  | .rolledBack => "rolled_back"
  | .rollbackFailed => "rollback_failed"

/-- The status of a result. -/
inductive ApplyStatus
  | completed
  | blocked
  | failedWithRollback
  | rollbackFailed
  deriving DecidableEq

structure PatchApplyResult where
  status : ApplyStatus
  safeToReportSuccess : Bool
  files : List PatchApplyFileResult
  validation : Option PostApplyValidation
  rollback : Option RollbackResult
  /-- Why the run was blocked or failed. -/
  blockedReasons : List String

def failedResult (files : List PatchApplyFileResult) (validation : Option PostApplyValidation)
    (reasons : List String) : PatchApplyResult :=
  ⟨.failedWithRollback, false, files, validation, none, reasons⟩

end AIpinho.Patching
