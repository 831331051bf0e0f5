import AIpinho.Sandbox.Workspaces

/-!
# File operations of a sandbox

Each operation resolves its paths, looks at what is there and then calls the system. One that
raises may have made directories or parts of a copy. What is deleted is moved to the trash of
its workspace.
-/

namespace AIpinho.Sandbox

open Lib
open Events (word wordFolded)
open AIpinho.Runtime (foldCase)

/-- `SandboxFileRequest`. -/
structure FileRequest where
  workspaceId : String
  taskId : Option String := none
  relativePath : String
  content : Option String := none
  expectedHash : Option String := none
  destination : Option String := none
  overwrite : Bool := false
  maxBytes : ℕ := 1000000

/-- The outcomes of an operation that does not raise. -/
inductive OperationStatus
  | succeeded | blocked
  deriving DecidableEq

/-- `SandboxFileOperation`. -/
structure FileOperation where
  operationId : String
  operationType : String
  relativePath : String
  status : OperationStatus
  reasonCode : String
  bytesWritten : ℕ := 0
  bytesRead : ℕ := 0
  digest : Option String := none
  movedToTrash : Option FilePath := none

abbrev Outcome := Except String FileOperation × SandboxState

def isSecretChar (marks : List Char) (c : Char) : Bool :=
  (foldCase c).isAlphanum || marks.contains c

/-- `SECRET_PATTERN`. -/
def sandboxSecretPatterns : List (List (Step Char)) :=
  [wordFolded "bearer" ++ [.run AIpinho.Runtime.isSpace 1,
      .run (isSecretChar ['.', '_', '~', '+', '/', '-']) 12],
    wordFolded "sk-" ++ [.run (isSecretChar ['_', '-']) 12],
    wordFolded "aiza" ++ [.run (isSecretChar ['_', '-']) 20]]

/-- Whether `allow_content` finds a secret. -/
def contentHasSecret (content : String) : Bool :=
  sandboxSecretPatterns.any fun pattern => hasMatch pattern content.toList

variable (env : SandboxEnv)

variable (s : SandboxState)

/-- `resolve`. -/
def resolvePath (workspaceId relativePath operation : String) (taskId : Option String) :
    Except String FilePath := do
  let workspace ← getWorkspace s workspaceId
  if workspace.role = .readonly ∧
      operation ∉ ["read", "list", "validation", "artifact_export"] then
    .error "PermissionError: source_readonly_write_denied"
  else
    let root ← operationRoot s workspaceId taskId
    match allowPath env root relativePath operation with
    | some reason => .error ("PermissionError: " ++ reason)
    | none => pure (joinPath root relativePath)

variable (request : FileRequest)

def FileRequest.text : String := request.content.getD ""

def SandboxTask.afterOperation (task : SandboxTask)
    (operationType relativePath operationId : String) : SandboxTask :=
  let evidenceRefs := addMissing task.evidenceRefs ("sandbox_file_operation:" ++ operationId)
  if operationType = "delete-safe" then
    { task with
      deletedFiles := addMissing task.deletedFiles relativePath
      status := .running
      evidenceRefs := evidenceRefs }
  else if operationType ∈ ["write", "mkdir", "copy"] then
    { task with
      createdFiles := addMissing task.createdFiles relativePath
      status := .running
      evidenceRefs := evidenceRefs }
  else
    { task with
      modifiedFiles := addMissing task.modifiedFiles relativePath
      status := .running
      evidenceRefs := evidenceRefs }

/-- `_op`: record an operation, and that its task is running if it succeeded. The path of the
record is below the root of the operation, which is looked up once more. -/
def recordOperation (operation : FileOperation) : Outcome :=
  match operationRoot s request.workspaceId request.taskId with
  | .error e => (.error e, s)
  | .ok _ =>
    match request.taskId.filter (· ≠ "") with
    | none => (.ok operation, s)
    | some taskId =>
      match operation.status, s.tasks taskId with
      | .succeeded, some task =>
        let updated := task.afterOperation operation.operationType operation.relativePath
          operation.operationId
        (.ok operation, { s with tasks := Function.update s.tasks taskId (some updated) })
      | _, _ => (.ok operation, s)

def blockedOperation (operationId type reason : String) : Outcome :=
  recordOperation s request ⟨operationId, type, request.relativePath, .blocked, reason, 0, 0, none,
    none⟩

def doneOperation (operationId type : String) (written read : ℕ) (digest : Option String)
    (movedToTrash : Option FilePath) : Outcome :=
  recordOperation s request ⟨operationId, type, request.relativePath, .succeeded,
    "sandbox_allowed_low_risk", written, read, digest, movedToTrash⟩

def readFile (operationId : String) : Outcome :=
  match resolvePath env s request.workspaceId request.relativePath "read" request.taskId with
  | .error e => (.error e, s)
  | .ok path =>
    match s.files.content? path with
    | none => (.error "OSError", s)
    | some content =>
      let data := content.take request.maxBytes
      doneOperation s request operationId "read" 0 data.length (some (env.sha256 data)) none

def writeContent (operationId type : String) (path : FilePath) (append : Bool) : Outcome :=
  match s.files.makeDirs env.limit path.tail with
  | none => (.error "OSError", s)
  | some made =>
    let before := if append then (made.content? path).getD [] else []
    let data := before ++ env.encode request.text
    match made.writeFile env.limit path data with
    | none => (.error "OSError", { s with files := made })
    | some files =>
      doneOperation { s with files := files } request operationId type
        (env.encode request.text).length 0 (some (env.sha256 data)) none

def writeFile (append : Bool) (operationId : String) : Outcome :=
  match resolvePath env s request.workspaceId request.relativePath "write" request.taskId with
  | .error e => (.error e, s)
  | .ok path =>
    let type := if append then "append" else "write"
    if contentHasSecret request.text then
      blockedOperation s request operationId type "sandbox_secret_access_blocked"
    else if s.files.isThere path && !(request.overwrite || append) then
      blockedOperation s request operationId "write" "sandbox_file_exists"
    else writeContent env s request operationId type path append

def modifyFile (operationId : String) : Outcome :=
  match resolvePath env s request.workspaceId request.relativePath "write" request.taskId with
  | .error e => (.error e, s)
  | .ok path =>
    if contentHasSecret request.text then
      blockedOperation s request operationId "modify" "sandbox_secret_access_blocked"
    else
      match request.expectedHash.filter fun hash => hash ≠ "" && s.files.isThere path with
      | none => writeContent env s request operationId "modify" path false
      | some hash =>
        match s.files.content? path with
        | none => (.error "OSError", s)
        | some content =>
          if env.sha256 content ≠ hash then
            blockedOperation s request operationId "modify" "sandbox_expected_hash_mismatch"
          else writeContent env s request operationId "modify" path false

def mkdir (env : SandboxEnv) (s : SandboxState) (request : FileRequest) (operationId : String) :
    Outcome :=
  match resolvePath env s request.workspaceId request.relativePath "write" request.taskId with
  | .error e => (.error e, s)
  | .ok path =>
    match s.files.makeDirs env.limit path with
    | none => (.error "OSError", s)
    | some files =>
      doneOperation { s with files := files } request operationId "mkdir" 0 0 none none

def resolveBoth (operation destination : String) : Except String (FilePath × FilePath) := do
  let src ← resolvePath env s request.workspaceId request.relativePath operation request.taskId
  let dst ← resolvePath env s request.workspaceId destination "write" request.taskId
  pure (src, dst)

def copy (env : SandboxEnv) (s : SandboxState) (request : FileRequest) (operationId : String) :
    Outcome :=
  match request.destination.filter (· ≠ "") with
  | none => blockedOperation s request operationId "copy" "sandbox_destination_required"
  | some destination =>
    match resolveBoth env s request "read" destination with
    | .error e => (.error e, s)
    | .ok (src, dst) =>
      match s.files.makeDirs env.limit dst.tail with
      | none => (.error "OSError", s)
      | some made =>
        if made.isDir src then
          let copied := made.copyTree env.limit (env.limit + 1) src dst request.overwrite
          let s := { s with files := copied.1 }
          if copied.2 then doneOperation s request operationId "copy" 0 0 none none
          else (.error "OSError", s)
        else if made.isThere dst && !request.overwrite then
          blockedOperation { s with files := made } request operationId "copy" "sandbox_file_exists"
        else
          match made.copyFile env.limit src dst with
          | none => (.error "OSError", { s with files := made })
          | some files =>
            doneOperation { s with files := files } request operationId "copy" 0 0 none none

def move (env : SandboxEnv) (s : SandboxState) (request : FileRequest) (operationId : String) :
    Outcome :=
  match request.destination.filter (· ≠ "") with
  | none => blockedOperation s request operationId "move" "sandbox_destination_required"
  | some destination =>
    match resolveBoth env s request "write" destination with
    | .error e => (.error e, s)
    | .ok (src, dst) =>
      match s.files.makeDirs env.limit dst.tail with
      | none => (.error "OSError", s)
      | some made =>
        match made.move env.limit src dst with
        | none => (.error "OSError", { s with files := made })
        | some files =>
          doneOperation { s with files := files } request operationId "move" 0 0 none none

def stemAndSuffix (name : String) : String × String :=
  let letters := name.toList
  let after := letters.reverse.takeWhile (· ≠ '.')
  let stem := letters.take (letters.length - after.length - 1)
  if after = [] ∨ stem = [] ∨ after.length = letters.length then (name, "")
  else (String.ofList stem, String.ofList ('.' :: after.reverse))

def trashName (name : String) : ℕ → String
  | 0 => name
  | counter => (stemAndSuffix name).1 ++ "_" ++ toString counter ++ (stemAndSuffix name).2

/-- The loop of `delete_safe` for a path that is not taken, for at most so many rounds. -/
def freeTarget (files : FileTree Bytes) (trash : FilePath) (name : String) : ℕ → ℕ → FilePath
  | 0, counter => trashName name counter :: trash
  | rounds + 1, counter =>
    if files.isThere (trashName name counter :: trash) then
      freeTarget files trash name rounds (counter + 1)
    else trashName name counter :: trash

def deleteSafe (operationId : String) : Outcome :=
  match resolvePath env s request.workspaceId request.relativePath "delete-safe"
      request.taskId with
  | .error e => (.error e, s)
  | .ok path =>
    let trash := request.workspaceId :: env.directory "trash"
    match (ensureSandboxDirs env s.files).bind (FileTree.makeDirs env.limit · trash) with
    | none => (.error "OSError", s)
    | some made =>
      let target := freeTarget made trash (path.head?.getD "") (made.length + 1) 0
      match made.move env.limit path target with
      | none => (.error "OSError", { s with files := made })
      | some files =>
        doneOperation { s with files := files } request operationId "delete-safe" 0 0 none
          (some target)

example : (stemAndSuffix "a.tar.gz", stemAndSuffix ".bashrc", stemAndSuffix "a.") =
    (("a.tar", ".gz"), (".bashrc", ""), ("a.", "")) := by decide

end AIpinho.Sandbox
