import AIpinho.Events.Redaction
import AIpinho.Lib.FileTree

/-!
# Sandbox workspaces and tasks

A workspace has a root below `projects`, named after the workspace, and a task has a root of its
own below `tasks`; the operations are to stay in these roots. The paths are those of a POSIX
system without links.
-/

namespace AIpinho.Sandbox

open Lib
open Events (word wordFolded)
open AIpinho.Runtime (isSpace foldCase)

/-- `SandboxWorkspaceRole`. -/
inductive WorkspaceRole
  | mutable | readonly | artifact | tmp | imported
  deriving DecidableEq

/-- `SandboxTaskStatus`. -/
inductive TaskStatus
  | created | running | completed | cancelled | blocked | failed
  deriving DecidableEq

/-- `SandboxWorkspace`, as far as it is read. -/
structure SandboxWorkspace where
  name : String
  displayName : String
  role : WorkspaceRole
  rootPath : FilePath

/-- `SandboxTask`, as far as it is read. -/
structure SandboxTask where
  workspaceId : String
  title : String
  taskRoot : Option FilePath
  status : TaskStatus := .created
  createdFiles : List String := []
  modifiedFiles : List String := []
  deletedFiles : List String := []
  shellCommandIds : List String := []
  artifactIds : List String := []
  validationIds : List String := []
  completedAt : Option String := none
  evidenceRefs : List String := []

abbrev Bytes := List UInt8

/-- The system and what the services use of the standard library. -/
structure SandboxEnv where
  /-- `sandbox_root`. -/
  root : FilePath
  limit : ℕ
  /-- The `enabled` of the policy. -/
  enabled : Bool := true
  /-- `str.isalnum` of a character. -/
  isAlnum : Char → Bool
  /-- `str.casefold`. -/
  casefold : String → String
  encode : String → Bytes
  sha256 : Bytes → String

variable (env : SandboxEnv)

/-- The files, the workspaces and the tasks. -/
structure SandboxState where
  files : FileTree Bytes
  workspaces : String → Option SandboxWorkspace
  tasks : String → Option SandboxTask

def SandboxEnv.directory (name : String) : FilePath := name :: env.root

/-- The names of the directories that `ensure_sandbox_dirs` makes. -/
def sandboxDirNames : List String :=
  ["default", "tasks", "projects", "artifacts", "tmp", "trash", "reports", "logs"]

/-- The directories that `ensure_sandbox_dirs` makes. The one of the records is left out. -/
def sandboxDirs : List FilePath := env.root :: sandboxDirNames.map env.directory

def ensureSandboxDirs (files : FileTree Bytes) : Option (FileTree Bytes) :=
  (sandboxDirs env).foldlM (FileTree.makeDirs env.limit) files

/-- `PurePosixPath(text).parts` of a relative path. -/
def pathParts (text : String) : List String :=
  ((text.toList.splitOn '/').filter fun part => part ≠ [] && part ≠ ['.']).map String.ofList

/-- `PurePosixPath(text).is_absolute()`. -/
def isAbsolute (text : String) : Bool := text.toList.head? = some '/'

def isRelativePathSafe (text : String) : Bool := !isAbsolute text && !(pathParts text).contains ".."

/-- `(root / text).resolve()`, for a path without `..`. -/
def joinPath (root : FilePath) (text : String) : FilePath :=
  if isAbsolute text then (pathParts text).reverse else (pathParts text).reverse ++ root

/-- `is_within`, for paths that are resolved. -/
def isWithin (child parent : FilePath) : Bool := parent.isSuffixOf child

/-- `allow_path`: the reason not to allow a path, if there is one. -/
def allowPath (workspaceRoot : FilePath) (relativePath operation : String) : Option String :=
  if !env.enabled then some "sandbox_disabled"
  else if !isRelativePathSafe relativePath then some "sandbox_path_traversal_blocked"
  else
    let candidate := joinPath workspaceRoot relativePath
    if !isWithin candidate env.root then
      some (if "read".toList.isPrefixOf operation.toList then "sandbox_escape_blocked"
        else "sandbox_outside_write_blocked")
    else if !isWithin candidate workspaceRoot then some "sandbox_escape_blocked"
    else if operation = "delete-safe" ∧ strip isSpace relativePath ∈ ["", "."] then
      some "sandbox_destructive_command_blocked"
    else none

def safeName (name : String) : String :=
  let safe := String.ofList (trim (· == '_') (name.toList.map fun ch =>
    if env.isAlnum ch || ch == '-' || ch == '_' then ch else '_'))
  if safe = "" then "workspace" else safe

def newWorkspace (name : String) (role : WorkspaceRole) : SandboxWorkspace :=
  let shown := strip isSpace name
  { name := safeName env name
    displayName := if shown = "" then safeName env name else shown
    role := role
    rootPath := safeName env name :: env.directory "projects" }

/-- `create_workspace`, for the identifier that is drawn. -/
def createWorkspace (s : SandboxState) (name : String) (role : WorkspaceRole) (id : String) :
    Except String SandboxWorkspace × SandboxState :=
  let workspace := newWorkspace env name role
  match s.files.makeDirs env.limit workspace.rootPath with
  | none => (.error "OSError", s)
  | some files =>
    let workspaces := Function.update s.workspaces id (some workspace)
    (.ok workspace, { s with files := files, workspaces := workspaces })

variable (s : SandboxState)

def getWorkspace (workspaceId : String) : Except String SandboxWorkspace :=
  (s.workspaces workspaceId).elim (.error "FileNotFoundError") .ok

def getTask (taskId : String) : Except String SandboxTask :=
  (s.tasks taskId).elim (.error "FileNotFoundError") .ok

/-- The slug of a title: `re.sub(r"[^a-z0-9]+", "_", title.casefold()).strip("_")[:60]`. -/
def taskSlug (title : String) : String :=
  let folded := (env.casefold title).toList
  let slug := String.ofList
    ((trim (· == '_') (sub [.run (fun c => !(c.isLower || c.isDigit)) 1] ['_'] folded)).take 60)
  if slug = "" then "sandbox_task" else slug

def taskRootName (title stamp : String) : String :=
  taskSlug env title ++ "_" ++ stamp

def newTask (workspaceId title stamp : String) : SandboxTask :=
  { workspaceId := workspaceId
    title := title
    taskRoot := some (taskRootName env title stamp :: env.directory "tasks")
    evidenceRefs := ["sandbox_task_created",
      "sandbox_task_root:" ++ taskRootName env title stamp] }

/-- `create_task`, for the identifier that is drawn. The root is not to be there before. -/
def createTask (workspaceId title stamp id : String) : Except String SandboxTask × SandboxState :=
  match getWorkspace s workspaceId with
  | .error e => (.error e, s)
  | .ok _ =>
    let root := taskRootName env title stamp :: env.directory "tasks"
    if s.files.isThere root then (.error "OSError", s)
    else
      match s.files.makeDirs env.limit root with
      | none => (.error "OSError", s)
      | some files =>
        let task := newTask env workspaceId title stamp
        (.ok task, { s with files := files, tasks := Function.update s.tasks id (some task) })

def operationRoot (workspaceId : String) (taskId : Option String) : Except String FilePath := do
  let workspace ← getWorkspace s workspaceId
  match taskId.filter (· ≠ "") with
  | none => pure workspace.rootPath
  | some taskId =>
    let task ← getTask s taskId
    if task.workspaceId ≠ workspaceId then .error "PermissionError: sandbox_task_workspace_mismatch"
    else task.taskRoot.elim (.error "PermissionError: sandbox_task_root_missing") .ok

def cancelTask (taskId : String) : Except String SandboxTask × SandboxState :=
  match getTask s taskId with
  | .error e => (.error e, s)
  | .ok task =>
    let updated := { task with status := .cancelled }
    (.ok updated, { s with tasks := Function.update s.tasks taskId (some updated) })

def addMissing (values : List String) (value : String) : List String :=
  if value ∈ values then values else values ++ [value]

def updateTaskStatus (taskId : String) (status : TaskStatus) (evidenceRefs : List String)
    (completed : Bool) (now : String) : Except String SandboxTask × SandboxState :=
  match getTask s taskId with
  | .error e => (.error e, s)
  | .ok task =>
    let updated := { task with
      status := status
      completedAt := if completed then some now else task.completedAt
      evidenceRefs := evidenceRefs.foldl addMissing task.evidenceRefs }
    (.ok updated, { s with tasks := Function.update s.tasks taskId (some updated) })

end AIpinho.Sandbox
