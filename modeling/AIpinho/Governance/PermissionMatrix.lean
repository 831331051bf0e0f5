import AIpinho.Mission.Contract
import Mathlib.Data.List.MinMax
import Mathlib.Data.Prod.Lex

/-!
# The permission matrix of workspaces

The role of a workspace says for each permission whether it is allowed, asked for or denied; a
local resource of a mission also declares permissions. The name of an operation is translated
into a permission, or else is a script execution.
-/

namespace AIpinho.Governance

open AIpinho.Mission (MissionResourceScope)

inductive PermissionValue
  | allowed | ask | denied
  deriving DecidableEq

/-- The status of a decision. -/
inductive PermissionStatus
  | allowed | approvalRequired | denied
  deriving DecidableEq

def allPermissions : List String :=
  ["read_file", "list_files", "create_directory", "create_file", "modify_file", "apply_patch",
    "artifact_create", "copy_from", "copy_to", "move_from", "move_to", "delete_file",
    "shell_readonly", "shell_build", "shell_test", "script_execution", "network_download",
    "git_commit", "git_push"]

def actionPermissionAliases : List (String × String) :=
  [("read_workspace", "read_file"), ("read_file", "read_file"), ("read_files", "read_file"),
    ("inspect_files", "read_file"), ("analyze", "read_file"), ("list_files", "list_files"),
    ("search_files", "list_files"), ("create_directory", "create_directory"),
    ("mkdir", "create_directory"), ("filesystem_create_directory", "create_directory"),
    ("create_file", "create_file"), ("write_file", "create_file"),
    ("write_files", "modify_file"), ("modify_file", "modify_file"),
    ("modify_files", "modify_file"), ("apply_patch", "apply_patch"),
    ("patch_apply", "apply_patch"), ("artifact_create", "artifact_create"),
    ("artifact_generate", "artifact_create"), ("copy_from", "copy_from"),
    ("copy_to", "copy_to"), ("move_from", "move_from"), ("move_to", "move_to"),
    ("delete_file", "delete_file"), ("delete_files", "delete_file"),
    ("run_shell_readonly", "shell_readonly"), ("shell_readonly", "shell_readonly"),
    ("run_shell_build", "shell_build"), ("shell_build", "shell_build"),
    ("build", "shell_build"), ("run_build", "shell_build"), ("run_shell_test", "shell_test"),
    ("run_tests", "shell_test"), ("test", "shell_test"), ("tests", "shell_test"),
    ("shell_test", "shell_test"), ("script_execution", "script_execution"),
    ("run_command", "script_execution"), ("shell", "script_execution"),
    ("network_download", "network_download"), ("web_request", "network_download"),
    ("git_commit", "git_commit"), ("git_push", "git_push")]

def permissionForAction (action : String) : String :=
  if allPermissions.contains action then action
  else (actionPermissionAliases.lookup action).getD "script_execution"

def roleValue (listed : List (String × PermissionValue)) (other : PermissionValue)
    (permission : String) : PermissionValue :=
  (listed.lookup permission).getD other

def roleDefaults : List (String × (String → PermissionValue)) :=
  let readable := [("read_file", .allowed), ("list_files", .allowed), ("copy_from", .allowed)]
  let mutable := roleValue (readable ++ [("git_push", .denied)]) .ask
  [("source_readonly", roleValue
      (readable ++ [("artifact_create", .ask), ("shell_readonly", .ask)]) .denied),
    ("target_mutable", mutable),
    ("external_inbox", roleValue (readable ++ [("artifact_create", .ask)]) .denied),
    ("artifact_output", roleValue
      [("read_file", .allowed), ("list_files", .allowed), ("create_file", .ask),
        ("modify_file", .ask), ("artifact_create", .ask), ("copy_to", .ask)] .denied),
    ("system_mutable", mutable),
    ("protected", roleValue
      [("read_file", .ask), ("list_files", .ask), ("copy_from", .ask),
        ("artifact_create", .ask), ("shell_readonly", .ask)] .denied),
    ("temp_staging", mutable),
    ("forbidden", fun _ => .denied)]

/-- A workspace of the registry. -/
structure RegistryWorkspace where
  workspaceId : String
  rootPath : String
  role : String
  enabled : Bool
  /-- What it says of permissions in place of its role. -/
  permissions : List (String × PermissionValue)

/-- `WorkspacePermissionDecision`, without its trace. -/
structure PermissionDecision where
  status : PermissionStatus
  reasonCode : String
  permission : String
  permissionValue : PermissionValue
  workspaceId : Option String
  workspaceRole : Option String
  deriving DecidableEq

/-- `WorkspacePermissionMatrixService`: its registry and what it asks of paths. -/
structure PermissionMatrix where
  workspaces : List RegistryWorkspace
  /-- What the registry says of roles in place of the defaults. -/
  roleOverrides : List (String × List (String × PermissionValue))
  /-- `_is_under`, of a path and a root. -/
  isUnder : String → String → Bool
  /-- The length of what `_normalize` gives. -/
  normalLength : String → ℕ

namespace PermissionMatrix

variable (matrix : PermissionMatrix)

/-- `role_defaults().get(role, ROLE_DEFAULTS["forbidden"]).get(permission, "denied")`. -/
def roleDefault (role permission : String) : PermissionValue :=
  match roleDefaults.lookup role with
  | none => .denied
  | some defaults =>
    (((matrix.roleOverrides.lookup role).getD []).lookup permission).getD (defaults permission)

def permissionValue (entry : RegistryWorkspace) (permission : String) : PermissionValue :=
  (entry.permissions.lookup permission).getD (matrix.roleDefault entry.role permission)

def restrictiveness (role : String) : ℕ :=
  ([("forbidden", 70), ("protected", 60), ("source_readonly", 50), ("external_inbox", 45),
    ("target_mutable", 40), ("artifact_output", 35), ("temp_staging", 30),
    ("system_mutable", 20)].lookup role).getD 70

/-- `_select_workspace`: the longest root around a path, the most restrictive of several. -/
def selectWorkspace (path : String) : Option RegistryWorkspace :=
  (matrix.workspaces.filter fun entry =>
    entry.rootPath ≠ "" && matrix.isUnder path entry.rootPath).argmax fun entry =>
      toLex (matrix.normalLength entry.rootPath, restrictiveness entry.role)

def statusOf : PermissionValue → PermissionStatus
  | .allowed => .allowed
  | .ask => .approvalRequired
  | .denied => .denied

def reasonOf : PermissionValue → String
  | .allowed => "permission_allowed"
  | .ask => "permission_requires_approval"
  | .denied => "permission_denied"

/-- `decide`. -/
def decideAt (path : Option String) (action : String) : PermissionDecision :=
  let permission := permissionForAction action
  match (path.filter (· ≠ "")).bind matrix.selectWorkspace with
  | none => ⟨.denied, "workspace_not_registered", permission, .denied, none, none⟩
  | some entry =>
    if !entry.enabled then
      ⟨.denied, "workspace_disabled", permission, .denied, some entry.workspaceId,
        some entry.role⟩
    else
      let value := matrix.permissionValue entry permission
      ⟨statusOf value, reasonOf value, permission, value, some entry.workspaceId,
        some entry.role⟩

def scopeForPath (resources : List MissionResourceScope) (path : String) :
    Option MissionResourceScope :=
  (resources.filter fun resource =>
    (resource.resourceType = .localWorkspace || resource.resourceType = .missionStaging) &&
      (resource.locator.filter (· ≠ "")).any (matrix.isUnder path)).argmax fun resource =>
        matrix.normalLength (resource.locator.getD "")

def mostRestrictive : PermissionValue → PermissionValue → PermissionValue
  | .denied, _ => .denied
  | .ask, .denied => .denied
  | .ask, _ => .ask
  | .allowed, value => value

/-- The roles in which a resource of a mission changes nothing. -/
def closedRoles : List String := ["forbidden", "protected", "source_readonly", "external_inbox"]

def missionRole (scope : MissionResourceScope) : String :=
  let role := (scope.role.filter (· ≠ "")).getD "source_readonly"
  if (roleDefaults.lookup role).isSome then role else "source_readonly"

def missionValue (scope : MissionResourceScope) (selected : Option RegistryWorkspace)
    (base : PermissionDecision) (permission : String) : PermissionValue :=
  let value := matrix.roleDefault (missionRole scope) permission
  if selected.isSome then mostRestrictive base.permissionValue value else value

def decideWithResources (path : Option String) (action : String)
    (resources : List MissionResourceScope) : PermissionDecision :=
  let permission := permissionForAction action
  let base := matrix.decideAt path permission
  match path.filter (· ≠ "") with
  | none => base
  | some text =>
    match matrix.scopeForPath resources text with
    | none => base
    | some scope =>
      let selected := matrix.selectWorkspace text
      if selected.any (fun entry => closedRoles.contains entry.role) ||
          (selected.isSome && base.status = .denied) then base
      else
        let role := (scope.role.filter (· ≠ "")).getD "source_readonly"
        if !scope.permissions.contains permission then
          ⟨.denied, "permission_not_declared_by_mission_resource", permission, .denied,
            some scope.resourceId, some role⟩
        else
          let value := matrix.missionValue scope selected base permission
          ⟨statusOf value, reasonOf value ++ "_by_mission_resource", permission, value,
            some scope.resourceId, some role⟩

end PermissionMatrix

theorem permissionForAction_idem (action : String) :
    permissionForAction (permissionForAction action) = permissionForAction action := by
  by_cases h : allPermissions.contains action = true
  · have hsame : permissionForAction action = action := if_pos h
    rw [hsame, hsame]
  · have halias : permissionForAction action =
        (actionPermissionAliases.lookup action).getD "script_execution" := if_neg h
    refine if_pos ?_
    rw [halias]
    -- every alias stands for a permission
    have hall : ∀ entry ∈ actionPermissionAliases, allPermissions.contains entry.2 = true := by
      decide
    cases hlookup : actionPermissionAliases.lookup action with
    | none => decide
    | some permission =>
      obtain ⟨before, after, hentries, _⟩ := List.lookup_eq_some_iff.mp hlookup
      exact hall (action, permission) (by rw [hentries]; simp)

theorem PermissionMatrix.decideWithResources_permission (matrix : PermissionMatrix)
    (path : Option String) (action : String) (resources : List MissionResourceScope) :
    (matrix.decideWithResources path action resources).permission = permissionForAction action := by
  have hbase : (matrix.decideAt path (permissionForAction action)).permission =
      permissionForAction action := by
    unfold PermissionMatrix.decideAt
    rw [permissionForAction_idem]
    split
    · rfl
    · simp only
      split <;> rfl
  unfold PermissionMatrix.decideWithResources
  simp only
  split
  · exact hbase
  · split
    · exact hbase
    · split
      · exact hbase
      · split <;> rfl

end AIpinho.Governance
