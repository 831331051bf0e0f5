import AIpinho.Governance.Facets
import AIpinho.Governance.PermissionMatrix
import AIpinho.Tools.GitCommands

/-!
# Envelopes for writes

An operation of a shell in a workspace gets an envelope: facets for the role of the
workspace, the target, the matrix, the preview and the human, and the decision over them.
-/

namespace AIpinho.Tools

open AIpinho.Governance (CanonicalPermission PermissionDecision PermissionMatrix PolicyFacet)
open AIpinho.Mission (MissionResourceScope)

/-- `WorkspaceRoleContract`, as far as it is read. -/
structure RoleContract where
  workspaceId : String
  rootPath : String
  readAllowed : Bool
  writeAllowed : Bool
  shellAllowed : Bool
  patchAllowed : Bool
  approvalRequired : Bool
  allowedOperations : List String
  forbiddenOperations : List String

/-- `WorkspaceRoleDecision`. -/
structure RoleDecision where
  allowed : Bool
  reason : String
  contract : Option RoleContract

def readOnlyOperations : List String :=
  ["read_workspace", "inspect_files", "analyze", "list_files", "search_files"]

def writeOperations : List String :=
  ["create_directory", "create_file", "modify_file", "delete_file", "move_file", "apply_patch",
    "run_shell_write"]

def operationAllowed (contract : RoleContract) (operation : String) : Bool × String :=
  if contract.forbiddenOperations.contains operation then
    (false, "operation_forbidden_by_workspace_role")
  else if readOnlyOperations.contains operation then
    if contract.readAllowed then (true, "workspace_role_allows_read_operation")
    else (false, "workspace_role_denies_read")
  else if contract.allowedOperations ≠ [] ∧ operation ∉ contract.allowedOperations then
    (false, "operation_not_allowed_by_workspace_role")
  else if writeOperations.contains operation ∧ contract.writeAllowed = false then
    (false, "workspace_role_denies_write")
  else if operation = "apply_patch" ∧ contract.patchAllowed = false then
    (false, "workspace_role_denies_patch")
  else if operation = "run_shell_readonly" ∧ contract.readAllowed = false then
    (false, "workspace_role_denies_readonly_shell")
  else if startsWith operation "run_shell" ∧ operation ≠ "run_shell_readonly" ∧
      contract.shellAllowed = false then
    (false, "workspace_role_denies_shell")
  else (true, "workspace_role_allows_operation")

/-- `WriteCapabilityEnvelopeService`. -/
structure EnvelopeServices where
  /-- `WorkspaceRoleContractService.resolve_with_resources`. -/
  roles : String → List MissionResourceScope → RoleDecision
  matrix : PermissionMatrix
  /-- `_target_path_reason`, of a path and the root of a workspace. -/
  targetPathReason : String → String → Option String

/-- The arguments of `create` that decide. -/
structure EnvelopeQuery where
  workspacePath : String
  operationType : String
  targetPath : String
  previewId : Option String
  approvalId : Option String
  localResources : List MissionResourceScope
  humanAuthorityEffective : Bool

def capabilityByOperation : List (String × String) :=
  [("create_file", "create_file"), ("modify_file", "modify_file"), ("delete_file", "delete_file"),
    ("create_directory", "create_directory"), ("move_file", "move_file"),
    ("apply_patch", "apply_patch"), ("run_shell_write", "script_execution"),
    ("run_shell_test", "shell_test"), ("run_shell_build", "shell_build"),
    ("run_shell_readonly", "shell_readonly")]

def previewRequired : List String :=
  ["create_file", "modify_file", "delete_file", "create_directory", "move_file", "apply_patch",
    "run_shell_write"]

def approvalStrongRequired : List String := ["delete_file", "move_file", "run_shell_write"]

def permissionOfStatus : Governance.PermissionStatus → CanonicalPermission
  | .denied => .denied
  | .approvalRequired => .ask
  | .allowed => .allowed

def allowedIf (allowed : Bool) : CanonicalPermission := if allowed then .allowed else .denied

namespace EnvelopeServices

variable (services : EnvelopeServices) (query : EnvelopeQuery)

def resourceDecision : Option PermissionDecision :=
  match query.localResources, capabilityByOperation.lookup query.operationType with
  | _ :: _, some capability =>
    some (services.matrix.decideWithResources
      (some (if query.targetPath ≠ "" then query.targetPath else query.workspacePath)) capability
      query.localResources)
  | _, _ => none

def roleFacets (role : RoleDecision) (capability resourceId : Option String) : List PolicyFacet :=
  match role.allowed, role.contract with
  | true, some contract =>
    let (allowed, reason) := operationAllowed contract query.operationType
    ⟨"workspace_role", allowedIf allowed, "workspace_role_contract", reason, capability,
      resourceId, false⟩ ::
    (if query.targetPath = "" then []
    else
      match services.targetPathReason query.targetPath contract.rootPath with
      | some reason =>
        [⟨"target_path", .denied, "write_capability_envelope", reason, capability, resourceId,
          false⟩]
      | none =>
        [⟨"target_path", .allowed, "write_capability_envelope", "target_path_within_workspace",
          capability, resourceId, false⟩])
  | _, _ =>
    [⟨"workspace_resolution", .denied, "workspace_role_contract", role.reason, capability,
      resourceId, false⟩]

def humanFacets (contract : Option RoleContract) (resource : Option PermissionDecision)
    (capability resourceId : Option String) : List PolicyFacet :=
  if resource.any (·.status = .approvalRequired) ||
      (contract.any (·.approvalRequired) && previewRequired.contains query.operationType) ||
      approvalStrongRequired.contains query.operationType then
    ⟨"human_authority_requirement", .ask, "write_capability_envelope",
      "approval_required_for_side_effect", capability, resourceId, true⟩ ::
    (if query.humanAuthorityEffective then
      [⟨"human_authority", .allowed, "mission_authority_grant", "grant_effective", capability,
        resourceId, false⟩]
    else if (query.approvalId.filter (· ≠ "")).isSome then
      [⟨"human_authority", .allowed, "approval_binding", "approval_binding_present", capability,
        resourceId, false⟩]
    else [])
  else []

def facets : List PolicyFacet :=
  let role := services.roles query.workspacePath query.localResources
  let capability := capabilityByOperation.lookup query.operationType
  let roleId := role.contract.map (·.workspaceId)
  let resource := services.resourceDecision query
  let resourceId := ((resource.bind (·.workspaceId)).filter (· ≠ "")).or roleId
  [⟨"capability_demand", .allowed, "write_capability_envelope", "capability_requested",
    some (capability.getD "unknown"), roleId, false⟩] ++
  (if capability.isNone then
    [⟨"global_policy", .denied, "write_capability_envelope", "unknown_write_operation",
      some "unknown", roleId, false⟩]
  else []) ++
  services.roleFacets query role capability roleId ++
  (match resource with
    | none => []
    | some decision =>
      [⟨"resource_permission", permissionOfStatus decision.status, "workspace_permission_matrix",
        decision.reasonCode, capability, decision.workspaceId,
        decision.status = .approvalRequired⟩]) ++
  (if previewRequired.contains query.operationType then
    let bound := (query.previewId.filter (· ≠ "")).isSome
    [⟨"preview_evidence", allowedIf bound, "write_capability_envelope",
      if bound then "preview_bound" else "preview_required_for_side_effect", capability,
      resourceId, false⟩]
  else []) ++
  humanFacets query role.contract resource capability resourceId

def decision : Governance.PolicyDecision :=
  Governance.resolveFacets [query.operationType] (services.facets query)
    (some ((capabilityByOperation.lookup query.operationType).getD "unknown"))

/-- `blocking_reasons` of an envelope that is denied. -/
def blockingReasons : List String :=
  (((services.facets query).filter (·.permission = .denied)).map (·.reasonCode)).filter (· ≠ "")
    |>.eraseDups

end EnvelopeServices

end AIpinho.Tools
