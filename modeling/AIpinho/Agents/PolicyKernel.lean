import AIpinho.Events.Redaction
import AIpinho.Mission.Contract

/-!
# The policy kernel of the tool gateway

A tool call is denied, allowed, approved on the spot, or has to wait for an approval, by a
cascade of checks of which the first that applies decides. Tools of the sandbox are approved
before the mode is looked at, and what no check stops is allowed.
-/

namespace AIpinho.Agents

open Lib
open AIpinho.Events (word wordFolded)
open AIpinho.Mission (containsText)
open AIpinho.Runtime (isSpace foldCase)

/-- `ToolDefinition`, as far as it is read. -/
structure ToolDefinition where
  toolName : String
  capability : String
  riskLevel : String
  requiresWorkspace : Bool
  requiresApproval : Bool
  canModifyFilesystem : Bool
  canRunShell : Bool
  enabled : Bool
  agentAllowlist : List String
  agentDenylist : List String
  deriving DecidableEq

inductive WorkspaceRole
  | sourceReadonly
  | targetMutable
  | systemMutable
  /-- `protected`. -/
  | protectedArea
  | forbidden
  | unknown
  deriving DecidableEq

structure WorkspaceResolution where
  workspaceId : Option String
  workspaceRole : WorkspaceRole
  rootPath : Option String
  resolvedPath : Option String
  allowed : Bool
  reasonCode : String
  evidenceRefs : List String
  deriving DecidableEq

/-- A call of `evaluate_tool_invocation`. -/
structure KernelCall where
  agentId : String
  tool : ToolDefinition
  workspace : Option WorkspaceResolution
  inputSummary : String
  /-- What kind of command is to be run. -/
  shellCategory : Option String
  operationType : Option String
  executionMode : Option String

/-- `PolicyDecisionValue`. -/
inductive KernelDecision
  | allow
  | deny
  | requireApproval
  | autoApprove
  deriving DecidableEq

/-- A decision, its reason and the risk that is recorded with it. -/
structure Verdict where
  decision : KernelDecision
  reasonCode : String
  riskLevel : String
  deriving DecidableEq

/-- `PolicyDecision`, without the texts for a reader. -/
structure PolicyDecision extends Verdict where
  operationType : String
  capability : String
  workspaceId : Option String
  workspaceRole : Option WorkspaceRole
  executionMode : String
  evidenceRefs : List String

def criticalShellCategories : List String :=
  ["destructive_shell", "process_control_shell", "unknown_shell", "git_destructive_shell"]

def externalOrGitShellCategories : List String := ["network_shell", "git_write_shell"]

def safeShellCategories : List String :=
  ["readonly_shell", "test_shell", "build_shell", "package_shell", "git_read_shell"]

def governedGitShellCategories : List String :=
  ["git_network_read_shell", "git_worktree_shell", "git_commit_shell", "git_push_shell"]

def writeCapabilities : List String :=
  ["workspace_write", "create_file", "modify_file", "create_directory", "patch_apply"]

def sandboxCapabilities : List String :=
  ["sandbox_file_read", "sandbox_file_write", "sandbox_shell", "sandbox_artifact_export",
    "sandbox_validation", "sandbox_cleanup"]

def lowAutoCapabilities : List String :=
  ["validation", "report_generate", "patch_preview", "read_workspace", "search_workspace",
    "artifact_create", "artifact_upload", "artifact_download"] ++ sandboxCapabilities

/-- A character of a bearer token, with `IGNORECASE`. -/
def isSecretTokenChar (c : Char) : Bool :=
  (foldCase c).isAlphanum || ['.', '_', '~', '+', '/', '-'].contains c

/-- A character of a key, with `IGNORECASE`. -/
def isSecretKeyChar (c : Char) : Bool := (foldCase c).isAlphanum || c == '_' || c == '-'

/-- `SECRET_PATTERN`, one list of steps for each alternative. -/
def kernelSecretPatterns : List (List (Step Char)) :=
  [wordFolded "bearer" ++ [.run isSpace 1, .run isSecretTokenChar 1],
    wordFolded "sk-" ++ [.run isSecretKeyChar 12],
    wordFolded "aiza" ++ [.run isSecretKeyChar 20],
    wordFolded "token=",
    wordFolded "api_key="]

def containsSecretRisk (value : String) : Bool :=
  kernelSecretPatterns.any fun pattern => hasMatch pattern value.toList

/-- `MultiAgentPolicyKernelService`: its two files, and how a value is printed. -/
structure PolicyKernel where
  /-- The document of the autoapproval policy; a file that is missing or empty is empty. -/
  policyFile : List (String × Json)
  profilesFile : List (String × Json)
  str : Json → String

namespace PolicyKernel

variable (kernel : PolicyKernel)

def policy : List (String × Json) :=
  if kernel.policyFile.isEmpty then
    [("default_execution_mode", .str "governed_autorun"), ("enable_power_user_mode", .bool true),
      ("enable_unrestricted_local_lab", .bool false), ("autoapprove_low_risk", .bool true),
      ("autoapprove_medium_risk", .bool true)]
  else kernel.policyFile

/-- `bool(policy.get(key, default))`. -/
def flag (key : String) (default : Bool) : Bool :=
  match kernel.policy.lookup key with
  | some v => v.truthy
  | none => default

/-- `policy.get("default_execution_mode", "governed_autorun")`. -/
def defaultMode : Json :=
  (kernel.policy.lookup "default_execution_mode").getD (.str "governed_autorun")

/-- The entry of `_profiles` for an agent: the last one counts. -/
def profile? (agentId : String) : Option (List (String × Json)) :=
  match kernel.profilesFile.lookup "agent_policy_profiles" with
  | some (.list items) =>
    items.reverse.findSome? fun item =>
      match item with
      | .obj fields =>
        match fields.lookup "agent_id" with
        | some id => if id.truthy && kernel.str id == agentId then some fields else none
        | none => none
      | _ => none
  | _ => none

def profile (agentId : String) : List (String × Json) :=
  (kernel.profile? agentId).getD
    [("agent_id", .str agentId), ("role", .str "unknown"), ("default_mode", kernel.defaultMode),
      ("can_use_tool_gateway", .bool true)]

def executionMode (call : KernelCall) : String :=
  match call.executionMode.filter (· ≠ "") with
  | some requested => requested
  | none =>
    match ((kernel.profile call.agentId).lookup "default_mode").filter (·.truthy) with
    | some mode => kernel.str mode
    | none => kernel.str kernel.defaultMode

def modePolicy (mode : String) : Json :=
  match kernel.policy.lookup "autoapproval_matrix" with
  | some (.obj modes) => (modes.lookup mode).getD (.obj [])
  | _ => .obj []

/-- `mode_policy.get(capability)` where `capability in mode_policy`; what is no mapping raises,
unless the capability is not in it. -/
def modeEntry (mode capability : String) : Except String (Option Json) :=
  match kernel.modePolicy mode with
  | .obj fields => .ok (fields.lookup capability)
  | .list items => if items.any (· = .str capability) then .error "AttributeError" else .ok none
  | .str text => if containsText text capability then .error "AttributeError" else .ok none
  | _ => .error "TypeError"

/-- `mode_policy.get(capability, False)`. -/
def modeFlag (mode capability : String) : Except String Bool :=
  match kernel.modePolicy mode with
  | .obj fields => .ok (((fields.lookup capability).getD (.bool false)).truthy)
  | _ => .error "AttributeError"

/-- The modes in which a middling risk may be taken. -/
def autorunModes : List String := ["governed_autorun", "power_user", "unrestricted_local_lab"]

/-- The modes the kernel names, without `safe_chat`. -/
def workingModes : List String := "assisted_execution" :: autorunModes

def autoAllowed (mode capability : String) (role : WorkspaceRole) (risk : String) :
    Except String Bool :=
  if mode = "safe_chat" then do
    let listed ← kernel.modeFlag mode capability
    pure (listed || ["artifact_create", "artifact_upload", "artifact_download", "validation",
      "report_generate"].contains capability)
  else if risk = "low" ∧ kernel.flag "autoapprove_low_risk" true then .ok true
  else if risk = "medium" ∧ kernel.flag "autoapprove_medium_risk" true ∧ mode ∈ autorunModes then
    .ok !(writeCapabilities.contains capability && role ≠ .targetMutable)
  else do
    match ← kernel.modeEntry mode capability with
    | some v => pure v.truthy
    | none => pure (lowAutoCapabilities.contains capability && workingModes.contains mode)

def approvalRequired (mode capability : String) : Bool :=
  ["assisted_execution", "power_user", "unrestricted_local_lab"].contains mode &&
    (writeCapabilities ++ ["shell"]).contains capability

/-- `{str(item) for item in policy.get(key, [])}`. -/
def names (fields : List (String × Json)) (key : String) : Except String (List String) :=
  match fields.lookup key with
  | none => .ok []
  | some (.list items) => .ok (items.map kernel.str)
  | some (.obj members) => .ok (members.map Prod.fst)
  | some (.str text) => .ok (text.toList.map fun c => String.ofList [c])
  | some _ => .error "TypeError"

/-- `_system_mutable_write_allowed_by_policy`. -/
def systemMutableWriteAllowed (mode capability operationType : String) : Except String Bool :=
  match kernel.policy.lookup "system_mutable_write_policy" with
  | none => .ok false
  | some (.obj fields) => do
    let modes ← kernel.names fields "modes"
    let operations ← kernel.names fields "allow_operations"
    let capabilities ← kernel.names fields "allowed_capabilities"
    if !modes.isEmpty && !modes.contains mode then pure false
    else if !capabilities.isEmpty && !capabilities.contains capability then pure false
    else pure (operations.contains operationType)
  | some _ => .ok false

end PolicyKernel

def KernelCall.role (call : KernelCall) : WorkspaceRole :=
  (call.workspace.map (·.workspaceRole)).getD .unknown

def ToolDefinition.writes (tool : ToolDefinition) : Bool :=
  tool.canModifyFilesystem || writeCapabilities.contains tool.capability

def classifyRisk (tool : ToolDefinition) (role : WorkspaceRole) (shellCategory : Option String) :
    String :=
  if (shellCategory.map criticalShellCategories.contains).getD false then "critical"
  else if (shellCategory.map externalOrGitShellCategories.contains).getD false then "high"
  else if tool.canRunShell then
    if (shellCategory.map safeShellCategories.contains).getD false then "medium" else "high"
  else if tool.capability = "patch_apply" ∨ tool.requiresApproval then
    if role = .targetMutable then "medium" else "high"
  else if tool.canModifyFilesystem then "medium"
  else if tool.riskLevel = "" then "low"
  else tool.riskLevel

def KernelCall.risk (call : KernelCall) : String :=
  classifyRisk call.tool call.role call.shellCategory

def normalizeWorkspaceReason (reason : String) : String :=
  if reason = "workspace_deny_override" then "workspace_forbidden"
  else if reason = "path_traversal_or_outside_workspace" then "path_traversal_denied"
  else if reason = "" then "workspace_unknown"
  else reason

namespace PolicyKernel

variable (kernel : PolicyKernel) (call : KernelCall)

/-- The checks that come first, and why they deny. -/
def earlyDenial : Option String :=
  if containsSecretRisk call.inputSummary then some "secret_access_blocked"
  else if !call.tool.enabled then some "tool_disabled"
  else if call.tool.agentDenylist.contains call.agentId ||
      (!call.tool.agentAllowlist.isEmpty && !call.tool.agentAllowlist.contains call.agentId) then
    some "agent_not_allowed"
  else if !(((kernel.profile call.agentId).lookup "can_use_tool_gateway").getD (.bool true)).truthy
      then some "capability_not_allowed"
  else if kernel.executionMode call = "unrestricted_local_lab" ∧
      kernel.flag "enable_unrestricted_local_lab" false = false then some "policy_unclassified"
  else none

def workspaceDecision : Except String (Option Verdict) :=
  match call.workspace with
  | none => .ok (some ⟨.deny, "workspace_unknown", call.risk⟩)
  | some workspace =>
    if !workspace.allowed then
      .ok (some ⟨.deny, normalizeWorkspaceReason workspace.reasonCode, call.risk⟩)
    else if workspace.workspaceRole = .sourceReadonly ∧ call.tool.writes then
      .ok (some ⟨.deny, "source_readonly_write_denied", call.risk⟩)
    else if workspace.workspaceRole = .forbidden then
      .ok (some ⟨.deny, "workspace_forbidden", call.risk⟩)
    else if workspace.workspaceRole = .protectedArea then
      .ok (some ⟨.deny, "workspace_protected", call.risk⟩)
    else if workspace.workspaceRole = .systemMutable ∧ call.tool.writes ∧
        kernel.flag "autoapprove_system_write" false = false then do
      let listed ← kernel.systemMutableWriteAllowed (kernel.executionMode call)
        call.tool.capability ((call.operationType.filter (· ≠ "")).getD call.tool.toolName)
      pure (if listed then none else some ⟨.requireApproval, "approval_required", call.risk⟩)
    else .ok none

def shellCategoryOf : String := (call.shellCategory.filter (· ≠ "")).getD "unknown_shell"

def criticalReason (category : String) : String :=
  if category = "process_control_shell" then "process_control_blocked"
  else if category = "unknown_shell" then "unknown_shell_blocked"
  else "destructive_shell_blocked"

def shellDecision : Except String Verdict :=
  let category := shellCategoryOf call
  let mode := kernel.executionMode call
  if criticalShellCategories.contains category then
    .ok ⟨.deny, criticalReason category, "critical"⟩
  else if governedGitShellCategories.contains category then
    .ok ⟨.requireApproval, "approval_required", "high"⟩
  else if externalOrGitShellCategories.contains category then
    if mode = "power_user" then .ok ⟨.requireApproval, "approval_required", "high"⟩
    else .ok ⟨.deny, if category = "network_shell" then "network_shell_blocked"
      else "git_write_blocked", "high"⟩
  else if safeShellCategories.contains category then do
    let allowed ← kernel.autoAllowed mode category call.role call.risk
    pure (if allowed then ⟨.autoApprove, category ++ "_auto_approved", call.risk⟩
      else ⟨.requireApproval, "approval_required", call.risk⟩)
  else .ok ⟨.deny, "unknown_shell_blocked", "critical"⟩

def sandboxReason (capability : String) : String :=
  if capability = "sandbox_artifact_export" then "sandbox_artifact_export_allowed"
  else if capability = "sandbox_validation" then "sandbox_validation_allowed"
  else if capability = "sandbox_cleanup" then "sandbox_cleanup_preview_allowed"
  else "sandbox_allowed_low_risk"

/-- The checks of the capability, which come last. -/
def capabilityDecision : Except String Verdict :=
  let tool := call.tool
  let mode := kernel.executionMode call
  if sandboxCapabilities.contains tool.capability then
    .ok ⟨.autoApprove, sandboxReason tool.capability, call.risk⟩
  else if mode = "safe_chat" ∧ (tool.writes || tool.canRunShell) then
    .ok ⟨.deny, "capability_not_allowed", call.risk⟩
  else if call.risk = "critical" then .ok ⟨.deny, "risk_too_high", call.risk⟩
  else if call.risk = "high" then .ok ⟨.requireApproval, "approval_required", call.risk⟩
  else do
    let allowed ← kernel.autoAllowed mode tool.capability call.role call.risk
    pure (if allowed then ⟨.autoApprove, tool.capability ++ "_auto_approved", call.risk⟩
      else if approvalRequired mode tool.capability then
        ⟨.requireApproval, "approval_required", call.risk⟩
      else ⟨.allow, "policy_allowed", call.risk⟩)

def verdict : Except String Verdict :=
  match kernel.earlyDenial call with
  | some reason => .ok ⟨.deny, reason, call.risk⟩
  | none => do
    match ← if call.tool.requiresWorkspace then kernel.workspaceDecision call else pure none with
    | some verdict => pure verdict
    | none =>
      if call.tool.canRunShell then
        if call.tool.capability = "sandbox_shell" then
          pure ⟨.autoApprove, "sandbox_shell_allowed", "medium"⟩
        else kernel.shellDecision call
      else kernel.capabilityDecision call

/-- `_decision`. -/
def decisionOf (verdict : Verdict) : PolicyDecision where
  toVerdict := verdict
  operationType := (call.operationType.filter (· ≠ "")).getD call.tool.toolName
  capability := call.tool.capability
  workspaceId := call.workspace.bind (·.workspaceId)
  workspaceRole := call.workspace.map (·.workspaceRole)
  executionMode := kernel.executionMode call
  evidenceRefs := ("policy:" ++ verdict.reasonCode) ::
    ((call.workspace.map (·.evidenceRefs)).getD [])

def evaluateToolInvocation : Except String PolicyDecision :=
  (kernel.verdict call).map (kernel.decisionOf call)

end PolicyKernel

end AIpinho.Agents
