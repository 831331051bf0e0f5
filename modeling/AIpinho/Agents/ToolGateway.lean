import AIpinho.Agents.WorkspaceResolver
import AIpinho.Governance.Facets
import AIpinho.Governance.PermissionMatrix
import AIpinho.Grants.Service
import AIpinho.Tools.ShellCommands

/-!
# The tool gateway

A call of a tool is judged by the policy kernel, by the permission matrix and by a grant of the
mission; their answers are the facets of one decision. The record of the call is written at each
stage, as a whole from the copy the call keeps.
-/

namespace AIpinho.Agents

open Lib
open AIpinho.Governance (CanonicalPermission PermissionDecision PermissionMatrix PolicyFacet)
open AIpinho.Grants (GrantQuery)
open AIpinho.Mission (MissionContract MissionResourceScope MissionServices)
open AIpinho.Tools

/-- `ToolInvocationCreateRequest`, as far as it decides. -/
structure ToolRequest where
  operationType : Option String
  workspaceId : Option String
  pathRef : Option String
  input : List (String × Json)
  approvalId : Option String
  autoApprovalId : Option String
  metadata : List (String × Json)

/-- `TaskRun`, as far as the gateway reads it. -/
structure GatewayTaskRun where
  runId : String
  missionId : Option String
  status : String
  approvalId : Option String
  missionContract : Option MissionContract

/-- `ToolInvocationStatus`. -/
inductive InvocationStatus
  | created | policyChecking | approvalRequired | autoApproved | running | succeeded | failed
  | blocked | cancelled
  deriving DecidableEq

/-- `ToolInvocation`, as far as it is read or changed. -/
structure ToolInvocation where
  toolName : String
  operationType : String
  workspaceId : Option String
  approvalId : Option String
  autoApprovalId : Option String
  status : InvocationStatus
  completedAt : Option String
  artifactIds : List String
  blockReasonCode : Option String
  errorCode : Option String
  deriving DecidableEq

/-- What is started in the end. -/
inductive Execution
  /-- The process runner gets these arguments. -/
  | process (argv : List String)
  | governedGit (argv : List String)
  | tool (toolName : String)
  deriving DecidableEq

/-- What an execution comes to. -/
inductive ToolOutcome
  | succeeded (artifactIds : List String)
  | blocked (reasonCode : String)
  | failed (errorCode : String)
  deriving DecidableEq

/-- The operations of a call that others see, or that ask others. -/
inductive GatewayOp
  /-- `save_invocation`. -/
  | save (invocation : ToolInvocation)
  /-- `get_invocation`. -/
  | load
  /-- `decision_for_contract`, which may use the grant. -/
  | askGrant (contract : MissionContract) (query : GrantQuery) (consume : Bool)
  | execute (execution : Execution)

def gatewayStore : Signature where
  Op := GatewayOp
  Answer
    | .save _ => Unit
    | .load => Option ToolInvocation
    | .askGrant .. => Except String (Option String)
    | .execute _ => ToolOutcome

abbrev GatewayProgram (α : Type) : Type := Program gatewayStore α

/-- What a call finds, and is given. -/
structure GatewayFindings where
  runAgentId : Option String
  agentId : String
  tool : Option ToolDefinition
  taskRun : Option (Option GatewayTaskRun)
  autoApprovalId : String
  now : String

/-- `AgentToolGatewayService`. -/
structure ToolGateway (Path : Type) where
  kernel : PolicyKernel
  resolver : WorkspaceResolver Path
  matrix : PermissionMatrix
  missions : MissionServices
  commands : CommandServices
  shellPolicy : ShellPolicy
  /-- Commands are split as a POSIX shell does. -/
  posix : Bool
  summary : Json → String
  /-- `int` does not raise. -/
  isInt : Json → Bool
  /-- The absolute path of a relative program in a directory, if it is there. -/
  relativeExecutable : String → String → Option String

namespace ToolRequest

variable (request : ToolRequest)

/-- `request.input.get(key)`. -/
def inputAt (key : String) : Json := (request.input.lookup key).getD .null

def textAt (key : String) : Except String (Option String) :=
  match request.inputAt key with
  | .str text => .ok (some text)
  | value => if value.truthy then .error "TypeError" else .ok none

end ToolRequest

namespace ToolGateway

variable {Path : Type} (gateway : ToolGateway Path)

variable (request : ToolRequest)

/-- `str(request.input.get("command") or "")`. -/
def commandText : String :=
  let command := request.inputAt "command"
  if command.truthy then gateway.kernel.str command else ""

def judgedArgv : Option (List String) :=
  match request.inputAt "argv" with
  | .list items => some (items.map gateway.kernel.str)
  | _ => none

variable (tool : ToolDefinition)

/-- `_canonical_shell_classification`. -/
def shellClassification (request : ToolRequest) : Except String (Option ShellClassification) :=
  if !tool.canRunShell then .ok none
  else (ShellCommands.classify gateway.commands gateway.shellPolicy
    (GitCommands.classify gateway.commands) (gateway.judgedArgv request)
    (gateway.commandText request)).map some

def stripWrappingQuotes (text : String) : String :=
  match text.toList with
  | quote :: rest =>
    if rest.getLast? = some quote ∧ isQuote quote then String.ofList rest.dropLast else text
  | [] => text

/-- The parts over which a value is iterated. -/
def parts : Json → Except String (List String)
  | .list items => .ok (items.map gateway.kernel.str)
  | .obj fields => .ok (fields.map Prod.fst)
  | .str text => .ok (text.toList.map fun c => String.ofList [c])
  | _ => .error "TypeError"

def resolveRelativeExecutable (cwd : Option String) : List String → List String
  | [] => []
  | executable :: args =>
    match (cwd.filter (· ≠ "")).bind (gateway.relativeExecutable · executable) with
    | some path => path :: args
    | none => executable :: args

/-- The words of the command that `_run_shell` runs, before the quotes go. -/
def shellParts : Except String (List String) :=
  let argv := request.inputAt "argv"
  if argv.truthy then gateway.parts argv
  else if !(request.inputAt "command").truthy then .error "ValueError"
  else
    match shellWords gateway.posix (gateway.kernel.str (request.inputAt "command")) with
    | some words => .ok words
    | none => .error "ValueError"

/-- The arguments that `_run_shell` runs. -/
def shellArgv (workspace : Option WorkspaceResolution) : Except String (List String) := do
  let words ← gateway.shellParts request
  demand (gateway.isInt ((request.input.lookup "timeout_seconds").getD (.int 120))) "ValueError"
  pure (gateway.resolveRelativeExecutable
    ((workspace.bind (·.resolvedPath)).filter (· ≠ "")) (words.map stripWrappingQuotes))

/-- `_run_shell`, up to where it starts something. -/
def runShell (workspace : Option WorkspaceResolution) : Except String Execution := do
  let argv ← gateway.shellArgv request workspace
  let classification ← ShellCommands.classify gateway.commands gateway.shellPolicy
    (GitCommands.classify gateway.commands) (some argv) ""
  match classification.gitClassification with
  | some git => pure (if git.operationClass = .localRead then .process argv else .governedGit argv)
  | none => pure (.process argv)

/-- The tools that `_execute` knows by their names. -/
def namedTools : List String :=
  ["list_dir", "read_file", "search_files", "create_file", "modify_file", "create_directory",
    "create_archive", "create_artifact", "upload_artifact", "download_artifact", "validate",
    "pinhoforge_tool_availability_get", "pinhoforge_readiness_summary_get",
    "pinhoforge_environment_report_export", "generate_report", "patch_preview", "patch_apply"]

/-- The tools that `_execute` knows by how their names start. -/
def toolFamilies : List String :=
  ["pinhoforge_conversion_", "pinhoforge_command_", "pinhoforge_hardware_",
    "pinhoforge_android_", "pinhoforge_media_", "pinhoforge_terminal_", "sandbox_"]

/-- `_execute`, up to where it starts something. -/
def execution (request : ToolRequest) (workspace : Option WorkspaceResolution) :
    Except String Execution :=
  if tool.toolName = "run_shell" then gateway.runShell request workspace
  else if namedTools.contains tool.toolName || toolFamilies.any (startsWith tool.toolName) then
    .ok (.tool tool.toolName)
  else .error "NotImplementedError"

def shellPermission (category : String) : String :=
  if ["readonly_shell", "git_read_shell"].contains category then "shell_readonly"
  else if category = "build_shell" ∨ category = "package_shell" then "shell_build"
  else if category = "test_shell" then "shell_test"
  else "script_execution"

/-- `str(classification.category if classification is not None else ...)`. -/
def shellCategoryText : Option ShellClassification → String
  | some classification => classification.category
  | none =>
    let given := request.inputAt "shell_category"
    if given.truthy then gateway.kernel.str given else "unknown_shell"

/-- `request.operation_type or tool.tool_name`. -/
def operationName (request : ToolRequest) : String :=
  (given request.operationType).getD tool.toolName

def permissionForTool (request : ToolRequest) (shell : Option ShellClassification) : String :=
  if tool.toolName = "run_shell" then shellPermission (gateway.shellCategoryText request shell)
  else Governance.permissionForAction (operationName tool request)

/-- `_canonical_capability_for_tool`. -/
def canonicalCapability (request : ToolRequest) (shell : Option ShellClassification) : String :=
  match shell.bind (·.gitClassification) with
  | some git => git.capability
  | none => gateway.permissionForTool tool request shell

def accessOf : String :=
  if tool.canRunShell then "shell"
  else if tool.canModifyFilesystem || tool.capability = "patch_apply" then "write"
  else "read"

def resolveWorkspace (request : ToolRequest) (localResources : List MissionResourceScope) :
    Except String (Option WorkspaceResolution) :=
  if !tool.requiresWorkspace then .ok none
  else do
    let pathRef ← match given request.pathRef with
      | some path => pure (some path)
      | none => request.textAt "path_ref"
    let relativePath ← match given (← request.textAt "relative_path") with
      | some path => pure (some path)
      | none => request.textAt "cwd"
    some <$> gateway.resolver.resolve
      { workspaceId := request.workspaceId
        pathRef
        relativePath
        access := accessOf tool
        localResources }

def canonicalTaskRun (found : GatewayFindings) : Except String (Option GatewayTaskRun) :=
  match found.taskRun with
  | none => .ok none
  | some none => .error "PermissionError"
  | some (some run) =>
    if run.missionContract.any (Mission.verify gateway.missions) then .ok (some run)
    else .error "PermissionError"

/-- The remote resource, the repository and the branch a grant is asked for. -/
structure GitAuthorityScope where
  resourceId : Option String
  repositoryIdentity : Option String
  branch : Option String

def gitAuthorityScope (contract : MissionContract) (shell : Option ShellClassification)
    (capability : String) : GitAuthorityScope :=
  match shell.bind (·.gitClassification),
      contract.remoteResources.filter fun item =>
        item.role ≠ some "remote_denied" && item.permissions.contains capability with
  | some git, [resource] =>
    let branch := given (git.branch.map gateway.commands.strip)
    ⟨some resource.resourceId, resource.normalizedIdentity,
      match branch, resource.allowedBranches with
      | none, [only] => some only
      | _, _ => branch⟩
  | _, _ => ⟨none, none, none⟩

/-- What a call knows when it is judged. -/
structure Judgement where
  tool : ToolDefinition
  taskRun : Option GatewayTaskRun
  workspace : Option WorkspaceResolution
  shell : Option ShellClassification
  permission : String
  capability : String
  resource : Option PermissionDecision
  /-- Whether a grant of the mission is in effect. -/
  authorityReady : Bool

variable (judgement : Judgement)

def Judgement.resourceId : Option String :=
  match judgement.resource with
  | some decision => decision.workspaceId
  | none => judgement.workspace.bind (·.workspaceId)

variable (policy : PolicyDecision)

/-- The matrix or the kernel demands a human. -/
def Judgement.needsHuman : Bool :=
  judgement.resource.any (·.status = .approvalRequired) || policy.decision = .requireApproval

def Judgement.approvalReady (request : ToolRequest) : Bool :=
  match judgement.taskRun with
  | some run => run.status = "running" && (given run.approvalId).isSome &&
      request.approvalId = run.approvalId
  | none => (given request.approvalId).isSome || (given request.autoApprovalId).isSome

def kernelPermission : KernelDecision → CanonicalPermission
  | .deny => .denied
  | .requireApproval => .ask
  | .allow | .autoApprove => .allowed

def matrixPermission : Governance.PermissionStatus → CanonicalPermission
  | .denied => .denied
  | .approvalRequired => .ask
  | .allowed => .allowed

def workspaceFacets : List PolicyFacet :=
  match judgement.workspace with
  | none => []
  | some workspace =>
    [{ facet := "workspace_resolution"
       permission := if workspace.allowed then .allowed else .denied
       source := "agent_tool_workspace_resolver"
       reasonCode := workspace.reasonCode
       capability := some judgement.capability
       resourceId := judgement.resourceId }]

def resourceFacets : List PolicyFacet :=
  match judgement.resource with
  | none => []
  | some decision =>
    [{ facet := "resource_permission"
       permission := matrixPermission decision.status
       source := "workspace_permission_matrix"
       reasonCode := decision.reasonCode
       capability := some judgement.capability
       resourceId := judgement.resourceId
       requiresHumanAuthority := decision.status = .approvalRequired }]

def humanFacet (source reasonCode : String) : PolicyFacet where
  facet := "human_authority"
  permission := .allowed
  source
  reasonCode
  capability := some judgement.capability
  resourceId := judgement.resourceId

def humanFacets (request : ToolRequest) : List PolicyFacet :=
  if !judgement.needsHuman policy then []
  else if judgement.authorityReady then
    [humanFacet judgement "mission_authority_grant" "grant_effective"]
  else if judgement.approvalReady request then
    [humanFacet judgement (if judgement.taskRun.isSome then "canonical_task_approval"
      else "tool_approval_reference") "approval_effective"]
  else []

/-- The facets of `_canonical_tool_decision`. -/
def toolFacets (request : ToolRequest) : List PolicyFacet :=
  [{ facet := "capability_demand"
     permission := .allowed
     source := "agent_tool_gateway"
     reasonCode := "capability_requested"
     capability := some judgement.capability
     resourceId := judgement.resourceId }] ++
  workspaceFacets judgement ++ resourceFacets judgement ++
  [{ facet := "agent_tool_policy"
     permission := kernelPermission policy.decision
     source := "agent_tool_policy_decision"
     reasonCode := policy.reasonCode
     capability := some judgement.capability
     resourceId := judgement.resourceId
     requiresHumanAuthority := policy.decision = .requireApproval }] ++
  humanFacets judgement policy request

def canonicalToolDecision (request : ToolRequest) : Governance.PolicyDecision :=
  Governance.resolveFacets [operationName judgement.tool request]
    (toolFacets judgement policy request) (some judgement.capability)

def authorityNeeded (facets : List PolicyFacet) : Bool :=
  (facets.any fun item => item.facet = "human_authority" &&
    item.source = "mission_authority_grant" && item.permission = .allowed) &&
  facets.any (·.permission = .ask)

def delegatesGit (shell : Option ShellClassification) : Bool :=
  (shell.bind (·.gitClassification)).any (·.operationClass ≠ .localRead)

end ToolGateway

end AIpinho.Agents
