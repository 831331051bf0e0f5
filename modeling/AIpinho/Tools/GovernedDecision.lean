import AIpinho.Approvals.Service
import AIpinho.Tools.RemoteScopes
import AIpinho.Tools.ShellCommands
import AIpinho.Tools.WriteEnvelopes

/-!
# Decisions about governed executions

A request to execute a tool is assessed: the policy of the tool, the task run, the workspace,
the command, the remote repository, the approval and the grant. What is found is recorded as
violations and as facets, and the facets decide.
-/

namespace AIpinho.Tools

open Lib
open AIpinho.Approvals (ApprovalRequest ApprovalStatus)
open AIpinho.Governance (CanonicalPermission PermissionDecision PolicyFacet)
open AIpinho.Grants (GrantQuery given)
open AIpinho.Mission (MissionContract MissionResourceScope MissionServices containsText)
open AIpinho.Runtime (TaskRunStatus)

/-- `ToolDefinition`, as far as it decides. -/
structure GovernedTool where
  toolId : String
  action : String
  capability : String
  adapter : String
  riskLevel : String
  enabled : Bool
  executeSupported : Bool
  requiresApproval : Bool

/-- `ToolExecutionRequest`, as far as it decides. -/
structure GovernedRequest where
  requestId : String
  toolId : String
  mode : String
  input : List (String × Json)
  approvalId : Option String
  taskRunId : Option String
  previewId : Option String

/-- `TaskRun`, as far as it decides. -/
structure GovernedTaskRun where
  missionContract : Option MissionContract
  status : TaskRunStatus
  parentTaskId : Option String

/-- What the stores answer while a decision is made. -/
structure GovernedFindings where
  /-- `get_run`. -/
  taskRun : String → Option GovernedTaskRun
  /-- `get_run_by_task_id`. -/
  taskRunOfTask : String → Option GovernedTaskRun
  /-- `get_approval`. -/
  approval : String → Except String (Option ApprovalRequest)
  /-- The reason of `decision_for_contract`, without using the grant. -/
  grant : MissionContract → GrantQuery → Except String (Option String)

/-- What was observed of a repository before a command of Git. -/
structure GitObservation where
  remoteLocator : Option String := none
  currentBranch : Option String := none
  error : Option String := none

/-- The part of the policy file for the network. -/
structure NetworkPolicy where
  allowedMethods : List String
  deniedSchemes : List String
  deniedHosts : List String
  /-- Whether the own machine may be asked. -/
  allowLocalhost : Bool

/-- `governed_tool_execution_policy.yaml`. -/
structure GovernedPolicy where
  enabled : Bool
  allowedActions : List String
  deniedActions : List String
  allowedCapabilities : List String
  deniedCapabilities : List String
  workspaceRequiredFor : List String
  defaultTimeoutSeconds : ℤ
  /-- The time a command may take at most. -/
  maxTimeoutSeconds : ℤ
  schemaVersion : ℤ
  shell : ShellPolicy
  network : NetworkPolicy

/-- The scheme and the host of a locator. -/
structure UrlParts where
  scheme : String
  hostname : Option String

/-- `GovernedToolExecutionService`. -/
structure GovernedToolExecution where
  policy : GovernedPolicy
  /-- `ToolRegistryService.get_tool`. -/
  registry : String → Option GovernedTool
  missions : MissionServices
  /-- The envelopes, with the roles of workspaces and the matrix. -/
  envelopes : EnvelopeServices
  remoteScopes : RemoteScopes
  commands : CommandServices
  gitClassifier : List String → GitClassification
  str : Json → String
  /-- `int`; nothing where it raises. -/
  int : Json → Option ℤ
  /-- `str.upper`. -/
  upper : String → String
  /-- `urlparse`; nothing where it raises. -/
  urlparse : String → Option UrlParts
  /-- The SHA-256 of a document with sorted keys. -/
  sha256 : Json → String
  /-- Whether a path is in a directory, both resolved. -/
  isWithin : String → String → Bool

namespace GovernedRequest

/-- `request.input.get(key)`. -/
def inputAt (request : GovernedRequest) (key : String) : Json :=
  (request.input.lookup key).getD .null

end GovernedRequest

namespace GovernedTool

variable (tool : GovernedTool)

def runsCommands : Bool := tool.adapter = "shell" && tool.action = "run_command"

def createsDirectories : Bool := tool.adapter = "filesystem" && tool.action = "create_directory"

def requestsWeb : Bool := tool.adapter = "web" && tool.action = "web_request"

end GovernedTool

namespace GovernedToolExecution

variable (service : GovernedToolExecution)

/-- `str(request.input.get(key) or "")`. -/
def inputText (request : GovernedRequest) (key : String) : String :=
  let value := request.inputAt key
  if value.truthy then service.str value else ""

def requestFingerprint (request : GovernedRequest) : String :=
  service.sha256 (Json.sorted (.obj [("tool_id", .str request.toolId),
    ("input", .obj request.input), ("mode", .str "governed"),
    ("task_run_id", (request.taskRunId.map Json.str).getD .null)]))

def judgedArgv (request : GovernedRequest) : Option (List String) :=
  match request.inputAt "argv" with
  | .list items => some (items.map service.str)
  | _ => none

/-- The classification of `_shell_decision`. -/
def shellClassification (request : GovernedRequest) : Except String ShellClassification :=
  ShellCommands.classify service.commands service.policy.shell service.gitClassifier
    (service.judgedArgv request) (service.inputText request "command")

def textArgv : Json → Option (List String)
  | .list items => items.mapM fun item => (item.text?).filter (· ≠ "")
  | _ => none

def stripWrappingQuotes (text : String) : String :=
  match text.toList with
  | quote :: rest =>
    if rest.getLast? = some quote ∧ isQuote quote then String.ofList rest.dropLast else text
  | [] => text

/-- `_command_argv`: the arguments that are run, or why there are none. -/
def commandArgv (request : GovernedRequest) : Except String (List String) :=
  match textArgv (request.inputAt "argv") with
  | some argv => .ok argv
  | none =>
    let command := service.commands.strip (service.inputText request "command")
    if command = "" then .error "command_or_argv_required"
    else if service.policy.shell.deniedTokens.any fun token =>
        containsText (service.commands.lower command) (service.commands.lower token) then
      .error "shell_metacharacter_denied"
    else
      match shellWords false command with
      | none => .error "command_parse_failed"
      | some [] => .error "command_or_argv_required"
      | some words => .ok (words.map stripWrappingQuotes)

def executableError (argv : List String) : Option String :=
  let executable := (argv.head?.map (GitCommands.executableName service.commands)).getD ""
  let allowed := service.policy.shell.allowedExecutables.map service.commands.lower
  if (service.policy.shell.deniedExecutables.map service.commands.lower).contains executable then
    some "executable_denied"
  else if allowed ≠ [] ∧ executable ∉ allowed then some "executable_not_allowlisted"
  else none

/-- `_shell_execution_preflight_error`. -/
def preflightError (request : GovernedRequest) : Option String :=
  match service.commandArgv request with
  | .error reason => some reason
  | .ok argv => service.executableError argv

def networkError (parts : UrlParts) (method : String) : Option String :=
  let network := service.policy.network
  let scheme := service.commands.lower parts.scheme
  let host := service.commands.lower (parts.hostname.getD "")
  if method ∉ network.allowedMethods then some "network_method_not_allowed"
  else if scheme ∈ network.deniedSchemes.map service.commands.lower then
    some "network_scheme_denied"
  else if scheme ≠ "http" ∧ scheme ≠ "https" then some "network_scheme_not_allowed"
  else if host = "" then some "network_host_required"
  else if host ∈ network.deniedHosts.map service.commands.lower then some "network_host_denied"
  else if host ∈ ["localhost", "127.0.0.1", "::1"] ∧ network.allowLocalhost = false then
    some "network_localhost_denied"
  else none

variable (found : GovernedFindings) (request : GovernedRequest)

def taskRunOf : Option GovernedTaskRun := (given request.taskRunId).bind found.taskRun

def taskRunErrors : List String :=
  match given request.taskRunId with
  | none => []
  | some taskRunId =>
    match found.taskRun taskRunId with
    | none => ["canonical_task_run_not_found"]
    | some run =>
      if run.missionContract.any (Mission.verify service.missions) then []
      else ["canonical_task_run_mission_contract_invalid"]

variable (tool : GovernedTool)

def globalErrors : List String :=
  let policy := service.policy
  let check (wrong : Bool) (error : String) : List String := if wrong then [error] else []
  check (!policy.enabled) "governed_tool_execution_disabled" ++
  check (request.mode ≠ "governed") "mode_not_governed" ++
  check (!tool.enabled) "disabled_tool" ++
  check (!tool.executeSupported) "execute_not_supported" ++
  check (!tool.requiresApproval) "approval_required_for_governed_execution" ++
  check (!policy.allowedActions.contains tool.action)
    "action_not_allowed_for_governed_execution" ++
  check (policy.deniedActions.contains tool.action) "action_denied_for_governed_execution" ++
  check (!policy.allowedCapabilities.contains tool.capability)
    "capability_not_allowed_for_governed_execution" ++
  check (policy.deniedCapabilities.contains tool.capability)
    "capability_denied_for_governed_execution"

variable (taskRun : Option GovernedTaskRun)

def localResources : List MissionResourceScope :=
  ((taskRun.bind (·.missionContract)).map (·.localResources)).getD []

/-- `_mission_staging_lifecycle_error`. -/
def stagingLifecycleError : Option String :=
  match taskRun with
  | none => none
  | some run =>
    if !(localResources (some run)).any (·.resourceType = .missionStaging) then none
    else if run.status.isTerminal then some "mission_staging_child_run_terminal"
    else
      match (given run.parentTaskId).bind found.taskRunOfTask with
      | none => some "mission_staging_parent_run_missing"
      | some parent =>
        if parent.status.isTerminal then some "mission_staging_parent_run_terminal" else none

def stagingMaterializationAllowed (resourceId : Option String) : Bool :=
  match taskRun.bind (·.missionContract),
      (taskRun.bind fun run => given run.parentTaskId), given resourceId with
  | some contract, some parentTaskId, some resourceId =>
    match contract.localResources.find? (·.resourceId = resourceId),
        (found.taskRunOfTask parentTaskId).bind (·.missionContract) with
    | some resource, some parent =>
      resource.resourceType = .missionStaging &&
        (Mission.validateChildContract service.missions parent contract).toOption.isSome &&
        (Mission.validateDerivedResource service.missions parent resource).toOption.isSome
    | _, _ => false
  | _, _, _ => false

/-- `_workspace_error`, with the role of the workspace. -/
def workspaceError : Option String × Option RoleDecision :=
  let workspace := service.inputText request "workspace"
  if workspace = "" then (some "workspace_required", none)
  else
    let role := service.envelopes.roles workspace (localResources taskRun)
    if taskRun.isSome ∧ role.reason = "workspace_not_registered" then
      (some "workspace_not_declared_by_mission", some role)
    else if role.allowed = false ∨ role.contract.isNone then
      (given (some role.reason), some role)
    else (none, some role)

def operationTypeForShellCategory (category : String) : Option String :=
  [("readonly_shell", "run_shell_readonly"), ("git_read_shell", "run_shell_readonly"),
    ("test_shell", "run_shell_test"), ("build_shell", "run_shell_build"),
    ("package_shell", "run_shell_build"), ("write_shell", "run_shell_write")].lookup category

def capabilityOfCategory : List (String × String) :=
  [("readonly_shell", "shell_readonly"), ("git_read_shell", "shell_readonly"),
    ("test_shell", "shell_test"), ("build_shell", "shell_build"),
    ("package_shell", "shell_build"), ("write_shell", "script_execution"),
    ("process_control_shell", "script_execution"), ("network_shell", "network_download"),
    ("git_write_shell", "git_write_ambiguous"), ("unknown_shell", "script_execution")]

variable (shell : Option ShellClassification)

def canonicalCapability : String :=
  if tool.createsDirectories then "create_directory"
  else
    match shell with
    | some classification =>
      match classification.gitClassification with
      | some git => git.capability
      | none => (capabilityOfCategory.lookup classification.category).getD tool.capability
    | none => if tool.requestsWeb then "network_download" else tool.capability

def branchOperations : List String := ["git_commit", "git_push", "git_pull_ff"]

def gitScopeDecision (git : GitClassification) (observation : Option GitObservation) :
    Option ScopeDecision :=
  match taskRun.bind (·.missionContract) with
  | none => none
  | some contract =>
    let candidates := contract.remoteResources.filter fun item =>
      item.role ≠ some "remote_denied" && item.permissions.contains git.operation
    let named := given (some (service.commands.strip
      (service.inputText request "repository_locator")))
    let locator := named.or (match candidates with
      | [resource] => resource.locator
      | _ => none)
    match locator with
    | none => none
    | some locator =>
      let branch := (given (some (service.commands.strip
        (service.inputText request "branch")))).or git.branch
      let branch :=
        if branchOperations.contains git.operation then
          (given (observation.bind (·.currentBranch))).or branch
        else branch
      let branch := (given branch).or (match candidates with
        | [resource] =>
          match resource.allowedBranches with
          | [only] => some only
          | _ => branch
        | _ => branch)
      some (service.remoteScopes.decide contract.remoteResources locator branch git.operation
        (observation.bind (·.remoteLocator)) observation.isSome)

def actionsRequested (approval : ApprovalRequest) : List String :=
  match approval.members.lookup "actions_requested" with
  | some (.list items) => items.filterMap (·.text?)
  | _ => []

/-- `config_versions["tool_execution_request_hash"]` of the policy of an approval. -/
def requestHash (approval : ApprovalRequest) : String :=
  match (((approval.members.lookup "policy_snapshot").bind (·.field? "config_versions")).bind
      (·.field? "tool_execution_request_hash")) with
  | some (.str hash) => hash
  | some value => if value.truthy then service.str value else ""
  | none => ""

/-- `_approval_error`, of an approval that is named. -/
def approvalErrorOf (approval : Option ApprovalRequest) : Option String :=
  match approval with
  | none => some "approval_not_found"
  | some approval =>
    if approval.status ≠ .approved then
      some ("approval_not_approved:" ++ approval.status.text)
    else if tool.action ∉ actionsRequested approval then some "approval_action_mismatch"
    else if service.requestHash approval ≠ "" ∧
        service.requestHash approval ≠ service.requestFingerprint request then
      some "approval_request_fingerprint_mismatch"
    else none

def grantQuery (contract : MissionContract) (capability : String)
    (resourceId identity branch : Option String) : GrantQuery where
  action := capability
  path := given (some (service.inputText request "workspace"))
  command := none
  missionId := some contract.missionId
  sourceMessageId := some contract.sourceMessageId
  sourcePromptSha256 := some contract.sourcePromptSha256
  resourceId := resourceId
  repositoryIdentity := identity
  branch := branch

/-- What is found about a request. -/
structure Assessment where
  tool : GovernedTool
  taskRun : Option GovernedTaskRun
  shell : Option ShellClassification
  capability : String
  workspaceError : Option String
  resourceId : Option String
  gitScope : Option ScopeDecision
  observation : Option GitObservation
  /-- What the matrix says of a directory. -/
  filesystem : Option PermissionDecision
  /-- The directory is derived from the staging policy. -/
  materializes : Bool
  approvalError : Option String
  /-- A grant of the mission is in effect. -/
  authorityReady : Bool

def remoteGit : Option GitClassification :=
  (shell.bind (·.gitClassification)).filter (·.requiresRemoteScope)

variable (assessment : Assessment)

def Assessment.approvalValid (request : GovernedRequest) : Bool :=
  (given request.approvalId).isSome && assessment.approvalError.isNone

def authorityResourceId (gitScope : Option ScopeDecision) (resourceId : Option String) :
    Option String :=
  (given (gitScope.bind (·.resourceId))).or resourceId

def grantReason (capability : String) (resourceId : Option String)
    (gitScope : Option ScopeDecision) : Except String (Option String) :=
  match taskRun.bind (·.missionContract) with
  | none => .ok none
  | some contract =>
    found.grant contract (service.grantQuery request contract capability
      (authorityResourceId gitScope resourceId) (gitScope.bind (·.repositoryIdentity))
      (gitScope.bind (·.branch)))

def approvalError : Except String (Option String) :=
  match given request.approvalId with
  | none => .ok none
  | some approvalId =>
    (found.approval approvalId).map (service.approvalErrorOf request tool)

def workspaceOf : Option String × Option RoleDecision :=
  if service.policy.workspaceRequiredFor.contains tool.action then
    service.workspaceError request (taskRunOf found request)
  else (none, none)

def shellOf : Except String (Option ShellClassification) :=
  if tool.runsCommands then (service.shellClassification request).map some else .ok none

def resourceIdOf : Option String :=
  ((service.workspaceOf found request tool).2.bind (·.contract)).map (·.workspaceId)

def gitScopeOf (observation : Option GitObservation) : Option ScopeDecision :=
  (remoteGit shell).bind fun git =>
    service.gitScopeDecision request (taskRunOf found request) git observation

def directoryTarget : String :=
  let path := service.inputText request "path"
  if path ≠ "" then path else service.inputText request "workspace"

def filesystemOf : Option PermissionDecision :=
  if tool.createsDirectories then
    some (service.envelopes.matrix.decideWithResources (some (service.directoryTarget request))
      "create_directory" (localResources (taskRunOf found request)))
  else none

variable (observation : Option GitObservation)

def assessmentOf (shell : Option ShellClassification) (approvalError grant : Option String) :
    Assessment :=
  let filesystem := service.filesystemOf found request tool
  { tool
    taskRun := taskRunOf found request
    shell
    capability := canonicalCapability tool shell
    workspaceError := (service.workspaceOf found request tool).1
    resourceId := service.resourceIdOf found request tool
    gitScope := service.gitScopeOf found request shell observation
    observation
    filesystem
    materializes := filesystem.any fun decision =>
      service.stagingMaterializationAllowed found (taskRunOf found request) decision.workspaceId
    approvalError
    authorityReady := grant = some "grant_effective" }

def assess : Except String Assessment := do
  let shell ← service.shellOf request tool
  let approvalError ← service.approvalError found request tool
  let grant ← service.grantReason found request (taskRunOf found request)
    (canonicalCapability tool shell) (service.resourceIdOf found request tool)
    (service.gitScopeOf found request shell observation)
  pure (service.assessmentOf found request tool observation shell approvalError grant)

namespace Assessment

variable (assessment : Assessment)

def facet (name : String) (permission : CanonicalPermission) (source reasonCode : String)
    (human : Bool) : PolicyFacet :=
  ⟨name, permission, source, reasonCode, some assessment.capability, assessment.resourceId,
    human⟩

def denied (name source reasonCode : String) : PolicyFacet :=
  assessment.facet name .denied source reasonCode false

def permitted (name source reasonCode : String) : PolicyFacet :=
  assessment.facet name .allowed source reasonCode false

def filesystemFacets : List PolicyFacet :=
  match assessment.filesystem with
  | none => []
  | some decision =>
    let permission : CanonicalPermission :=
      if decision.status = .denied then .denied
      else if assessment.materializes || decision.status = .allowed then .allowed
      else .ask
    [{ facet := "resource_permission"
       permission
       source := "workspace_permission_matrix"
       reasonCode := if assessment.materializes && permission = .allowed then
           "mission_staging_materialization_permission_derived" else decision.reasonCode
       capability := some assessment.capability
       resourceId := decision.workspaceId
       requiresHumanAuthority := permission = .ask }]

def remoteFacets : List PolicyFacet :=
  match remoteGit assessment.shell with
  | none => []
  | some _ =>
    let (permission, reasonCode) : CanonicalPermission × String :=
      match given (assessment.observation.bind (·.error)) with
      | some error => (.denied, error)
      | none =>
        match assessment.gitScope with
        | none => (.denied, "git_remote_scope_unresolved")
        | some scope =>
          (match scope.status with
            | .allowed => .allowed
            | .needsClarification => .needsClarification
            | .denied => .denied, scope.reasonCode)
    [{ facet := "remote_repository_scope"
       permission
       source := "remote_repository_scope"
       reasonCode
       capability := some assessment.capability
       resourceId := assessment.gitScope.bind (·.resourceId) }]

def permissionOfShell : ShellDecision → CanonicalPermission
  | .blocked => .denied
  | .approvalRequired => .ask
  | .allowed => .allowed

def shellFacets : List PolicyFacet :=
  match assessment.shell with
  | none => []
  | some classification =>
    assessment.facet "shell_policy" (permissionOfShell classification.policyDecision)
      "shell_command_policy" ("shell_category:" ++ classification.category)
      (classification.policyDecision = .approvalRequired) ::
    (if classification.category = "git_write_shell" then
      [assessment.denied "global_policy" "m5_ambiguous_external_shell_boundary"
        "git_write_requires_granular_classification"]
    else if classification.category = "network_shell" then
      [assessment.denied "global_policy" "m5_ambiguous_external_shell_boundary"
        "network_shell_requires_granular_classification"]
    else [])

def humanFacets (request : GovernedRequest) : List PolicyFacet :=
  (if assessment.materializes then
    assessment.permitted "derived_resource_materialization" "mission_staging_policy"
      "mission_staging_materialization_authorized"
  else
    assessment.facet "tool_human_authority_requirement" .ask "governed_tool_execution_policy"
      "approval_required_before_execution" true) ::
  ((if assessment.approvalValid request then
    [assessment.permitted "human_authority" "approved_execution_binding"
      "approval_binding_valid"]
  else
    match given assessment.approvalError with
    | some error => [assessment.denied "human_authority" "approval_service" error]
    | none => []) ++
  (if assessment.authorityReady then
    [assessment.permitted "human_authority" "mission_authority_grant" "grant_effective"]
  else []))

end Assessment

def envelopeQuery : Option EnvelopeQuery :=
  (assessment.shell.bind fun classification =>
    operationTypeForShellCategory classification.category).map fun operationType =>
  { workspacePath := service.inputText request "workspace"
    operationType
    targetPath := service.inputText request "workspace"
    previewId := request.previewId
    approvalId := if assessment.approvalValid request then request.approvalId else none
    localResources := localResources assessment.taskRun
    humanAuthorityEffective := assessment.authorityReady }

def facets (assessment : Assessment) : List PolicyFacet :=
  let errors := service.globalErrors request assessment.tool
  [assessment.permitted "capability_demand" "governed_tool_execution" "capability_requested",
  assessment.facet "governed_tool_policy" (allowedIf (errors = []))
    "governed_tool_execution_policy" (errors.headD "governed_tool_policy_allowed") false] ++
  (match stagingLifecycleError found assessment.taskRun with
    | some error => [assessment.denied "mission_staging_lifecycle" "task_run_lifecycle" error]
    | none => []) ++
  (if service.policy.workspaceRequiredFor.contains assessment.tool.action then
    [assessment.facet "workspace_resolution" (allowedIf assessment.workspaceError.isNone)
      "workspace_role_contract" (assessment.workspaceError.getD "workspace_allowed") false]
  else []) ++
  assessment.filesystemFacets ++ assessment.remoteFacets ++ assessment.shellFacets ++
  (match service.envelopeQuery request assessment with
    | some query => service.envelopes.facets query
    | none => []) ++
  assessment.humanFacets request

def recordedViolations : List String :=
  service.taskRunErrors found request ++ service.globalErrors request assessment.tool ++
  (stagingLifecycleError found assessment.taskRun).toList ++
  assessment.workspaceError.toList ++
  (match assessment.shell with
    | some classification =>
      if classification.policyDecision = .blocked then
        ["shell_category_blocked:" ++ classification.category]
      else []
    | none => []) ++
  (match service.envelopeQuery request assessment with
    | some query =>
      if (service.envelopes.decision query).permission = .denied then
        service.envelopes.blockingReasons query
      else []
    | none => [])

/-- What `_decision` returns, as far as it is read. -/
structure GovernedDecision where
  violations : List String
  /-- What is found, if there is a tool. -/
  assessment : Option Assessment
  canonical : Option Governance.PolicyDecision

def decision : Except String GovernedDecision :=
  match service.registry request.toolId with
  | none =>
    .ok
      { violations := (service.taskRunErrors found request ++
          (if service.policy.enabled then [] else ["governed_tool_execution_disabled"]) ++
          (if request.mode = "governed" then [] else ["mode_not_governed"]) ++
          ["unknown_tool"]).eraseDups
        assessment := none
        canonical := none }
  | some tool => do
    let assessment ← service.assess found request tool observation
    let facets := service.facets found request assessment
    let canonical := Governance.resolveFacets [tool.action] facets (some assessment.capability)
    let violations := service.recordedViolations found request assessment
    let blocking := (facets.find? (·.permission = .denied)).map (·.reasonCode)
    pure
      { violations :=
          if canonical.permission = .denied ∧ violations = [] then (given blocking).toList
          else violations.eraseDups
        assessment := some assessment
        canonical := some canonical }

end GovernedToolExecution

end AIpinho.Tools
