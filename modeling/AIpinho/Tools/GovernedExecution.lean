import AIpinho.Tools.GovernedDecision

/-!
# Governed executions

A request is executed only if its decision allows it. Before a command of Git that does more
than read here the repository is observed and the decision is made again.
-/

namespace AIpinho.Tools

open Lib
open AIpinho.Approvals (ApprovalRequest)
open AIpinho.Grants (GrantQuery given)
open AIpinho.Mission (MissionContract)

/-- What a read of Git returns. -/
structure GitRead where
  succeeded : Bool
  stdout : String

/-- What the process runner comes to. -/
inductive CommandOutcome
  | finished (exitCode : ℤ)
  | timeout
  | failed (error : String)

/-- What asking the web comes to. -/
inductive WebOutcome
  | answered (status : ℤ)
  | failed (error : String)

/-- The operations of an execution. -/
inductive GovernedOp
  /-- The process runner reads something of a repository. -/
  | gitRead (workspace : String) (argv : List String)
  /-- `decision_for_contract`, which uses the grant. -/
  | useGrant (contract : MissionContract) (query : GrantQuery)
  /-- The process runner runs the command of the request. -/
  | run (argv : List String) (cwd : String) (timeout : ℤ)
  /-- The opener asks the web. -/
  | openUrl (url method : String) (timeout : ℤ)
  | makeDirectory (target : String)

def governedStore : Signature where
  Op := GovernedOp
  Answer
    | .gitRead .. => Except String GitRead
    | .useGrant .. => Except String (Option String)
    | .run .. => CommandOutcome
    | .openUrl .. => WebOutcome
    | .makeDirectory _ => Except String Unit

/-- An execution. -/
abbrev GovernedProgram (α : Type) : Type := Program governedStore α

/-- `ToolExecutionStatus`, as far as an execution gives it. -/
inductive ExecutionStatus
  | executedGoverned | blocked | invalid | degraded | timeout
  deriving DecidableEq

/-- `ToolExecutionResult`, as far as it is read. -/
structure GovernedResult where
  status : ExecutionStatus
  violations : List String
  deriving DecidableEq

def GovernedProgram.ofExcept {α : Type} : Except String α → GovernedProgram α
  | .ok a => .done a
  | .error e => .raise e

namespace GovernedToolExecution

variable (service : GovernedToolExecution)

def resultFromDecision (violations : List String) : GovernedResult where
  status := if violations.contains "unknown_tool" then .invalid else .blocked
  violations

/-- `_canonical_hard_blocked`, also where there is no decision over facets. -/
def isHardBlocked (canonical : Option Governance.PolicyDecision) : Bool :=
  canonical.all fun policy =>
    [.denied, .needsClarification, .invalid, .expired, .stale].contains policy.permission

/-- The result of a decision that does not allow, with what is said where it asks. -/
def refusal (decision : GovernedDecision) (unanswered : String) : Option GovernedResult :=
  if isHardBlocked decision.canonical then some (resultFromDecision decision.violations)
  else if decision.canonical.any (·.permission = .ask) then
    some (resultFromDecision (decision.violations ++ [unanswered]))
  else none

/-- What is said where no human has agreed. -/
def unansweredReason (request : GovernedRequest) : String :=
  if (given request.approvalId).isSome then "approval_not_effective" else "approval_id_required"

def gitRead (workspace : String) (argv : List String) : GovernedProgram GitRead := do
  match ← Program.perform (S := governedStore) (.gitRead workspace argv) with
  | .error e => .raise e
  | .ok read => pure { read with stdout := service.commands.strip read.stdout }

def observeRemote (workspace remoteName : String) : GovernedProgram (Except String String) :=
  if (service.remoteScopes.normalize remoteName).isSome then pure (.ok remoteName)
  else do
    let read ← service.gitRead workspace ["git", "remote", "get-url", remoteName]
    pure (if read.succeeded = false ∨ read.stdout = "" then
      .error "git_remote_reobservation_failed" else .ok read.stdout)

def observeBranch (workspace : String) (git : GitClassification)
    (observation : GitObservation) : GovernedProgram GitObservation :=
  if branchOperations.contains git.operation then do
    let read ← service.gitRead workspace ["git", "branch", "--show-current"]
    pure (if read.succeeded = false ∨ read.stdout = "" then
        { error := some "git_branch_reobservation_failed" }
      else if git.operation = "git_push" ∧ (given git.branch).any (· ≠ read.stdout) then
        { error := some "git_push_current_branch_mismatch", currentBranch := some read.stdout }
      else if git.operation = "git_pull_ff" ∧ (given git.branch).any (· ≠ read.stdout) then
        { error := some "git_pull_ff_current_branch_mismatch"
          currentBranch := some read.stdout }
      else { observation with currentBranch := some read.stdout })
  else pure observation

def observeGitRuntime (request : GovernedRequest) (git : GitClassification) :
    GovernedProgram GitObservation := do
  let workspace := service.inputText request "workspace"
  if git.requiresRemoteScope then
    match ← service.observeRemote workspace ((given git.remoteName).getD "origin") with
    | .error error => pure { error := some error }
    | .ok locator => service.observeBranch workspace git { remoteLocator := some locator }
  else service.observeBranch workspace git {}

def observedGit (decision : GovernedDecision) : Option GitClassification :=
  ((decision.assessment.bind (·.shell)).bind (·.gitClassification)).filter fun git =>
    git.safeForGovernedExecution && git.operationClass ≠ .localRead

def firstWord (text : String) : String :=
  String.ofList (((text.toList.takeWhile (· ≠ '\n')).dropWhile isBlank).takeWhile
    fun c => !isBlank c)

def headsAgree (workspace remoteName branch : String) : GovernedProgram Bool := do
  let localHead ← service.gitRead workspace ["git", "rev-parse", "HEAD"]
  let remoteHead ← service.gitRead workspace ["git", "ls-remote", remoteName, branch]
  pure (localHead.succeeded && remoteHead.succeeded && localHead.stdout ≠ "" &&
    localHead.stdout = firstWord remoteHead.stdout)

def cloneAgrees (request : GovernedRequest) (assessment : Assessment)
    (git : GitClassification) : GovernedProgram Bool := do
  let workspace := service.inputText request "workspace"
  let remote ← service.gitRead workspace ["git", "remote", "get-url", "origin"]
  let branch ← service.gitRead workspace ["git", "branch", "--show-current"]
  let scope := service.gitScopeDecision request assessment.taskRun git
    (some { remoteLocator := some remote.stdout })
  let expected := given (assessment.gitScope.bind (·.branch))
  pure (remote.succeeded && branch.succeeded && remote.stdout ≠ "" &&
    scope.any (·.status = .allowed) && expected.all (· = branch.stdout))

def checked (result : GovernedResult) (violation : String) (agrees : Bool) : GovernedResult :=
  if agrees then result
  else { status := .degraded, violations := result.violations ++ [violation] }

def postValidate (request : GovernedRequest) (assessment : Assessment)
    (git : GitClassification) (result : GovernedResult) : GovernedProgram GovernedResult := do
  let workspace := service.inputText request "workspace"
  let branch := (assessment.gitScope.bind (·.branch)).getD ""
  if git.operation = "git_push" then
    checked result "git_push_remote_head_mismatch" <$>
      service.headsAgree workspace ((given git.remoteName).getD "origin") branch
  else if git.operation = "git_pull_ff" then
    checked result "git_pull_ff_remote_head_mismatch" <$>
      service.headsAgree workspace "origin" branch
  else if git.operation = "git_clone" then
    checked result "git_clone_post_validation_failed" <$>
      service.cloneAgrees request assessment git
  else pure result

def timeoutSeconds (request : GovernedRequest) : Except String ℤ :=
  let default := if service.policy.defaultTimeoutSeconds = 0 then 30
    else service.policy.defaultTimeoutSeconds
  let maximum := if service.policy.maxTimeoutSeconds = 0 then 120
    else service.policy.maxTimeoutSeconds
  let requested := request.inputAt "timeout_seconds"
  match if requested.truthy then service.int requested else some default with
  | none => .error "ValueError"
  | some seconds => .ok (max 1 (min seconds maximum))

def resultOfCommand : CommandOutcome → GovernedResult
  | .finished exitCode =>
    if exitCode = 0 then ⟨.executedGoverned, []⟩ else ⟨.degraded, ["tool_exit_code_nonzero"]⟩
  | .timeout => ⟨.timeout, ["tool_execution_timeout"]⟩
  | .failed _ => ⟨.degraded, ["tool_execution_failed"]⟩

/-- `_execute_shell`, with what is checked after it. -/
def executeShell (request : GovernedRequest) (assessment : Assessment)
    (violations : List String) (timeout : ℤ) : GovernedProgram GovernedResult :=
  match service.commandArgv request with
  | .error reason => pure (resultFromDecision (violations ++ [reason]))
  | .ok argv =>
    match service.executableError argv with
    | some reason => pure (resultFromDecision (violations ++ [reason]))
    | none => do
      let outcome ← Program.perform (S := governedStore)
        (.run argv (service.inputText request "workspace") timeout)
      let result := resultOfCommand outcome
      match assessment.shell.bind (·.gitClassification) with
      | some git =>
        if result.status = .executedGoverned then
          service.postValidate request assessment git result
        else pure result
      | none => pure result

def executeCreateDirectory (request : GovernedRequest) (violations : List String) :
    GovernedProgram GovernedResult :=
  let target := service.directoryTarget request
  if service.isWithin target (service.inputText request "workspace") then do
    match ← Program.perform (S := governedStore) (.makeDirectory target) with
    | .error e => .raise e
    | .ok _ => pure ⟨.executedGoverned, violations⟩
  else pure (resultFromDecision (violations ++ ["target_outside_workspace"]))

/-- `str(request.input.get("method") or "GET").upper()`. -/
def webMethod (request : GovernedRequest) : String :=
  let method := service.inputText request "method"
  service.upper (if method ≠ "" then method else "GET")

def executeWeb (request : GovernedRequest) (violations : List String) (timeout : ℤ) :
    GovernedProgram GovernedResult :=
  let url := service.inputText request "url"
  match service.urlparse url with
  | none => .raise "ValueError"
  | some parts =>
    match service.networkError parts (service.webMethod request) with
    | some reason => pure (resultFromDecision (violations ++ [reason]))
    | none => do
      match ← Program.perform (S := governedStore)
          (.openUrl url (service.webMethod request) timeout) with
      | .answered _ => pure ⟨.executedGoverned, []⟩
      | .failed _ => pure ⟨.degraded, ["web_request_failed"]⟩

def adapt (request : GovernedRequest) (assessment : Assessment) (violations : List String) :
    GovernedProgram GovernedResult := do
  let timeout ← GovernedProgram.ofExcept (service.timeoutSeconds request)
  if assessment.tool.runsCommands then
    service.executeShell request assessment violations timeout
  else if assessment.tool.createsDirectories then
    service.executeCreateDirectory request violations
  else if assessment.tool.requestsWeb then service.executeWeb request violations timeout
  else pure (resultFromDecision (violations ++ ["governed_adapter_not_implemented"]))

def consumeMissionAuthority (request : GovernedRequest) (assessment : Assessment) :
    GovernedProgram (Option String) :=
  match assessment.taskRun.bind (·.missionContract) with
  | none => pure (some "mission_authority_missing")
  | some contract => do
    match ← Program.perform (S := governedStore) (.useGrant contract
        (service.grantQuery request contract assessment.capability
          (authorityResourceId assessment.gitScope assessment.resourceId)
          (assessment.gitScope.bind (·.repositoryIdentity))
          (assessment.gitScope.bind (·.branch)))) with
    | .error e => .raise e
    | .ok none => pure (some "mission_authority_missing")
    | .ok (some reason) => pure (if reason = "grant_consumed" then none else some reason)

/-- A grant of the mission stands for the human. -/
def usesMissionAuthority (request : GovernedRequest) (assessment : Assessment) : Bool :=
  assessment.authorityReady && !assessment.approvalValid request

/-- What is done once the decision allows: the command is checked, the grant is used, and the
adapter works. -/
def carryOut (request : GovernedRequest) (decision : GovernedDecision)
    (assessment : Assessment) : GovernedProgram GovernedResult :=
  match if assessment.tool.runsCommands then service.preflightError request else none with
  | some reason => pure (resultFromDecision (decision.violations ++ [reason]))
  | none => do
    let refused ← if usesMissionAuthority request assessment then
        service.consumeMissionAuthority request assessment
      else pure none
    match refused with
    | some reason => pure (resultFromDecision (decision.violations ++ [reason]))
    | none => service.adapt request assessment decision.violations

def proceed (request : GovernedRequest) (decision : GovernedDecision) :
    GovernedProgram GovernedResult :=
  match decision.assessment with
  | none => .raise "AssertionError"
  | some assessment => service.carryOut request decision assessment

/-- What is done once a repository is observed: the decision is made again. -/
def executeObserved (refound : GovernedFindings) (request : GovernedRequest)
    (observation : GitObservation) : GovernedProgram GovernedResult := do
  let decision ← GovernedProgram.ofExcept (service.decision refound request (some observation))
  match refusal decision "approval_id_required" with
  | some result => pure result
  | none => service.proceed request decision

def executeDecided (refound : GovernedFindings) (request : GovernedRequest)
    (decision : GovernedDecision) : GovernedProgram GovernedResult :=
  match refusal decision (unansweredReason request) with
  | some result => pure result
  | none =>
    match observedGit decision with
    | none => service.proceed request decision
    | some git =>
      service.observeGitRuntime request git >>= service.executeObserved refound request

/-- `execute`, with what the stores answer when it decides and when it decides again. -/
def execute (found refound : GovernedFindings) (request : GovernedRequest) :
    GovernedProgram GovernedResult := do
  let decision ← GovernedProgram.ofExcept (service.decision found request none)
  service.executeDecided refound request decision

/-- What `request_approval` returns. -/
inductive ApprovalRequested
  | refused (result : GovernedResult)
  | authorized
  | required (approval : ApprovalRequest)

def newApproval (request : GovernedRequest) (tool : GovernedTool) (now expiresAt : String) :
    ApprovalRequest where
  status := .pending
  approvalScope := "future_execution"
  expiresAt
  updatedAt := now
  executionStatus := "not_executed"
  approvalAuthority := "AIpinho"
  members :=
    [("preview_id", .str ((given request.previewId).getD request.requestId)),
      ("actions_requested", .list [.str tool.action]),
      ("reason", .str ("Governed tool execution requested for " ++ tool.toolId ++ ".")),
      ("risk_level", .str tool.riskLevel),
      ("policy_snapshot", .obj
        [("policy_status", .str "approval_required"),
          ("allowed_actions", .list [.str tool.action]),
          ("denied_actions", .list (service.policy.deniedActions.map Json.str)),
          ("granted_capabilities", .list [.str tool.capability]),
          ("denied_capabilities", .list (service.policy.deniedCapabilities.map Json.str)),
          ("risk_level", .str tool.riskLevel),
          ("config_versions", .obj
            [("governed_tool_execution_policy", .int service.policy.schemaVersion),
              ("tool_id", .str tool.toolId), ("tool_action", .str tool.action),
              ("tool_execution_request_hash", .str (service.requestFingerprint request))])])]

/-- `request_approval`, without its events. -/
def requestApproval (found : GovernedFindings) (request : GovernedRequest)
    (now expiresAt : String) : Except String ApprovalRequested := do
  let decision ← service.decision found request none
  match decision.canonical, decision.assessment with
  | some canonical, some assessment =>
    if isHardBlocked (some canonical) then
      pure (.refused (resultFromDecision decision.violations))
    else if canonical.permission = .allowed then pure .authorized
    else pure (.required (service.newApproval request assessment.tool now expiresAt))
  | _, _ => pure (.refused (resultFromDecision decision.violations))

/-- The part of `governed_tool_execution_policy.yaml` for shells. -/
def shellPolicyFile : ShellPolicy where
  categories :=
    [⟨"destructive_shell", [], ["remove-item", " del ", " rmdir", " rm ", "format", "erase"]⟩,
      ⟨"git_write_shell", [], ["git commit", "git push", "git reset", "git checkout",
        "git clean"]⟩,
      ⟨"git_read_shell", [], ["git status", "git diff", "git log", "git show"]⟩,
      ⟨"network_shell", [], ["http://", "https://", "wget", "curl"]⟩,
      ⟨"process_control_shell", [], ["start-process", "stop-process", "taskkill", "restart"]⟩,
      ⟨"test_shell", ["pytest", "pytest.exe"], [" -m pytest", " py_compile"]⟩,
      ⟨"build_shell", ["gradle", "gradle.bat", "gradlew", "gradlew.bat"],
        [" assemble", " build", " check"]⟩,
      ⟨"package_shell", [], [" package", " zip", " dist"]⟩,
      ⟨"write_shell", [], [" --write", "set-content", "out-file"]⟩,
      ⟨"readonly_shell", [], [" --version", " -v", " -c print", " -c \"print", " -c 'print"]⟩]
  blockedCategories :=
    ["destructive_shell", "git_destructive_shell", "git_write_shell", "unknown_shell"]
  approvalRequiredCategories :=
    ["test_shell", "build_shell", "package_shell", "write_shell", "network_shell",
      "process_control_shell", "git_network_read_shell", "git_worktree_shell",
      "git_commit_shell", "git_push_shell"]
  allowedExecutables :=
    ["python", "python.exe", "py", "py.exe", "pytest", "pytest.exe", "gradle", "gradle.bat",
      "gradlew", "gradlew.bat", "git", "git.exe"]
  deniedExecutables :=
    ["powershell", "powershell.exe", "pwsh", "pwsh.exe", "cmd", "cmd.exe", "bash", "bash.exe",
      "sh", "sh.exe", "ssh", "ssh.exe", "scp", "scp.exe", "curl", "curl.exe"]
  deniedTokens := ["|", "&&", "||", ";", "<", ">", "\x60", "$(", "%COMSPEC%"]

/-- `governed_tool_execution_policy.yaml`. -/
def policyFile : GovernedPolicy where
  enabled := true
  allowedActions := ["run_command", "web_request", "create_directory", "write_files", "apply_patch"]
  deniedActions := ["delete_files", "move_files", "git_commit", "git_push", "write_memory"]
  allowedCapabilities := ["shell", "network", "write_workspace"]
  deniedCapabilities := ["git", "memory_write"]
  workspaceRequiredFor := ["run_command", "create_directory"]
  defaultTimeoutSeconds := 30
  maxTimeoutSeconds := 120
  schemaVersion := 1
  shell := shellPolicyFile
  network :=
    { allowedMethods := ["GET", "HEAD"]
      deniedSchemes := ["file", "ftp", "gopher", "data"]
      deniedHosts := ["0.0.0.0", "169.254.169.254"]
      allowLocalhost := true }

def runCommandTool : GovernedTool where
  toolId := "shell.run_command"
  action := "run_command"
  capability := "shell"
  adapter := "shell"
  riskLevel := "high"
  enabled := true
  executeSupported := true
  requiresApproval := true

/-- Texts in small letters, without blanks around them, and names without a path. -/
def plainCommands : CommandServices where
  casefold := id
  lower := id
  strip := id
  baseName := id

def openProject (path : String) : RoleDecision where
  allowed := true
  reason := "workspace_role_allows_operation"
  contract := some ⟨"project", path, true, true, true, true, false, [], []⟩

def projectExecution : GovernedToolExecution where
  policy := policyFile
  registry toolId := if toolId = runCommandTool.toolId then some runCommandTool else none
  missions :=
    { sha256 := fun _ => "sha256:1"
      staging := ⟨false, "", "", "", [], ""⟩
      tempDirectory := "/tmp"
      separator := "/"
      isAbsolute := fun text => startsWith text "/"
      resolve := id
      normcase := id
      strip := id
      repr := fun _ => "" }
  envelopes :=
    { roles := fun path _ => openProject path
      matrix :=
        { workspaces := []
          roleOverrides := []
          isUnder := startsWith
          normalLength := String.length }
      targetPathReason := fun _ _ => none }
  remoteScopes :=
    { normalize := fun locator =>
        if startsWith locator "https://" then some ⟨locator, "host", "https", false⟩ else none
      casefold := id
      deniedHosts := []
      deniedSchemes := [] }
  commands := plainCommands
  gitClassifier := GitCommands.classify plainCommands
  str value := value.text?.getD ""
  int
    | .int n => some n
    | _ => none
  upper := id
  urlparse _ := none
  sha256 _ := "sha256:1"
  isWithin := startsWith

def findApproval (approval : ApprovalRequest) : GovernedFindings where
  taskRun _ := none
  taskRunOfTask _ := none
  approval _ := .ok (some approval)
  grant _ _ := .ok none

def commandRequest (argv : List String) (taskRunId : Option String) : GovernedRequest where
  requestId := "request"
  toolId := "shell.run_command"
  mode := "governed"
  input := [("argv", .list (argv.map Json.str)), ("workspace", .str "/project")]
  approvalId := some "approval"
  taskRunId
  previewId := none

def approvedCommand (request : GovernedRequest) : ApprovalRequest :=
  (projectExecution.newApproval request runCommandTool "now" "later").decided "now" .approved

def succeedingRunner : Handler governedStore Unit
  | .gitRead _ _, _ => (.ok ⟨true, ""⟩, ())
  | .useGrant _ _, _ => (.ok none, ())
  | .run _ _ _, _ => (.finished 0, ())
  | .openUrl _ _ _, _ => (.answered 200, ())
  | .makeDirectory _, _ => (.ok (), ())

end GovernedToolExecution

end AIpinho.Tools
