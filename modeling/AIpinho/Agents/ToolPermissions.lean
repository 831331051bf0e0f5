import AIpinho.Agents.ToolAuthority
import AIpinho.Mission.Authority

/-!
# The permission of what a tool does

The matrix and the grant are asked for the permission of the operation as the caller calls it.
What the tool does is not looked at, unless it is the shell.
-/

namespace AIpinho.Agents

open Lib
open AIpinho.Governance (permissionForAction)
open AIpinho.Tools

def writePermissions : List String :=
  ["create_directory", "create_file", "modify_file", "apply_patch", "artifact_create", "copy_to",
    "move_from", "move_to", "delete_file"]

def Execution.argv : Execution → Option (List String)
  | .process argv | .governedGit argv => some argv
  | .tool _ => none

namespace ToolGateway

variable {Path : Type} (gateway : ToolGateway Path) (found : GatewayFindings)
  (request : ToolRequest)

def classifyArgv (argv : List String) : Except String ShellClassification :=
  ShellCommands.classify gateway.commands gateway.shellPolicy
    (GitCommands.classify gateway.commands) (some argv) ""

def Starts (execution : Execution) (started : ShellClassification) : Prop :=
  ∃ argv, execution.argv = some argv ∧ gateway.classifyArgv argv = .ok started

/-- A permission of the matrix covers what a tool does. -/
structure Covers (tool : ToolDefinition) (execution : Execution) (permission : String) : Prop where
  files : tool.canModifyFilesystem = true → permission ∈ writePermissions
  shell : tool.canRunShell = true → ∃ started, gateway.Starts execution started ∧
    permission = shellPermission started.category

/-- A capability of a grant covers what a tool does. -/
structure GrantCovers (tool : ToolDefinition) (execution : Execution) (capability : String) :
    Prop where
  files : tool.canModifyFilesystem = true → capability ∈ writePermissions
  shell : tool.canRunShell = true → ∃ started, gateway.Starts execution started ∧
    (capability = shellPermission started.category ∨
      started.gitClassification.any (·.capability = capability))

/-- The matrix is asked, and both it and the grant are asked for what the tool does. -/
structure ChecksEffect (tool : ToolDefinition) (execution : Execution) : Prop where
  matrix : ∃ prepared decision, gateway.prepare found request = .ok prepared ∧
    prepared.judgement.resource = some decision ∧
    gateway.Covers tool execution decision.permission
  grant : ∀ prepared contract query, gateway.prepare found request = .ok prepared →
    prepared.question = some (contract, query) →
    gateway.GrantCovers tool execution query.action

/-- Two commands need the same of the matrix, and what the first needs of a grant is enough
for the second. -/
def IsEnoughFor (judged started : ShellClassification) : Prop :=
  shellPermission judged.category = shellPermission started.category ∧
    (((judged.gitClassification.map (·.capability)).getD (shellPermission judged.category)) =
        shellPermission started.category ∨
      started.gitClassification.any (·.capability =
        (judged.gitClassification.map (·.capability)).getD (shellPermission judged.category)))

/-- What the operation is called asks for what the tool does. -/
structure AsksForEffect (tool : ToolDefinition) : Prop where
  needsWorkspace : tool.requiresWorkspace = true
  /-- The name of the operation stands for a permission to write. -/
  files : tool.canModifyFilesystem = true → tool.toolName ≠ "run_shell" ∧
    permissionForAction (operationName tool request) ∈ writePermissions
  /-- The command that is judged is enough for the one that is run. -/
  shell : tool.canRunShell = true → tool.toolName = "run_shell" ∧
    ∃ prepared judged argv started, gateway.prepare found request = .ok prepared ∧
      gateway.shellClassification tool request = .ok (some judged) ∧
      gateway.shellArgv request prepared.judgement.workspace = .ok argv ∧
      gateway.classifyArgv argv = .ok started ∧ IsEnoughFor judged started

variable {gateway found request} {tool : ToolDefinition} {execution : Execution}
  {xs : List gatewayStore.Exchange} {r : Except String ToolInvocation} {outcome : ToolOutcome}

theorem shellPermission_not_write (category : String) :
    shellPermission category ∉ writePermissions := by
  unfold shellPermission
  split
  · decide
  · split
    · decide
    · split <;> decide

theorem permissionForAction_shellPermission (category : String) :
    permissionForAction (shellPermission category) = shellPermission category := by
  unfold shellPermission
  split
  · decide
  · split
    · decide
    · split <;> decide

theorem permissionForTool_translated (shell : Option ShellClassification) :
    permissionForAction (gateway.permissionForTool tool request shell) =
      gateway.permissionForTool tool request shell := by
  unfold permissionForTool
  split
  · exact permissionForAction_shellPermission _
  · exact Governance.permissionForAction_idem _

theorem permissionForTool_write_iff (shell : Option ShellClassification) :
    gateway.permissionForTool tool request shell ∈ writePermissions ↔ tool.toolName ≠ "run_shell" ∧
        permissionForAction (operationName tool request) ∈ writePermissions := by
  unfold permissionForTool
  by_cases hshell : tool.toolName = "run_shell"
  · rw [if_pos hshell]
    exact ⟨fun h => absurd h (shellPermission_not_write _), fun h => absurd hshell h.1⟩
  · rw [if_neg hshell]
    exact ⟨fun h => ⟨hshell, h⟩, fun h => h.2⟩

variable {workspace : Option WorkspaceResolution}

theorem argv_of_runShell (h : gateway.runShell request workspace = .ok execution) :
    ∃ argv, gateway.shellArgv request workspace = .ok argv ∧ execution.argv = some argv := by
  unfold runShell at h
  obtain ⟨argv, hargv, h⟩ := value_bind_ok_iff.mp h
  obtain ⟨classification, -, h⟩ := value_bind_ok_iff.mp h
  refine ⟨argv, hargv, ?_⟩
  cases hgit : classification.gitClassification with
  | none =>
    simp only [hgit, pure, Except.pure, Except.ok.injEq] at h
    rw [← h]
    rfl
  | some git =>
    simp only [hgit, pure, Except.pure, Except.ok.injEq] at h
    rw [← h]
    split <;> rfl

theorem argv_of_execution {argv : List String}
    (hexecution : gateway.execution tool request workspace = .ok execution) :
    execution.argv = some argv ↔
      tool.toolName = "run_shell" ∧ gateway.shellArgv request workspace = .ok argv := by
  unfold ToolGateway.execution at hexecution
  by_cases hshell : tool.toolName = "run_shell"
  · rw [if_pos hshell] at hexecution
    obtain ⟨argv', hargv', hstarted⟩ := argv_of_runShell hexecution
    rw [hstarted, hargv']
    simp [hshell]
  · rw [if_neg hshell] at hexecution
    split at hexecution
    · cases hexecution
      exact ⟨nofun, fun h => absurd h.1 hshell⟩
    · cases hexecution

theorem starts_of_execution
    (hexecution : gateway.execution tool request workspace = .ok execution)
    (started : ShellClassification) :
    gateway.Starts execution started ↔ tool.toolName = "run_shell" ∧
      ∃ argv, gateway.shellArgv request workspace = .ok argv ∧
        gateway.classifyArgv argv = .ok started := by
  constructor
  · rintro ⟨argv, hargv, hstart⟩
    obtain ⟨hshell, hparsed⟩ := (argv_of_execution hexecution).mp hargv
    exact ⟨hshell, argv, hparsed, hstart⟩
  · rintro ⟨hshell, argv, hparsed, hstart⟩
    exact ⟨argv, (argv_of_execution hexecution).mpr ⟨hshell, hparsed⟩, hstart⟩

theorem Reached.isOpen {prepared : Prepared} {authorityReady : Bool} {policy : PolicyDecision}
    (hreached : Reached gateway found request xs execution prepared authorityReady policy)
    {workspace : WorkspaceResolution} (hworkspace : prepared.judgement.workspace = some workspace) :
    workspace.allowed = true := by
  by_contra hclosed
  have hmem : (⟨"workspace_resolution", .denied, "agent_tool_workspace_resolver",
      workspace.reasonCode, some prepared.judgement.capability,
      prepared.judgement.resourceId, false⟩ : Governance.PolicyFacet) ∈
        toolFacets { prepared.judgement with authorityReady } policy request := by
    simp [toolFacets, workspaceFacets, hworkspace, hclosed, Judgement.resourceId]
  rcases Governance.resolveFacets_allowed_iff.mp hreached.isAllowed _ hmem with h | ⟨h, -⟩
  · cases h
  · cases h

theorem resource_of_open {run : GatewayTaskRun} {workspace : WorkspaceResolution}
    {permission : String}
    (hopen : (closeWorkspace (some run)
      (gateway.resourceDecision (some run) (some workspace) permission) workspace).allowed = true) :
    ∃ decision, gateway.resourceDecision (some run) (some workspace) permission = some decision ∧
      decision.permission = permissionForAction permission ∧ decision.status ≠ .denied := by
  by_cases hallowed : workspace.allowed = true
  · have hasked : gateway.resourceDecision (some run) (some workspace) permission =
        some (gateway.matrix.decideWithResources (targetPath (some workspace)) permission
          ((run.missionContract.map (·.localResources)).getD [])) := by
      simp [resourceDecision, hallowed]
    refine ⟨_, hasked, Governance.PermissionMatrix.decideWithResources_permission .., ?_⟩
    intro hdenied
    rw [hasked] at hopen
    simp [closeWorkspace, hdenied] at hopen
  · have hnone : gateway.resourceDecision (some run) (some workspace) permission = none := by
      simp [resourceDecision, hallowed]
    rw [hnone] at hopen
    exact absurd hopen hallowed

theorem exists_contract {run : GatewayTaskRun}
    (h : gateway.canonicalTaskRun found = .ok (some run)) :
    ∃ contract, run.missionContract = some contract := by
  unfold canonicalTaskRun at h
  split at h
  · cases h
  · cases h
  · split at h
    · rename_i hverified
      cases h
      exact Option.isSome_iff_exists.mp (Option.isSome_of_any hverified)
    · cases h

theorem resolveWorkspace_isSome {resources : List Mission.MissionResourceScope}
    (h : gateway.resolveWorkspace tool request resources = .ok workspace) :
    workspace.isSome = tool.requiresWorkspace := by
  unfold resolveWorkspace at h
  cases hneeds : tool.requiresWorkspace with
  | false =>
    rw [hneeds] at h
    cases h
    rfl
  | true =>
    rw [hneeds] at h
    simp only [Bool.not_true, Bool.false_eq_true, if_false, bind, Except.bind, pure, Except.pure,
      Functor.map, Except.map] at h
    -- whatever is found of the paths, the resolution is some
    split at h <;> (repeat' split at h) <;> cases h <;> rfl

/-- What a call of a task run that is executed has asked for. -/
structure AskedFor (gateway : ToolGateway Path) (request : ToolRequest) (tool : ToolDefinition)
    (prepared : Prepared) (shell : Option ShellClassification) : Prop where
  matrix : tool.requiresWorkspace = true → ∃ decision,
    prepared.judgement.resource = some decision ∧
      decision.permission = gateway.permissionForTool tool request shell
  grant : tool.requiresWorkspace = true → ∃ contract query,
    prepared.question = some (contract, query)
  action : ∀ contract query, prepared.question = some (contract, query) →
    query.action = gateway.canonicalCapability tool request shell
  nothing : tool.requiresWorkspace = false → prepared.judgement.resource = none

theorem Reached.askedFor {prepared : Prepared} {authorityReady : Bool} {policy : PolicyDecision}
    (hreached : Reached gateway found request xs execution prepared authorityReady policy)
    {run : GatewayTaskRun} (htool : found.tool = some tool)
    (hrun : found.taskRun = some (some run)) :
    prepared.judgement.tool = tool ∧ ∃ shell, gateway.shellClassification tool request = .ok shell ∧
      AskedFor gateway request tool prepared shell := by
  obtain ⟨-, tool', taskRun, workspace, shell, htool', htask, hworkspace, hshell, rfl⟩ :=
    prepare_ok_iff.mp hreached.isPrepared
  cases htool.symm.trans htool'
  have htaskRun : taskRun = some run := by
    have hsame := (canonicalTaskRun_ok htask).symm.trans hrun
    simpa using hsame
  subst htaskRun
  obtain ⟨contract, hcontract⟩ := exists_contract htask
  refine ⟨rfl, shell, hshell, ?_⟩
  have hsome := resolveWorkspace_isSome hworkspace
  cases workspace with
  | none =>
    have hneeds : tool.requiresWorkspace = false := hsome.symm
    refine ⟨fun h => absurd h (by simp [hneeds]), fun h => absurd h (by simp [hneeds]),
      fun contract query hquestion => action_of_question hquestion, fun _ => rfl⟩
  | some workspace =>
    have hneeds : tool.requiresWorkspace = true := hsome.symm
    obtain ⟨decision, hdecision, hpermission, hstatus⟩ := resource_of_open (hreached.isOpen rfl)
    refine ⟨fun _ => ⟨decision, hdecision, hpermission.trans (permissionForTool_translated _)⟩,
      fun _ => ?_, fun contract query hquestion => action_of_question hquestion,
      fun h => absurd h (by simp [hneeds])⟩
    have hquestion : gateway.grantQuestion (some run) (some workspace) shell
        (gateway.canonicalCapability tool request shell)
        (gateway.resourceDecision (some run) (some workspace)
          (gateway.permissionForTool tool request shell)) ≠ none := by
      simp [grantQuestion, hcontract, hdecision, hstatus]
    obtain ⟨⟨contract, query⟩, hasked⟩ := Option.ne_none_iff_exists'.mp hquestion
    exact ⟨contract, query, hasked⟩

def projectGateway : ToolGateway String :=
  { systemGateway with
    resolver := { paths := textPaths, entries := [⟨"project", some "target_mutable", "/project"⟩] }
    matrix := { systemGateway.matrix with
      workspaces := [⟨"project", "/project", "target_mutable", true, []⟩] }
    missions := { systemGateway.missions with sha256 := fun _ => "sha256:1" } }

def missionRun : GatewayTaskRun where
  runId := "run"
  missionId := some "m"
  status := "running"
  approvalId := none
  missionContract := some Mission.sampleContract

def writeCall (operationType : Option String) : ToolRequest where
  operationType
  workspaceId := some "project"
  pathRef := none
  input := [("relative_path", .str "file")]
  approvalId := none
  autoApprovalId := none
  metadata := []

def grantedTools : Handler gatewayStore Unit
  | .save _, _ => ((), ())
  | .load, _ => (none, ())
  | .askGrant _ _ consume, _ =>
    (.ok (some (if consume then "grant_consumed" else "grant_effective")), ())
  | .execute _, _ => (.succeeded [], ())

def writeExchanges (operationType : Option String) : List gatewayStore.Exchange :=
  (projectGateway.invoke (createFileCall (some (some missionRun)))
    (writeCall operationType)).exchanges grantedTools ()

def executes (execution : Execution) : gatewayStore.Exchange → Bool
  | ⟨.execute other, _⟩ => other = execution
  | _ => false

theorem exists_executed (h : xs.any (executes execution) = true) :
    ∃ outcome, executed execution outcome ∈ xs := by
  obtain ⟨⟨o, a⟩, hmem, hexecuted⟩ := List.any_eq_true.mp h
  cases o with
  | execute other =>
    cases of_decide_eq_true hexecuted
    exact ⟨a, hmem⟩
  | save | load | askGrant => cases hexecuted

def askedPermission (gateway : ToolGateway Path) (found : GatewayFindings)
    (request : ToolRequest) : Option String :=
  match gateway.prepare found request with
  | .ok prepared => prepared.judgement.resource.map (·.permission)
  | .error _ => none

theorem shellClassification_ok {shell : Option ShellClassification}
    (h : gateway.shellClassification tool request = .ok shell) :
    shell.isSome = tool.canRunShell := by
  unfold shellClassification at h
  cases hshell : tool.canRunShell with
  | false =>
    rw [hshell] at h
    cases h
    rfl
  | true =>
    rw [hshell] at h
    rw [if_neg (by simp)] at h
    cases hjudged : ShellCommands.classify gateway.commands gateway.shellPolicy
        (GitCommands.classify gateway.commands) (gateway.judgedArgv request)
        (gateway.commandText request) with
    | error e =>
      rw [hjudged] at h
      cases h
    | ok judged =>
      rw [hjudged] at h
      cases h
      rfl

theorem permissionForTool_shell {judged : ShellClassification}
    (hname : tool.toolName = "run_shell") :
    gateway.permissionForTool tool request (some judged) = shellPermission judged.category := by
  rw [permissionForTool, if_pos hname, shellCategoryText]

theorem canonicalCapability_shell {judged : ShellClassification}
    (hname : tool.toolName = "run_shell") :
    gateway.canonicalCapability tool request (some judged) =
      (judged.gitClassification.map (·.capability)).getD (shellPermission judged.category) := by
  cases hgit : judged.gitClassification with
  | none => simp [canonicalCapability, hgit, permissionForTool_shell hname]
  | some git => simp [canonicalCapability, hgit]

/-- The call of a task run that is executed has asked for what the tool does exactly if the tool
needs a workspace, the operation of a tool that changes files has a name that stands for writing,
and the shell's command is judged as it is run. -/
theorem checks_effect_iff {run : GatewayTaskRun} (h : (gateway.invoke found request).Ends xs r)
    (hmem : executed execution outcome ∈ xs) (htool : found.tool = some tool)
    (hrun : found.taskRun = some (some run)) :
    gateway.ChecksEffect found request tool execution ↔
      gateway.AsksForEffect found request tool := by
  obtain ⟨prepared, authorityReady, policy, hreached⟩ := reached_of_executed h hmem
  obtain ⟨rfl, shell, hshell, hasked⟩ := hreached.askedFor htool hrun
  have hprepared := hreached.isPrepared
  have hstarts := starts_of_execution hreached.isExecution
  constructor
  · rintro ⟨⟨prepared', decision, hprepared', hdecision, hcovers⟩, hgrant⟩
    cases hprepared.symm.trans hprepared'
    have hneeds : prepared.judgement.tool.requiresWorkspace = true := by
      by_contra hnone
      rw [hasked.nothing (by simpa using hnone)] at hdecision
      cases hdecision
    obtain ⟨decision', hdecision', hpermission⟩ := hasked.matrix hneeds
    cases hdecision.symm.trans hdecision'
    refine ⟨hneeds, fun hmodifies => ?_, fun hruns => ?_⟩
    · rw [← permissionForTool_write_iff shell, ← hpermission]
      exact hcovers.files hmodifies
    · obtain ⟨started, hstarted, hsame⟩ := hcovers.shell hruns
      obtain ⟨hname, argv, hargv, hclassified⟩ := (hstarts _).mp hstarted
      obtain ⟨judged, rfl⟩ := Option.isSome_iff_exists.mp ((shellClassification_ok hshell).trans
        hruns)
      refine ⟨hname, prepared, judged, argv, started, hprepared, hshell, hargv, hclassified, ?_, ?_⟩
      · rw [← hsame, hpermission, permissionForTool_shell hname]
      · obtain ⟨contract, query, hquestion⟩ := hasked.grant hneeds
        obtain ⟨started', hstarted', hcapability⟩ :=
          (hgrant prepared contract query hprepared hquestion).shell hruns
        obtain ⟨-, argv', hargv', hclassified'⟩ := (hstarts _).mp hstarted'
        cases hargv.symm.trans hargv'
        cases hclassified.symm.trans hclassified'
        rw [hasked.action contract query hquestion, canonicalCapability_shell hname] at hcapability
        exact hcapability
  · rintro ⟨hneeds, hfiles, hshells⟩
    obtain ⟨decision, hdecision, hpermission⟩ := hasked.matrix hneeds
    refine ⟨⟨prepared, decision, hprepared, hdecision, ?_, ?_⟩, ?_⟩
    · intro hmodifies
      rw [hpermission, permissionForTool_write_iff]
      exact hfiles hmodifies
    · intro hruns
      obtain ⟨hname, prepared', judged, argv, started, hprepared', hjudged, hargv, hclassified,
        hsame, -⟩ := hshells hruns
      cases hprepared.symm.trans hprepared'
      cases hshell.symm.trans hjudged
      refine ⟨started, (hstarts _).mpr ⟨hname, argv, hargv, hclassified⟩, ?_⟩
      rw [hpermission, ← hsame, permissionForTool_shell hname]
    · intro prepared' contract query hprepared' hquestion
      cases hprepared.symm.trans hprepared'
      refine ⟨fun hmodifies => ?_, fun hruns => ?_⟩
      · obtain ⟨hname, hwrites⟩ := hfiles hmodifies
        have hnone : shell = none := by
          cases hruns : prepared.judgement.tool.canRunShell with
          | true => exact absurd (hshells hruns).1 hname
          | false => exact Option.not_isSome_iff_eq_none.mp (by
              rw [shellClassification_ok hshell, hruns]; simp)
        subst hnone
        rw [hasked.action contract query hquestion]
        exact (permissionForTool_write_iff none).mpr ⟨hname, hwrites⟩
      · obtain ⟨hname, prepared'', judged, argv, started, hprepared'', hjudged, hargv, hclassified,
          -, henough⟩ := hshells hruns
        cases hprepared.symm.trans hprepared''
        cases hshell.symm.trans hjudged
        refine ⟨started, (hstarts _).mpr ⟨hname, argv, hargv, hclassified⟩, ?_⟩
        rw [hasked.action contract query hquestion, canonicalCapability_shell hname]
        exact henough

/-- The call that writes a file under the name of its tool. -/
theorem checks_effect_iff_writeCall :
    projectGateway.ChecksEffect (createFileCall (some (some missionRun))) (writeCall none)
        createFile (.tool "create_file") ↔
      projectGateway.AsksForEffect (createFileCall (some (some missionRun))) (writeCall none)
        createFile := by
  have hexecutes : (writeExchanges none).any (executes (.tool "create_file")) = true := by
    decide +kernel
  obtain ⟨outcome, hmem⟩ := exists_executed hexecutes
  exact checks_effect_iff (Program.ends_exchanges grantedTools _ ()) hmem rfl rfl

/-- A file is written in a project where the matrix and the grant were asked for the permission
to read: the caller called the operation so. -/
theorem writes_as_reading :
    ¬∀ (gateway : ToolGateway String) (found : GatewayFindings) (request : ToolRequest)
      (xs : List gatewayStore.Exchange) (r : Except String ToolInvocation)
      (execution : Execution) (outcome : ToolOutcome) (tool : ToolDefinition)
      (run : GatewayTaskRun), (gateway.invoke found request).Ends xs r →
        executed execution outcome ∈ xs → found.tool = some tool → found.taskRun = some (some run) →
            tool.canModifyFilesystem = true ∨ tool.canRunShell = true →
              gateway.ChecksEffect found request tool execution := by
  intro h
  have hexecutes : (writeExchanges (some "read_file")).any (executes (.tool "create_file")) =
      true := by
    decide +kernel
  obtain ⟨outcome, hmem⟩ := exists_executed hexecutes
  obtain ⟨prepared, decision, hprepared, hdecision, hcovers⟩ :=
    (h projectGateway _ _ _ _ _ _ _ _ (Program.ends_exchanges grantedTools _ ()) hmem rfl rfl
      (.inl rfl)).matrix
  have hasked : askedPermission projectGateway (createFileCall (some (some missionRun)))
      (writeCall (some "read_file")) = some "read_file" := by decide +kernel
  rw [askedPermission, hprepared] at hasked
  simp only [hdecision, Option.map_some, Option.some.injEq] at hasked
  exact absurd (hasked ▸ hcovers.files rfl) (by decide)

end ToolGateway

end AIpinho.Agents
