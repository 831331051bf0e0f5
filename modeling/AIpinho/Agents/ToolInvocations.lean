import AIpinho.Agents.ToolGateway

/-!
# Calls of tools

`invoke` judges a call, asks for a grant where a human is demanded, and executes the tool. It
writes the record at each stage and never reads it. `cancel` reads and writes it once.
-/

namespace AIpinho.Agents

open List Lib
open AIpinho.Grants (GrantQuery)
open AIpinho.Mission (MissionContract)
open AIpinho.Tools

def GatewayProgram.ofExcept {α : Type} : Except String α → GatewayProgram α
  | .ok a => .done a
  | .error e => .raise e

/-- A call that has come to its end. -/
def InvocationStatus.isFinal : InvocationStatus → Bool
  | .succeeded | .failed | .blocked | .cancelled => true
  | _ => false

namespace ToolGateway

variable {Path : Type} (gateway : ToolGateway Path)

/-- A call before the grant is asked, and what the grant is asked. -/
structure Prepared where
  judgement : Judgement
  question : Option (MissionContract × GrantQuery)

def targetPath (workspace : Option WorkspaceResolution) : Option String :=
  workspace.bind fun workspace => (given workspace.resolvedPath).or workspace.rootPath

variable (taskRun : Option GatewayTaskRun)

def resourceDecision (workspace : Option WorkspaceResolution) (permission : String) :
    Option Governance.PermissionDecision :=
  match taskRun with
  | none => none
  | some run =>
    if workspace.any (·.allowed) then
      some (gateway.matrix.decideWithResources (targetPath workspace) permission
        ((run.missionContract.map (·.localResources)).getD []))
    else none

/-- What a grant is asked, where the matrix does not deny. -/
def grantQuestion (workspace : Option WorkspaceResolution) (shell : Option ShellClassification)
    (capability : String) (resource : Option Governance.PermissionDecision) :
    Option (MissionContract × GrantQuery) :=
  match taskRun.bind (·.missionContract), resource with
  | some contract, some decision =>
    if decision.status = .denied then none
    else
      let scope := gateway.gitAuthorityScope contract shell capability
      some (contract,
        { action := capability
          path := targetPath workspace
          command := none
          missionId := some contract.missionId
          sourceMessageId := some contract.sourceMessageId
          sourcePromptSha256 := some contract.sourcePromptSha256
          resourceId := (given scope.resourceId).or decision.workspaceId
          repositoryIdentity := scope.repositoryIdentity
          branch := scope.branch })
  | _, _ => none

def closeWorkspace (resource : Option Governance.PermissionDecision)
    (workspace : WorkspaceResolution) : WorkspaceResolution :=
  match taskRun, resource with
  | some run, some decision =>
    if decision.status = .denied then
      { workspace with
        allowed := false
        reasonCode := decision.reasonCode
        evidenceRefs := workspace.evidenceRefs ++
          ["task_run:" ++ run.runId, "mission:" ++ run.missionId.getD ""] }
    else workspace
  | _, _ => workspace

def preparedOf (request : ToolRequest) (tool : ToolDefinition)
    (taskRun : Option GatewayTaskRun) (workspace : Option WorkspaceResolution)
    (shell : Option ShellClassification) : Prepared :=
  let permission := gateway.permissionForTool tool request shell
  let capability := gateway.canonicalCapability tool request shell
  let resource := gateway.resourceDecision taskRun workspace permission
  { judgement :=
      { tool, taskRun, shell, permission, capability, resource
        workspace := workspace.map (closeWorkspace taskRun resource)
        authorityReady := false }
    question := gateway.grantQuestion taskRun workspace shell capability resource }

/-- `invoke`, up to the question to the grant. -/
def prepare (found : GatewayFindings) (request : ToolRequest) : Except String Prepared := do
  let agentId ← demandSome found.runAgentId "FileNotFoundError"
  demand (agentId = found.agentId) "PermissionError"
  let tool ← demandSome found.tool "KeyError"
  let taskRun ← gateway.canonicalTaskRun found
  let workspace ← gateway.resolveWorkspace tool request
    (((taskRun.bind (·.missionContract)).map (·.localResources)).getD [])
  let shell ← gateway.shellClassification tool request
  pure (gateway.preparedOf request tool taskRun workspace shell)

def kernelCall (found : GatewayFindings) (request : ToolRequest) (judgement : Judgement) :
    KernelCall where
  agentId := found.agentId
  tool := judgement.tool
  workspace := judgement.workspace
  inputSummary := gateway.summary (Events.redactPayload (.obj request.input))
  shellCategory := judgement.shell.map (·.category)
  operationType := some (operationName judgement.tool request)
  executionMode := (request.metadata.lookup "execution_mode").bind fun mode =>
    if mode.truthy then some (gateway.kernel.str mode) else none

def askAuthority : Option (MissionContract × GrantQuery) → GatewayProgram Bool
  | none => pure false
  | some (contract, query) => do
    match ← Program.perform (S := gatewayStore) (.askGrant contract query false) with
    | .error e => .raise e
    | .ok reason => pure (reason = some "grant_effective")

def useAuthority : Option (MissionContract × GrantQuery) → GatewayProgram (Option String)
  | none => pure none
  | some (contract, query) => do
    match ← Program.perform (S := gatewayStore) (.askGrant contract query true) with
    | .error e => .raise e
    | .ok reason =>
      pure (if reason = some "grant_consumed" then none
        else some (reason.getD "mission_authority_missing"))

/-- Write the record. -/
def store (invocation : ToolInvocation) : GatewayProgram ToolInvocation := do
  Program.perform (S := gatewayStore) (.save invocation)
  pure invocation

def blocked (now reasonCode : String) (invocation : ToolInvocation) : ToolInvocation :=
  { invocation with
    status := .blocked
    completedAt := some now
    blockReasonCode := some reasonCode }

/-- The record of a call whose tool was executed. -/
def completed (now : String) (invocation : ToolInvocation) : ToolOutcome → ToolInvocation
  | .succeeded artifactIds =>
    { invocation with status := .succeeded, completedAt := some now, artifactIds }
  | .blocked reasonCode => blocked now reasonCode invocation
  | .failed errorCode =>
    { invocation with status := .failed, completedAt := some now, errorCode := some errorCode }

def perform (judgement : Judgement) (request : ToolRequest) (now : String)
    (invocation : ToolInvocation) : GatewayProgram ToolInvocation := do
  let invocation ← store { invocation with status := .running }
  match gateway.execution judgement.tool request judgement.workspace with
  | .error e => store (completed now invocation (.failed e))
  | .ok execution => do
    let outcome ← Program.perform (S := gatewayStore) (.execute execution)
    store (completed now invocation outcome)

/-- A call that is allowed. -/
def proceed (prepared : Prepared) (judgement : Judgement) (policy : PolicyDecision)
    (request : ToolRequest) (now : String) (invocation : ToolInvocation) :
    GatewayProgram ToolInvocation := do
  let invocation ← if policy.decision = .autoApprove then
      store { invocation with status := .autoApproved }
    else pure invocation
  let refused ← if authorityNeeded (toolFacets judgement policy request) &&
      !delegatesGit judgement.shell then useAuthority prepared.question
    else pure none
  match refused with
  | some reasonCode => store (blocked now reasonCode invocation)
  | none => gateway.perform judgement request now invocation

def denialReason (judgement : Judgement) (policy : PolicyDecision) (request : ToolRequest) :
    String :=
  if policy.decision = .deny then policy.reasonCode
  else
    match (toolFacets judgement policy request).find? (·.permission = .denied) with
    | some item => item.reasonCode
    | none => (canonicalToolDecision judgement policy request).reasonCode.value

def conclude (prepared : Prepared) (judgement : Judgement) (policy : PolicyDecision)
    (request : ToolRequest) (now : String) (invocation : ToolInvocation) :
    GatewayProgram ToolInvocation :=
  let decision := canonicalToolDecision judgement policy request
  match decision.permission with
  | .denied => store (blocked now (denialReason judgement policy request) invocation)
  | .ask =>
    if judgement.taskRun.isSome && judgement.resource.any (·.status = .approvalRequired) then
      store (blocked now "mission_resource_requires_canonical_task_approval" invocation)
    else
      store { invocation with
        status := .approvalRequired
        completedAt := some now
        blockReasonCode := some decision.reasonCode.value }
  | .allowed => gateway.proceed prepared judgement policy request now invocation
  | _ => store (blocked now decision.reasonCode.value invocation)

def newInvocation (request : ToolRequest) (judgement : Judgement) : ToolInvocation where
  toolName := judgement.tool.toolName
  operationType := operationName judgement.tool request
  workspaceId := match judgement.workspace with
    | some workspace => workspace.workspaceId
    | none => request.workspaceId
  approvalId := request.approvalId
  autoApprovalId := request.autoApprovalId
  status := .created
  completedAt := none
  artifactIds := []
  blockReasonCode := none
  errorCode := none

/-- `invoke`. The events are left out. -/
def invoke (found : GatewayFindings) (request : ToolRequest) : GatewayProgram ToolInvocation := do
  let prepared ← GatewayProgram.ofExcept (gateway.prepare found request)
  let authorityReady ← askAuthority prepared.question
  let judgement := { prepared.judgement with authorityReady }
  let invocation ← store (newInvocation request judgement)
  let policy ← GatewayProgram.ofExcept
    (gateway.kernel.evaluateToolInvocation (gateway.kernelCall found request judgement))
  let invocation ← store { invocation with
    status := .policyChecking
    autoApprovalId := if policy.decision = .autoApprove then some found.autoApprovalId
      else invocation.autoApprovalId }
  gateway.conclude prepared judgement policy request found.now invocation

def cancelInvocation (now : String) : GatewayProgram (Option ToolInvocation) := do
  match ← Program.perform (S := gatewayStore) .load with
  | none => pure none
  | some invocation =>
    if invocation.status.isFinal then pure (some invocation)
    else
      some <$> store { invocation with status := .cancelled, completedAt := some now }

variable {gateway} {found : GatewayFindings} {request : ToolRequest}
  {xs : List gatewayStore.Exchange} {r : Except String ToolInvocation} {execution : Execution}
  {outcome : ToolOutcome}

variable {prepared : Prepared} {invocation : ToolInvocation} {judgement : Judgement}

theorem prepare_ok_iff : gateway.prepare found request = .ok prepared ↔
      found.runAgentId = some found.agentId ∧ ∃ tool taskRun workspace shell,
        found.tool = some tool ∧ gateway.canonicalTaskRun found = .ok taskRun ∧
        gateway.resolveWorkspace tool request
          (((taskRun.bind (·.missionContract)).map (·.localResources)).getD []) = .ok workspace ∧
        gateway.shellClassification tool request = .ok shell ∧
        prepared = gateway.preparedOf request tool taskRun workspace shell := by
  unfold prepare
  simp only [demandSome_bind_ok_iff, demand_bind_ok_iff]
  simp only [value_bind_ok_iff, pure, Except.pure, Except.ok.injEq]
  constructor
  · rintro ⟨agentId, hrun, rfl, tool, htool, taskRun, htask, workspace, hworkspace, shell, hshell,
      rfl⟩
    exact ⟨hrun, tool, taskRun, workspace, shell, htool, htask, hworkspace, hshell, rfl⟩
  · rintro ⟨hrun, tool, taskRun, workspace, shell, htool, htask, hworkspace, hshell, rfl⟩
    exact ⟨_, hrun, rfl, tool, htool, taskRun, htask, workspace, hworkspace, shell, hshell, rfl⟩

theorem canonicalTaskRun_ok {taskRun : Option GatewayTaskRun}
    (h : gateway.canonicalTaskRun found = .ok taskRun) : found.taskRun = taskRun.map some := by
  unfold canonicalTaskRun at h
  split at h
  · rename_i hnone
    cases h
    exact hnone
  · cases h
  · rename_i run hrun
    split at h
    · cases h
      exact hrun
    · cases h

theorem action_of_question {tool : ToolDefinition} {taskRun : Option GatewayTaskRun}
    {workspace : Option WorkspaceResolution} {shell : Option ShellClassification}
    {contract : MissionContract} {query : GrantQuery}
    (h : (gateway.preparedOf request tool taskRun workspace shell).question =
      some (contract, query)) :
    query.action = (gateway.preparedOf request tool taskRun workspace shell).judgement.capability
      := by
  change gateway.grantQuestion .. = _ at h
  unfold grantQuestion at h
  split at h
  · split at h
    · cases h
    · cases h
      rfl
  · cases h

def executed (execution : Execution) (outcome : ToolOutcome) : gatewayStore.Exchange :=
  ⟨.execute execution, outcome⟩

def asked (contract : MissionContract) (query : GrantQuery) (consume : Bool)
    (answer : Option String) : gatewayStore.Exchange :=
  ⟨.askGrant contract query consume, Except.ok (ε := String) answer⟩

theorem executed_mem_of_store {f : ToolInvocation → GatewayProgram ToolInvocation}
    (h : (store invocation >>= f).Ends xs r) (hmem : executed execution outcome ∈ xs) :
    ∃ ys, (f invocation).Ends ys r ∧ executed execution outcome ∈ ys ∧ ys ⊆ xs := by
  obtain ⟨a, ys, rfl, hends⟩ := h
  rcases mem_cons.mp hmem with heq | hmem
  · cases heq
  · exact ⟨ys, hends, hmem, subset_cons_self _ _⟩

theorem not_executed_of_store (h : (store invocation).Ends xs r) :
    executed execution outcome ∉ xs := by
  obtain ⟨a, ys, rfl, rfl, -⟩ := h
  intro hmem
  rcases mem_cons.mp hmem with heq | hmem
  · cases heq
  · exact absurd hmem not_mem_nil

theorem execution_of_perform {now : String}
    (h : (gateway.perform judgement request now invocation).Ends xs r)
    (hmem : executed execution outcome ∈ xs) :
    gateway.execution judgement.tool request judgement.workspace = .ok execution := by
  obtain ⟨ys, hends, hmem, -⟩ := executed_mem_of_store h hmem
  cases hexecution : gateway.execution judgement.tool request judgement.workspace with
  | error e =>
    rw [hexecution] at hends
    exact absurd hmem (not_executed_of_store hends)
  | ok found =>
    rw [hexecution] at hends
    obtain ⟨answer, zs, rfl, hends⟩ := hends
    rcases mem_cons.mp hmem with heq | hmem
    · cases heq
      rfl
    · exact absurd hmem (not_executed_of_store hends)

theorem executed_mem_of_ask {contract : MissionContract} {query : GrantQuery} {consume : Bool}
    {answer : Except String (Option String)} {ys : List gatewayStore.Exchange}
    (hmem : executed execution outcome ∈
      (⟨.askGrant contract query consume, answer⟩ : gatewayStore.Exchange) :: ys) :
    executed execution outcome ∈ ys := by
  rcases mem_cons.mp hmem with heq | hrest
  · cases heq
  · exact hrest

theorem executed_mem_of_useAuthority {question : Option (MissionContract × GrantQuery)}
    {f : Option String → GatewayProgram ToolInvocation}
    (h : (useAuthority question >>= f).Ends xs r) (hmem : executed execution outcome ∈ xs) :
    ∃ refused ys, (f refused).Ends ys r ∧ executed execution outcome ∈ ys ∧
      (refused = none → ∀ contract query, question = some (contract, query) →
        asked contract query true (some "grant_consumed") ∈ xs) := by
  cases question with
  | none => exact ⟨none, xs, h, hmem, fun _ _ _ hnone => nomatch hnone⟩
  | some question =>
    obtain ⟨contract, query⟩ := question
    obtain ⟨answer, ys, rfl, hends⟩ := h
    have hrest := executed_mem_of_ask hmem
    match answer with
    | .error e =>
      obtain ⟨rfl, -⟩ := hends
      exact absurd hrest not_mem_nil
    | .ok reason =>
      refine ⟨_, ys, hends, hrest, fun hnone contract' query' heq => ?_⟩
      cases heq
      have hconsumed : reason = some "grant_consumed" := by
        by_contra hother
        simp [hother] at hnone
      subst hconsumed
      exact mem_cons_self ..

theorem executed_mem_of_askAuthority {question : Option (MissionContract × GrantQuery)}
    {f : Bool → GatewayProgram ToolInvocation}
    (h : (askAuthority question >>= f).Ends xs r) (hmem : executed execution outcome ∈ xs) :
    ∃ ready ys, (f ready).Ends ys r ∧ executed execution outcome ∈ ys ∧ ys ⊆ xs ∧
      (ready = true → ∃ contract query, question = some (contract, query) ∧
        asked contract query false (some "grant_effective") ∈ xs) := by
  cases question with
  | none => exact ⟨false, xs, h, hmem, fun _ h => h, fun hfalse => nomatch hfalse⟩
  | some question =>
    obtain ⟨contract, query⟩ := question
    obtain ⟨answer, ys, rfl, hends⟩ := h
    have hrest := executed_mem_of_ask hmem
    match answer with
    | .error e =>
      obtain ⟨rfl, -⟩ := hends
      exact absurd hrest not_mem_nil
    | .ok reason =>
      refine ⟨_, ys, hends, hrest, subset_cons_self _ _, fun hready => ?_⟩
      have heffective : reason = some "grant_effective" := by simpa using hready
      subst heffective
      exact ⟨contract, query, rfl, mem_cons_self ..⟩

theorem executed_of_proceed {policy : PolicyDecision} {now : String}
    (h : (gateway.proceed prepared judgement policy request now invocation).Ends xs r)
    (hmem : executed execution outcome ∈ xs) :
    gateway.execution judgement.tool request judgement.workspace = .ok execution ∧
      (authorityNeeded (toolFacets judgement policy request) = true →
        delegatesGit judgement.shell = false →
          ∀ contract query, prepared.question = some (contract, query) →
            asked contract query true (some "grant_consumed") ∈ xs) := by
  have hrest : ∃ invocation ys, ys ⊆ xs ∧ executed execution outcome ∈ ys ∧ (do
        let refused ← if authorityNeeded (toolFacets judgement policy request) &&
            !delegatesGit judgement.shell then useAuthority prepared.question
          else pure none
        match refused with
        | some reasonCode => store (blocked now reasonCode invocation)
        | none => gateway.perform judgement request now invocation).Ends ys r := by
    unfold proceed at h
    by_cases hauto : policy.decision = .autoApprove
    · rw [if_pos hauto] at h
      obtain ⟨ys, hends, hmem, hsub⟩ := executed_mem_of_store h hmem
      exact ⟨_, ys, hsub, hmem, hends⟩
    · rw [if_neg hauto] at h
      exact ⟨invocation, xs, fun _ h => h, hmem, h⟩
  obtain ⟨invocation, ys, hsub, hmem, hends⟩ := hrest
  by_cases hneeded : (authorityNeeded (toolFacets judgement policy request) &&
      !delegatesGit judgement.shell) = true
  · rw [if_pos hneeded] at hends
    obtain ⟨refused, zs, hends, hmem, hused⟩ := executed_mem_of_useAuthority hends hmem
    cases refused with
    | some reasonCode => exact absurd hmem (not_executed_of_store hends)
    | none =>
      exact ⟨execution_of_perform hends hmem, fun _ _ contract query hquestion =>
        hsub (hused rfl contract query hquestion)⟩
  · rw [if_neg hneeded] at hends
    refine ⟨execution_of_perform hends hmem, fun hauthority hdelegates => ?_⟩
    simp [hauthority, hdelegates] at hneeded

theorem executed_of_conclude {policy : PolicyDecision} {now : String}
    (h : (gateway.conclude prepared judgement policy request now invocation).Ends xs r)
    (hmem : executed execution outcome ∈ xs) :
    (canonicalToolDecision judgement policy request).permission = .allowed ∧
      gateway.execution judgement.tool request judgement.workspace = .ok execution ∧
      (authorityNeeded (toolFacets judgement policy request) = true →
        delegatesGit judgement.shell = false →
          ∀ contract query, prepared.question = some (contract, query) →
            asked contract query true (some "grant_consumed") ∈ xs) := by
  unfold conclude at h
  cases hpermission : (canonicalToolDecision judgement policy request).permission with
  | allowed =>
    simp only [hpermission] at h
    exact ⟨rfl, executed_of_proceed h hmem⟩
  | ask =>
    simp only [hpermission] at h
    split at h
    · exact absurd hmem (not_executed_of_store h)
    · exact absurd hmem (not_executed_of_store h)
  | denied | needsClarification | invalid | expired | stale =>
    simp only [hpermission] at h
    exact absurd hmem (not_executed_of_store h)

/-- What a call that executes something has passed. -/
structure Reached (gateway : ToolGateway Path) (found : GatewayFindings)
    (request : ToolRequest) (xs : List gatewayStore.Exchange) (execution : Execution)
    (prepared : Prepared) (authorityReady : Bool) (policy : PolicyDecision) : Prop where
  isPrepared : gateway.prepare found request = .ok prepared
  isEffective : authorityReady = true → ∃ contract query,
    prepared.question = some (contract, query) ∧
      asked contract query false (some "grant_effective") ∈ xs
  isDecided : gateway.kernel.evaluateToolInvocation
    (gateway.kernelCall found request prepared.judgement) = .ok policy
  isAllowed : (canonicalToolDecision { prepared.judgement with authorityReady } policy
    request).permission = .allowed
  isUsed : authorityNeeded (toolFacets { prepared.judgement with authorityReady } policy
    request) = true → delegatesGit prepared.judgement.shell = false →
      ∀ contract query, prepared.question = some (contract, query) →
        asked contract query true (some "grant_consumed") ∈ xs
  isExecution : gateway.execution prepared.judgement.tool request
    prepared.judgement.workspace = .ok execution

theorem reached_of_executed (h : (gateway.invoke found request).Ends xs r)
    (hmem : executed execution outcome ∈ xs) :
    ∃ prepared authorityReady policy,
      Reached gateway found request xs execution prepared authorityReady policy := by
  unfold invoke at h
  cases hprepared : gateway.prepare found request with
  | error e =>
    rw [hprepared] at h
    obtain ⟨rfl, -⟩ := h
    exact absurd hmem not_mem_nil
  | ok prepared =>
    rw [hprepared] at h
    obtain ⟨authorityReady, ys, hends, hmem, hsub, heffective⟩ :=
      executed_mem_of_askAuthority h hmem
    obtain ⟨zs, hends, hmem, hsub'⟩ := executed_mem_of_store hends hmem
    cases hpolicy : gateway.kernel.evaluateToolInvocation
        (gateway.kernelCall found request prepared.judgement) with
    | error e =>
      change (GatewayProgram.ofExcept (gateway.kernel.evaluateToolInvocation
        (gateway.kernelCall found request prepared.judgement)) >>= _).Ends zs r at hends
      rw [hpolicy] at hends
      obtain ⟨rfl, -⟩ := hends
      exact absurd hmem not_mem_nil
    | ok policy =>
      change (GatewayProgram.ofExcept (gateway.kernel.evaluateToolInvocation
        (gateway.kernelCall found request prepared.judgement)) >>= _).Ends zs r at hends
      rw [hpolicy] at hends
      obtain ⟨ws, hends, hmem, hsub''⟩ := executed_mem_of_store hends hmem
      obtain ⟨hallowed, hexecution, hused⟩ := executed_of_conclude hends hmem
      exact ⟨prepared, authorityReady, policy, hprepared, heffective, hpolicy, hallowed,
        fun hneeded hdelegates contract query hquestion =>
          hsub (hsub' (hsub'' (hused hneeded hdelegates contract query hquestion))),
        hexecution⟩

end ToolGateway

end AIpinho.Agents
