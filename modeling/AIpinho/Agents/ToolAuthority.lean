import AIpinho.Agents.ToolInvocations
import AIpinho.Approvals.Service

/-!
# Who answers for a call

Where the kernel or the matrix demands a human, a call is executed only on a grant of the
mission, the approval of the running task run, or, outside of a task run, an approval that the
caller names and nobody looks up.
-/

namespace AIpinho.Agents

open List Lib
open AIpinho.Approvals (ApprovalRequest)
open AIpinho.Governance (PolicyFacet)
open AIpinho.Tools

namespace ToolGateway

variable {Path : Type} (gateway : ToolGateway Path) (found : GatewayFindings)
  (request : ToolRequest) (xs : List gatewayStore.Exchange)

/-- The decision on the call asks for a human. -/
def Demands : Prop :=
  ∃ prepared policy, gateway.prepare found request = .ok prepared ∧
    gateway.kernel.evaluateToolInvocation
      (gateway.kernelCall found request prepared.judgement) = .ok policy ∧
    prepared.judgement.needsHuman policy = true

/-- The exchanges hold an execution. -/
def Executes : Prop := ∃ execution outcome, executed execution outcome ∈ xs

def IsCovered (approvals : String → Option ApprovalRequest) : Prop :=
  ∃ approvalId approval tool items,
    (request.approvalId = some approvalId ∨ request.autoApprovalId = some approvalId) ∧
    approvals approvalId = some approval ∧ approval.status = .approved ∧
    found.tool = some tool ∧
    approval.members.lookup "actions_requested" = some (Json.list items) ∧
    Json.str (operationName tool request) ∈ items

def UsesGrant : Prop :=
  ∃ contract query, asked contract query true (some "grant_consumed") ∈ xs

/-- A grant of the mission stands for a human: it is in effect for the capability, and it was
used, unless the command is one of Git that is left to the governed execution. -/
def StandsByGrant : Prop :=
  ∃ prepared contract query, gateway.prepare found request = .ok prepared ∧
    prepared.question = some (contract, query) ∧
    query.action = prepared.judgement.capability ∧
    asked contract query false (some "grant_effective") ∈ xs ∧
    (asked contract query true (some "grant_consumed") ∈ xs ∨
      delegatesGit prepared.judgement.shell = true)

/-- The approval named in the request is that of the running task run. -/
def StandsByTaskRun : Prop :=
  ∃ run approvalId, found.taskRun = some (some run) ∧ run.status = "running" ∧
    approvalId ≠ "" ∧ run.approvalId = some approvalId ∧ request.approvalId = some approvalId

/-- There is no task run, and the request names an approval. -/
def StandsByName : Prop :=
  found.taskRun = none ∧
    ((given request.approvalId).isSome = true ∨ (given request.autoApprovalId).isSome = true)

variable {gateway found request xs} {judgement : Judgement} {policy : PolicyDecision}

theorem given_eq_some {text : Option String} {value : String} :
    given text = some value ↔ text = some value ∧ value ≠ "" := by
  simp [given, Option.filter_eq_some_iff]

theorem mem_humanFacets {item : PolicyFacet} (hitem : item ∈ toolFacets judgement policy request)
    (hfacet : item.facet = "human_authority") : item ∈ humanFacets judgement policy request := by
  rw [toolFacets] at hitem
  simp only [mem_append, mem_singleton] at hitem
  rcases hitem with (((rfl | hworkspace) | hresource) | rfl) | hhuman
  · simp at hfacet
  · unfold workspaceFacets at hworkspace
    split at hworkspace
    · cases hworkspace
    · rw [mem_singleton] at hworkspace
      simp [hworkspace] at hfacet
  · unfold resourceFacets at hresource
    split at hresource
    · cases hresource
    · rw [mem_singleton] at hresource
      simp [hresource] at hfacet
  · simp at hfacet
  · exact hhuman

theorem exists_ask (request : ToolRequest) (hneeds : judgement.needsHuman policy = true) :
    ∃ item ∈ toolFacets judgement policy request, item.permission = .ask := by
  rw [Judgement.needsHuman, Bool.or_eq_true] at hneeds
  rcases hneeds with hresource | hpolicy
  · cases hdecision : judgement.resource with
    | none => simp [hdecision] at hresource
    | some decision =>
      have hstatus : decision.status = .approvalRequired := by simpa [hdecision] using hresource
      refine ⟨_, ?_, (?_ : (PolicyFacet.mk "resource_permission" (matrixPermission decision.status)
        "workspace_permission_matrix" decision.reasonCode (some judgement.capability)
        judgement.resourceId (decision.status = .approvalRequired)).permission = _)⟩
      · simp [toolFacets, resourceFacets, hdecision]
      · simp [hstatus, matrixPermission]
  · have hdecision : policy.decision = .requireApproval := by simpa using hpolicy
    refine ⟨_, ?_, (?_ : (PolicyFacet.mk "agent_tool_policy" (kernelPermission policy.decision)
      "agent_tool_policy_decision" policy.reasonCode (some judgement.capability)
      judgement.resourceId (policy.decision = .requireApproval)).permission = _)⟩
    · simp [toolFacets]
    · simp [hdecision, kernelPermission]

theorem ready_of_allowed (hneeds : judgement.needsHuman policy = true)
    (hallowed : (canonicalToolDecision judgement policy request).permission = .allowed) :
    judgement.authorityReady = true ∨ judgement.approvalReady request = true := by
  obtain ⟨item, hitem, hask⟩ := exists_ask request hneeds
  have hsatisfied := Governance.resolveFacets_allowed_iff.mp hallowed item hitem
  rw [hask] at hsatisfied
  obtain ⟨_, hhuman⟩ := hsatisfied.resolve_left (by decide)
  rw [PolicyFacet.isSatisfied, Bool.and_eq_true, Governance.humanAuthoritySatisfies,
    any_eq_true] at hhuman
  obtain ⟨consent, hconsent, hagrees⟩ := hhuman.2
  have hmem := mem_humanFacets hconsent (of_decide_eq_true hagrees).1
  by_contra hneither
  rw [not_or, Bool.not_eq_true, Bool.not_eq_true] at hneither
  simp [humanFacets, hneeds, hneither.1, hneither.2] at hmem

/-- A grant that counts has to be used. -/
theorem authorityNeeded_of_ready (hneeds : judgement.needsHuman policy = true)
    (hready : judgement.authorityReady = true) :
    authorityNeeded (toolFacets judgement policy request) = true := by
  obtain ⟨item, hitem, hask⟩ := exists_ask request hneeds
  have hconsent : humanFacet judgement "mission_authority_grant" "grant_effective" ∈
      toolFacets judgement policy request := by
    simp [toolFacets, humanFacets, hneeds, hready]
  rw [authorityNeeded, Bool.and_eq_true, any_eq_true, any_eq_true]
  exact ⟨⟨_, hconsent, by simp [humanFacet]⟩, ⟨item, hitem, by simp [hask]⟩⟩

def textPaths : PathServices String where
  resolve := some
  resolveIn root text := some (root ++ "/" ++ text)
  isAbsolute text := startsWith text "/"
  expandAbsolute text := if startsWith text "/" then some text else none
  isRelativeTo path root := startsWith path root
  text := id
  isUnder path root := startsWith path root
  normalLength := String.length

def systemGateway : ToolGateway String where
  kernel := { policyFile := [], profilesFile := [], str := fun value => value.text?.getD "" }
  resolver := { paths := textPaths, entries := [⟨"system", some "system_mutable", "/system"⟩] }
  matrix := { workspaces := [], roleOverrides := [], isUnder := startsWith,
              normalLength := String.length }
  missions :=
    { sha256 := fun _ => "", staging := ⟨false, "", "", "", [], ""⟩, tempDirectory := "/tmp",
      separator := "/", isAbsolute := fun text => startsWith text "/", resolve := id,
      normcase := id, strip := id, repr := fun _ => "" }
  commands := { casefold := id, lower := id, strip := id, baseName := id }
  shellPolicy := ⟨[], [], [], [], [], []⟩
  posix := true
  summary _ := ""
  isInt _ := true
  relativeExecutable _ _ := none

/-- The tool `create_file` of the registry. -/
def createFile : ToolDefinition where
  toolName := "create_file"
  capability := "workspace_write"
  riskLevel := "medium"
  requiresWorkspace := true
  requiresApproval := false
  canModifyFilesystem := true
  canRunShell := false
  enabled := true
  agentAllowlist := []
  agentDenylist := []

def createFileCall (taskRun : Option (Option GatewayTaskRun)) : GatewayFindings where
  runAgentId := some "agent"
  agentId := "agent"
  tool := some createFile
  taskRun
  autoApprovalId := "auto_approval"
  now := "now"

def namedApproval : ToolRequest where
  operationType := none
  workspaceId := some "system"
  pathRef := none
  input := [("relative_path", .str "file")]
  approvalId := some "made_up"
  autoApprovalId := none
  metadata := []

def succeedingTools : Handler gatewayStore Unit
  | .save _, _ => ((), ())
  | .load, _ => (none, ())
  | .askGrant .., _ => (.ok none, ())
  | .execute _, _ => (.succeeded [], ())

def namedApprovalExchanges : List gatewayStore.Exchange :=
  (systemGateway.invoke (createFileCall none) namedApproval).exchanges succeedingTools ()

def IsExecution : gatewayStore.Exchange → Bool
  | ⟨.execute _, _⟩ => true
  | _ => false

def IsUse : gatewayStore.Exchange → Bool
  | ⟨.askGrant _ _ true, _⟩ => true
  | _ => false

theorem executes_of_any (h : xs.any IsExecution = true) : Executes xs := by
  obtain ⟨⟨o, a⟩, hmem, hexecution⟩ := any_eq_true.mp h
  cases o with
  | execute execution => exact ⟨execution, a, hmem⟩
  | save | load | askGrant => cases hexecution

theorem not_usesGrant_of_any (h : xs.any IsUse = false) : ¬UsesGrant xs := by
  rintro ⟨contract, query, hmem⟩
  exact absurd (any_eq_false.mp h _ hmem) (by simp [asked, IsUse])

def kernelDemands (gateway : ToolGateway Path) (found : GatewayFindings)
    (request : ToolRequest) : Bool :=
  match gateway.prepare found request with
  | .ok prepared =>
    match gateway.kernel.evaluateToolInvocation
        (gateway.kernelCall found request prepared.judgement) with
    | .ok policy => prepared.judgement.needsHuman policy
    | .error _ => false
  | .error _ => false

theorem demands_of_kernelDemands (h : kernelDemands gateway found request = true) :
    gateway.Demands found request := by
  unfold kernelDemands at h
  split at h
  · rename_i prepared hprepared
    split at h
    · rename_i policy hpolicy
      exact ⟨prepared, policy, hprepared, hpolicy, h⟩
    · cases h
  · cases h

/-- Where a human is demanded, a tool is executed only if a grant of the mission stands for
the human, or the approval of the running task run, or, outside of a task run, what the caller
names. -/
theorem executes_with_authority {r : Except String ToolInvocation}
    (h : (gateway.invoke found request).Ends xs r) (hexecutes : Executes xs)
    (hdemands : gateway.Demands found request) :
    gateway.StandsByGrant found request xs ∨ StandsByTaskRun found request ∨
      StandsByName found request := by
  obtain ⟨execution, outcome, hmem⟩ := hexecutes
  obtain ⟨prepared, authorityReady, policy, hreached⟩ := reached_of_executed h hmem
  obtain ⟨prepared', policy', hprepared, hpolicy, hneeds⟩ := hdemands
  cases hreached.isPrepared.symm.trans hprepared
  cases hreached.isDecided.symm.trans hpolicy
  have hneeds' : Judgement.needsHuman { prepared.judgement with authorityReady } policy = true :=
    hneeds
  obtain ⟨-, tool, taskRun, workspace, shell, -, htask, -, -, rfl⟩ := prepare_ok_iff.mp hprepared
  have hfound := canonicalTaskRun_ok htask
  rcases ready_of_allowed hneeds' hreached.isAllowed with hready | happroval
  · left
    obtain ⟨contract, query, hquestion, heffective⟩ := hreached.isEffective hready
    refine ⟨_, contract, query, hprepared, hquestion, action_of_question hquestion, heffective, ?_⟩
    cases hdelegates : delegatesGit shell with
    | true => exact .inr hdelegates
    | false =>
      exact .inl (hreached.isUsed (authorityNeeded_of_ready hneeds' hready) hdelegates contract
        query hquestion)
  · right
    cases taskRun with
    | none =>
      right
      have hnamed : ((given request.approvalId).isSome ||
          (given request.autoApprovalId).isSome) = true := happroval
      exact ⟨hfound, by simpa using hnamed⟩
    | some run =>
      left
      have hrun : (run.status = "running" && (given run.approvalId).isSome &&
          request.approvalId = run.approvalId : Bool) = true := happroval
      simp only [Bool.and_eq_true, decide_eq_true_eq] at hrun
      obtain ⟨⟨hrunning, hgiven⟩, hsame⟩ := hrun
      obtain ⟨approvalId, happrovalId⟩ := Option.isSome_iff_exists.mp hgiven
      obtain ⟨hid, hnonempty⟩ := given_eq_some.mp happrovalId
      exact ⟨run, approvalId, hfound, hrunning, hnonempty, hid, hsame.trans hid⟩

/-- The call that names an approval. -/
theorem executes_with_authority_namedApproval :
    systemGateway.StandsByGrant (createFileCall none) namedApproval namedApprovalExchanges ∨
      StandsByTaskRun (createFileCall none) namedApproval ∨
      StandsByName (createFileCall none) namedApproval :=
  executes_with_authority (Program.ends_exchanges succeedingTools _ ())
    (executes_of_any (by decide +kernel)) (demands_of_kernelDemands (by decide +kernel))

/-- A file is written in a directory of the system because the caller names an approval, while
no approval is kept and no grant was used. -/
theorem named_approval_executes :
    ¬∀ (gateway : ToolGateway String) (approvals : String → Option ApprovalRequest)
      (found : GatewayFindings) (request : ToolRequest) (xs : List gatewayStore.Exchange)
      (r : Except String ToolInvocation), (gateway.invoke found request).Ends xs r →
        Executes xs → gateway.Demands found request →
          IsCovered found request approvals ∨ UsesGrant xs := by
  intro h
  rcases h systemGateway (fun _ => none) (createFileCall none) namedApproval _ _
    (Program.ends_exchanges succeedingTools _ ()) (executes_of_any (by decide +kernel))
    (demands_of_kernelDemands (by decide +kernel)) with hcovered | huses
  · obtain ⟨approvalId, approval, tool, items, -, hstored, -⟩ := hcovered
    cases hstored
  · exact not_usesGrant_of_any (by decide +kernel) huses

end ToolGateway

end AIpinho.Agents
