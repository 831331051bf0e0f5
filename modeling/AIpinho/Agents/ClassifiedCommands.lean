import AIpinho.Agents.ToolPermissions
import AIpinho.Tools.CommandAgreement

/-!
# Commands of the gateway

The gateway judges the arguments of a call as they are given, and then takes quotes away and
puts the path of a relative program in.
-/

namespace AIpinho.Agents

open Lib
open AIpinho.Tools

namespace ToolGateway

variable {Path : Type} {gateway : ToolGateway Path} {found : GatewayFindings}
  {request : ToolRequest} {xs : List gatewayStore.Exchange}
  {r : Except String ToolInvocation} {execution : Execution} {outcome : ToolOutcome}
  {tool : ToolDefinition} {argv : List String}

def judgedCommand (gateway : ToolGateway Path) (request : ToolRequest) : GivenCommand :=
  ⟨gateway.judgedArgv request, gateway.commandText request⟩

/-- The command that is started has the category and the Git class that were judged. -/
def RunsAsJudged (gateway : ToolGateway Path) (found : GatewayFindings) (request : ToolRequest)
    (argv : List String) : Prop :=
  ∃ prepared judged started, gateway.prepare found request = .ok prepared ∧
    prepared.judgement.shell = some judged ∧ gateway.classifyArgv argv = .ok started ∧
      started.category = judged.category ∧
      started.gitClassification = judged.gitClassification

theorem runsAsJudged_iff (h : (gateway.invoke found request).Ends xs r)
    (hmem : executed execution outcome ∈ xs) (htool : found.tool = some tool) :
    RunsAsJudged gateway found request argv ↔ tool.canRunShell = true ∧
      (gateway.judgedCommand request).Agrees gateway.commands gateway.shellPolicy
        (GitCommands.classify gateway.commands) (.ofArgv argv) := by
  obtain ⟨prepared, authorityReady, policy, hreached⟩ := reached_of_executed h hmem
  obtain ⟨-, tool', taskRun, workspace, shell, htool', -, -, hshell, hprepared⟩ :=
    prepare_ok_iff.mp hreached.isPrepared
  have hsame : tool' = tool := Option.some.inj (htool'.symm.trans htool)
  subst hsame
  have hjudged : prepared.judgement.shell = shell := by
    rw [hprepared]
    rfl
  unfold shellClassification at hshell
  cases hruns : tool'.canRunShell with
  | false =>
    rw [hruns, if_pos (by simp)] at hshell
    cases hshell
    constructor
    · rintro ⟨prepared', judged, started, hprepared', hsome, -⟩
      cases hreached.isPrepared.symm.trans hprepared'
      cases hjudged.symm.trans hsome
    · rintro ⟨hfalse, -⟩
      cases hfalse
  | true =>
    rw [hruns, if_neg (by simp)] at hshell
    cases hclassified : ShellCommands.classify gateway.commands gateway.shellPolicy
        (GitCommands.classify gateway.commands) (gateway.judgedArgv request)
        (gateway.commandText request) with
    | error e =>
      rw [hclassified] at hshell
      cases hshell
    | ok judged =>
      rw [hclassified] at hshell
      cases hshell
      have hcommand : ShellCommands.classify gateway.commands gateway.shellPolicy
          (GitCommands.classify gateway.commands) (gateway.judgedCommand request).argv
          (gateway.judgedCommand request).text = .ok judged := hclassified
      rw [GivenCommand.agrees_iff_exists hcommand]
      constructor
      · rintro ⟨prepared', judged', started, hprepared', hsome, hstarted, hclass⟩
        cases hreached.isPrepared.symm.trans hprepared'
        cases hjudged.symm.trans hsome
        exact ⟨rfl, started, hstarted, hclass⟩
      · rintro ⟨-, started, hstarted, hclass⟩
        exact ⟨prepared, judged, started, hreached.isPrepared, hjudged, hstarted, hclass⟩

theorem shellArgv_of_executed (h : (gateway.invoke found request).Ends xs r)
    (hmem : executed execution outcome ∈ xs) (hargv : execution.argv = some argv) :
    ∃ prepared, gateway.prepare found request = .ok prepared ∧
      gateway.shellArgv request prepared.judgement.workspace = .ok argv := by
  obtain ⟨prepared, authorityReady, policy, hreached⟩ := reached_of_executed h hmem
  refine ⟨prepared, hreached.isPrepared, ?_⟩
  exact ((argv_of_execution hreached.isExecution).mp hargv).2

open GovernedToolExecution (commandRequest findApproval approvedCommand projectExecution
  succeedingRunner judgedCommand ran runs exists_ran shellPolicyFile)

/-- What a governed execution runs, and what the gateway starts, is in the class by which it was
judged exactly if the policy and the classifier do not tell the two apart; none does exactly if
the command that was judged is the one that the parser of the adapter gives, or a list of texts.
-/
theorem classified_as_run_iff {service : GovernedToolExecution}
    {governedFound refound : GovernedFindings} {governedRequest : GovernedRequest}
    {ys : List governedStore.Exchange} {q : Except String GovernedResult} {ranArgv : List String}
    {cwd : String} {timeout : ℤ} {answer : CommandOutcome}
    (hexecute : (service.execute governedFound refound governedRequest).Ends ys q)
    (hran : ran ranArgv cwd timeout answer ∈ ys)
    (hinvoke : (gateway.invoke found request).Ends xs r)
    (hexecuted : executed execution outcome ∈ xs) (hargv : execution.argv = some argv)
    (htool : found.tool = some tool) :
    (service.commandArgv governedRequest = .ok ranArgv ∧
      (∀ texts : List String, governedRequest.inputAt "argv" = .list (texts.map Json.str) →
        governedRequest.inputAt "command" = .null → service.commands.strip "" = "" →
          ranArgv = texts) ∧
      (service.RunsAsJudged governedFound refound governedRequest ys ranArgv ↔
        (service.judgedCommand governedRequest).Agrees service.commands service.policy.shell
          service.gitClassifier (.ofArgv ranArgv)) ∧
      ((∀ policy gitClassifier, (service.judgedCommand governedRequest).Agrees service.commands
          policy gitClassifier (.ofArgv ranArgv)) ↔
        (service.judgedCommand governedRequest).IsSame service.commands (.ofArgv ranArgv))) ∧
    ((∃ prepared, gateway.prepare found request = .ok prepared ∧
        gateway.shellArgv request prepared.judgement.workspace = .ok argv) ∧
      (RunsAsJudged gateway found request argv ↔ tool.canRunShell = true ∧
        (gateway.judgedCommand request).Agrees gateway.commands gateway.shellPolicy
          (GitCommands.classify gateway.commands) (.ofArgv argv)) ∧
      ((∀ policy gitClassifier, (gateway.judgedCommand request).Agrees gateway.commands policy
          gitClassifier (.ofArgv argv)) ↔
        (gateway.judgedCommand request).IsSame gateway.commands (.ofArgv argv))) := by
  have hparsed := (GovernedToolExecution.commandArgv_of_ran hexecute hran).1
  refine ⟨⟨hparsed, fun texts htexts hcommand hstrip => ?_, ?_, ?_⟩, ?_, ?_, ?_⟩
  · exact GovernedToolExecution.commandArgv_of_texts htexts hcommand hstrip hparsed
  · exact GovernedToolExecution.runsAsJudged_iff hexecute hran
  · exact GivenCommand.agrees_iff_isSame
  · exact shellArgv_of_executed hinvoke hexecuted hargv
  · exact runsAsJudged_iff hinvoke hexecuted htool
  · exact GivenCommand.agrees_iff_isSame

/-- The tool `run_shell` of the registry. -/
def runShellTool : ToolDefinition where
  toolName := "run_shell"
  capability := "shell"
  riskLevel := "high"
  requiresWorkspace := true
  requiresApproval := true
  canModifyFilesystem := false
  canRunShell := true
  enabled := true
  agentAllowlist := []
  agentDenylist := []

def shellGateway : ToolGateway String := { projectGateway with shellPolicy := shellPolicyFile }

def shellFound : GatewayFindings := { createFileCall none with tool := some runShellTool }

def statusCall : ToolRequest where
  operationType := none
  workspaceId := some "project"
  pathRef := none
  input := [("argv", .list [.str "git", .str "status"])]
  approvalId := some "approval"
  autoApprovalId := none
  metadata := []

def statusExchanges : List gatewayStore.Exchange :=
  (shellGateway.invoke shellFound statusCall).exchanges succeedingTools ()

def approvedExecution (request : GovernedRequest) : GovernedProgram GovernedResult :=
  projectExecution.execute (findApproval (approvedCommand request))
    (findApproval (approvedCommand request)) request

def approvedExchanges (request : GovernedRequest) : List governedStore.Exchange :=
  (approvedExecution request).exchanges succeedingRunner ()

theorem approvedExecution_ends (request : GovernedRequest) :
    (projectExecution.execute (findApproval (approvedCommand request))
      (findApproval (approvedCommand request)) request).Ends (approvedExchanges request)
        ((approvedExecution request).run succeedingRunner ()).1 := by
  have heq : projectExecution.execute (findApproval (approvedCommand request))
      (findApproval (approvedCommand request)) request = approvedExecution request := by
    unfold approvedExecution
    rfl
  rw [heq]
  exact Program.ends_exchanges succeedingRunner (approvedExecution request) ()

def statusRequest : GovernedRequest := commandRequest ["git", "status"] none

/-- A command that both services run as it was judged. -/
theorem classified_as_run_iff_status :
    projectExecution.RunsAsJudged (findApproval (approvedCommand statusRequest))
        (findApproval (approvedCommand statusRequest)) statusRequest
        (approvedExchanges statusRequest) ["git", "status"] ∧
      RunsAsJudged shellGateway shellFound statusCall ["git", "status"] := by
  have hends := approvedExecution_ends statusRequest
  have hran : (approvedExchanges statusRequest).any (runs ["git", "status"]) = true := by
    decide +kernel
  obtain ⟨cwd, timeout, answer, hmem⟩ := exists_ran hran
  have hinvoke := Program.ends_exchanges succeedingTools
    (shellGateway.invoke shellFound statusCall) ()
  have hexecutes : statusExchanges.any (executes (.process ["git", "status"])) = true := by
    decide +kernel
  obtain ⟨outcome, hexecuted⟩ := exists_executed hexecutes
  have hiff := classified_as_run_iff hends hmem hinvoke hexecuted rfl rfl
  have hjudged : projectExecution.judgedCommand statusRequest = .ofArgv ["git", "status"] := rfl
  have hjudged' : judgedCommand shellGateway statusCall = .ofArgv ["git", "status"] := rfl
  refine ⟨hiff.1.2.2.1.mpr ?_, hiff.2.2.1.mpr ⟨rfl, ?_⟩⟩
  · rw [hjudged]
    rfl
  · rw [hjudged']
    rfl

def splitRequest : GovernedRequest :=
  { commandRequest [] none with
    input := [("argv", .list [.str "git", .str "status", .str ""]),
      ("command", .str "git push origin main"), ("workspace", .str "/project")] }

/-- The list is judged, and the command is run: a push that was approved as a status. -/
theorem push_judged_as_status :
    ¬((∀ (service : GovernedToolExecution) (found refound : GovernedFindings)
        (request : GovernedRequest) (ys : List governedStore.Exchange)
        (q : Except String GovernedResult) (argv : List String) (cwd : String) (timeout : ℤ)
        (answer : CommandOutcome), (service.execute found refound request).Ends ys q →
          ran argv cwd timeout answer ∈ ys → service.RunsAsJudged found refound request ys argv) ∧
      ∀ (gateway : ToolGateway String) (found : GatewayFindings) (request : ToolRequest)
        (xs : List gatewayStore.Exchange) (r : Except String ToolInvocation)
        (execution : Execution) (outcome : ToolOutcome) (argv : List String),
        (gateway.invoke found request).Ends xs r → executed execution outcome ∈ xs →
          execution.argv = some argv → RunsAsJudged gateway found request argv) := by
  rintro ⟨hgoverned, -⟩
  have hends := approvedExecution_ends splitRequest
  have hran : (approvedExchanges splitRequest).any (runs ["git", "push", "origin", "main"]) =
      true := by
    decide +kernel
  obtain ⟨cwd, timeout, answer, hmem⟩ := exists_ran hran
  have hruns := hgoverned _ _ _ _ _ _ _ _ _ _ hends hmem
  have hdecision : (projectExecution.decision (findApproval (approvedCommand splitRequest))
      splitRequest none).toOption.any (fun decision =>
        (decision.assessment.bind (·.shell)).any (·.category = "git_read_shell")) = true := by
    decide +kernel
  have hpushed : (projectExecution.classifyArgv ["git", "push", "origin", "main"]).toOption.any
      (·.category = "git_push_shell") = true := by decide +kernel
  cases hfirst : projectExecution.decision (findApproval (approvedCommand splitRequest))
      splitRequest none with
  | error e => simp [hfirst, Except.toOption] at hdecision
  | ok decision =>
    obtain ⟨judged, started, hjudged, hstarted, hcategory, -⟩ := hruns decision (.inl hfirst)
    have hread : judged.category = "git_read_shell" := by
      simpa [hfirst, Except.toOption, hjudged] using hdecision
    have hpush : started.category = "git_push_shell" := by
      simpa [hstarted, Except.toOption] using hpushed
    rw [hread, hpush] at hcategory
    exact absurd hcategory (by decide)

end ToolGateway

end AIpinho.Agents
