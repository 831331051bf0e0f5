import AIpinho.Policy.Kernel

/-!
# The policy of delegations

`AgentDelegationPolicyService.evaluate` decides whether an agent may delegate to another: the
bounds of the tree, the route, its modes and operations, the capabilities that are asked for,
the workspace and the risk. A capability that nobody grants may be deferred.
-/

namespace AIpinho.Delegations

open Lib
open AIpinho.Policy (CapabilityRegistryService sortedSet)
open AIpinho.Runtime (isSpace)

/-- `AgentProfile`, as far as a delegation depends on it. -/
structure AgentProfile where
  enabled : Bool
  capabilities : List String

/-- A route of `delegation_policy.yaml`, with its defaults. -/
structure DelegationRoute where
  parentAgentId : String
  targetAgentId : String
  enabled : Bool := false
  executionModes : Option (List String) := none
  operations : List String := []
  capabilities : List String := []
  workspacePolicy : String := "unknown"
  /-- Whether delegations are approved at once. -/
  autoapprove : Bool := true

def defaultStartCapabilities : List String :=
  ["read_workspace", "scan_workspace", "search_workspace", "report_generate", "validation"]

def defaultFutureCapabilities : List String :=
  ["workspace_write", "write_workspace", "create_file", "modify_file", "create_directory",
    "shell", "run_approved_shell", "run_shell_build", "run_shell_test", "build", "test",
    "run_tests", "artifact_create", "create_artifact", "report_generate", "patch_preview",
    "patch_apply"]

/-- The defaults of `delegation_policy.yaml`. -/
structure DelegationDefaults where
  /-- How deep a tree of delegations may be. -/
  maxDepth : ℤ := 3
  /-- How many delegations a run may have. -/
  maxChildRunsPerParent : ℤ := 10
  /-- The timeout of a delegation that asks for none. -/
  defaultTimeoutSeconds : ℤ := 900
  maxTimeoutSeconds : ℤ := 1800
  enableCycleDetection : Bool := true
  /-- The modes of the routes without their own. -/
  executionModes : List String := []
  /-- Whether capabilities may be deferred. -/
  negotiationEnabled : Bool := true
  startCapabilities : List String := defaultStartCapabilities
  futureCapabilities : List String := defaultFutureCapabilities

/-- `delegation_policy.yaml`. -/
structure DelegationPolicyConfig where
  defaults : DelegationDefaults := {}
  routes : List DelegationRoute := []

structure AgentDelegationPolicyService where
  config : DelegationPolicyConfig
  capabilityRegistry : Option CapabilityRegistryService

inductive DelegationStatus
  | created
  | policyChecking
  | accepted
  | approvalRequired
  | rejected
  | running
  | completed
  | completedWithWarnings
  | blocked
  | failed
  | cancelled
  | timedOut
  deriving DecidableEq

/-- `DelegationRequest`, without what is only passed on. The identifiers of delegations and
of runs count them. -/
structure DelegationRequest where
  delegationId : ℕ
  parentAgentId : String
  targetAgentId : String
  parentRunId : ℕ
  childRunId : Option ℕ
  requestedOperation : String
  operationType : String
  workspaceId : Option String
  capabilitiesRequested : List String
  riskLevel : String
  executionMode : String
  timeoutSeconds : ℤ
  createdAt : ℤ
  status : DelegationStatus

inductive DelegationDecision
  | allow
  | deny
  | requireApproval
  | autoApprove
  deriving DecidableEq

/-- What `_phase_negotiation` returns. -/
structure PhaseNegotiation where
  enabled : Bool
  canStartInitialPhase : Bool
  initialPhaseCapabilities : List String
  futurePhaseMissingCapabilities : List String
  blockingMissingCapabilities : List String

/-- The metadata of a decision, without the aliases that were used. -/
structure CapabilityMetadata where
  requestedCapabilities : List String
  requestedCanonical : List String
  targetCanonical : List String
  routeCanonical : List String
  workspacePolicyDecision : String
  missingCapabilities : List String
  /-- Whether it can be deferred, if something is missing. -/
  phaseNegotiation : Option PhaseNegotiation
  deferredCapabilities : List String

variable (service : AgentDelegationPolicyService)

/-- `DelegationPolicyDecision`, without what it repeats of the request. -/
structure DelegationPolicyDecision where
  executionMode : String
  decision : DelegationDecision
  reasonCode : String
  humanReason : String
  /-- The capabilities, if the decision got that far. -/
  metadata : Option CapabilityMetadata

/-- `_canonical_capabilities`, as a list without duplicates. -/
def AgentDelegationPolicyService.canonicalCapabilities (capabilities : List String) : List String :=
  match service.capabilityRegistry with
  | none => sortedSet (capabilities.filter (· ≠ ""))
  | some registry =>
    sortedSet ((capabilities.filter fun item => strip isSpace item ≠ "").map
      registry.canonicalize)

def AgentDelegationPolicyService.missing (request : DelegationRequest) (route : DelegationRoute)
    (target : AgentProfile) : List String :=
  let allowed := service.canonicalCapabilities route.capabilities
  let declared := service.canonicalCapabilities target.capabilities
  (service.canonicalCapabilities request.capabilitiesRequested).filter fun item =>
    !allowed.contains item && !declared.contains item

def AgentDelegationPolicyService.phaseNegotiation (requested missing : List String) :
    PhaseNegotiation :=
  let defaults := service.config.defaults
  let start := service.canonicalCapabilities defaults.startCapabilities
  let future := service.canonicalCapabilities defaults.futureCapabilities
  let present := requested.filter start.contains
  let blocking := missing.filter fun item => !future.contains item
  { enabled := defaults.negotiationEnabled
    canStartInitialPhase := defaults.negotiationEnabled && !present.isEmpty && blocking.isEmpty
    initialPhaseCapabilities := present
    futurePhaseMissingCapabilities := missing.filter future.contains
    blockingMissingCapabilities := blocking }

/-- `_capability_metadata`, with what is missing and deferred. -/
def AgentDelegationPolicyService.capabilityMetadata (request : DelegationRequest)
    (route : DelegationRoute) (target : AgentProfile) : CapabilityMetadata :=
  let requested := service.canonicalCapabilities request.capabilitiesRequested
  let missing := service.missing request route target
  let negotiation :=
    if missing.isEmpty then none else some (service.phaseNegotiation requested missing)
  { requestedCapabilities := request.capabilitiesRequested
    requestedCanonical := requested
    targetCanonical := service.canonicalCapabilities target.capabilities
    routeCanonical := service.canonicalCapabilities route.capabilities
    workspacePolicyDecision := route.workspacePolicy
    missingCapabilities := missing
    phaseNegotiation := negotiation
    deferredCapabilities :=
      if negotiation.any (·.canStartInitialPhase) then missing else [] }

/-- Why a delegation is denied. -/
structure Denial where
  reasonCode : String
  humanReason : String

def DelegationPolicyConfig.route (config : DelegationPolicyConfig) (parent target : String) :
    Option DelegationRoute :=
  config.routes.find? fun route =>
    route.parentAgentId = parent && route.targetAgentId = target

/-- What `evaluate` knows of the tree. -/
structure TreeFacts where
  /-- Whether the target is among the agents of the lineage. -/
  cycleDetected : Bool
  /-- How many runs the lineage of the parent has. -/
  depth : ℕ
  /-- How many delegations the parent had before. -/
  childCount : ℕ

/-- The checks of `evaluate` before it looks at the capabilities: the target and the route. -/
def AgentDelegationPolicyService.firstChecks (request : DelegationRequest)
    (parentProfile targetProfile : Option AgentProfile) (tree : TreeFacts) :
    Except Denial (AgentProfile × DelegationRoute) := do
  let defaults := service.config.defaults
  demand (parentProfile.isSome = true)
    ⟨"parent_agent_not_allowed", "Agente origem nao encontrado ou nao autorizado."⟩
  let target ← demandSome targetProfile
    ⟨"target_agent_not_found", "Agente destino nao encontrado."⟩
  demand (target.enabled = true) ⟨"target_agent_disabled", "Agente destino esta desabilitado."⟩
  demand (¬(tree.cycleDetected = true ∧ defaults.enableCycleDetection = true))
    ⟨"delegation_cycle_detected", "Delegacao circular detectada."⟩
  demand ((tree.depth : ℤ) < defaults.maxDepth)
    ⟨"delegation_depth_exceeded", "Profundidade maxima de delegacao excedida."⟩
  demand ((tree.childCount : ℤ) < defaults.maxChildRunsPerParent)
    ⟨"delegation_depth_exceeded", "Limite de child runs por parent excedido."⟩
  let route ← demandSome (service.config.route request.parentAgentId request.targetAgentId)
    ⟨"parent_agent_not_allowed", "Esta rota de delegacao nao esta habilitada pela policy."⟩
  demand (route.enabled = true)
    ⟨"parent_agent_not_allowed", "Esta rota de delegacao nao esta habilitada pela policy."⟩
  let modes := route.executionModes.getD defaults.executionModes
  demand (modes = [] ∨ request.executionMode ∈ modes)
    ⟨"delegation_policy_denied", "Modo de execucao nao permitido para esta delegacao."⟩
  demand (route.operations = [] ∨ request.requestedOperation ∈ route.operations ∨
      request.operationType ∈ route.operations)
    ⟨"target_agent_missing_capability", "Agente destino nao declara esta operacao delegada."⟩
  .ok (target, route)

/-- `RISK_ORDER`; a risk that it does not know is critical. -/
def riskOrder (riskLevel : String) : ℕ :=
  if riskLevel = "low" ∨ riskLevel = "" then 1
  else if riskLevel = "medium" then 2
  else if riskLevel = "high" then 3
  else 4

/-- What `evaluate` decides once the capabilities are known. -/
def decideRisk (request : DelegationRequest) (route : DelegationRoute) :
    DelegationDecision × String × String :=
  if request.workspaceId.getD "" ≠ "" ∧ route.workspacePolicy = "deny" then
    (.deny, "delegation_workspace_denied", "Workspace nao permitido para esta rota de delegacao.")
  else if 4 ≤ riskOrder request.riskLevel then
    (.deny, "delegation_risk_too_high", "Risco critico bloqueado pela policy.")
  else if 3 ≤ riskOrder request.riskLevel then
    (.requireApproval, "approval_required", "Delegacao de alto risco exige aprovacao humana.")
  else if route.autoapprove = true ∧
      (request.executionMode = "governed_autorun" ∨ request.executionMode = "power_user") then
    (.autoApprove, "delegation_auto_approved", "Delegacao segura autoaprovada pela policy.")
  else (.allow, "delegation_allowed", "Delegacao permitida pela policy.")

/-- `evaluate`. -/
def AgentDelegationPolicyService.evaluate (request : DelegationRequest)
    (parentProfile targetProfile : Option AgentProfile) (tree : TreeFacts) :
    DelegationPolicyDecision :=
  match service.firstChecks request parentProfile targetProfile tree with
  | .error denial =>
    ⟨request.executionMode, .deny, denial.reasonCode, denial.humanReason, none⟩
  | .ok (target, route) =>
    let metadata := service.capabilityMetadata request route target
    if metadata.phaseNegotiation.any (!·.canStartInitialPhase) then
      ⟨request.executionMode, .deny, "target_agent_missing_capability",
        "Agente destino nao possui capability solicitada.", some metadata⟩
    else
      let (decision, reasonCode, humanReason) := decideRisk request route
      ⟨request.executionMode, decision, reasonCode, humanReason, some metadata⟩

def AgentDelegationPolicyService.timeoutSeconds (requested : Option ℤ) : ℤ :=
  let defaults := service.config.defaults
  max 1 (min (requested.getD defaults.defaultTimeoutSeconds) defaults.maxTimeoutSeconds)

section

variable {service : AgentDelegationPolicyService} {request : DelegationRequest}
  {parentProfile targetProfile : Option AgentProfile} {tree : TreeFacts}

/-- What the first checks have found when they let a delegation through. -/
structure Admitted (service : AgentDelegationPolicyService) (request : DelegationRequest)
    (targetProfile : Option AgentProfile) (tree : TreeFacts) (target : AgentProfile)
    (route : DelegationRoute) : Prop where
  target_eq : targetProfile = some target
  target_enabled : target.enabled = true
  /-- There is no cycle, or nobody looks for one. -/
  acyclic : ¬(tree.cycleDetected = true ∧ service.config.defaults.enableCycleDetection = true)
  depth_lt : (tree.depth : ℤ) < service.config.defaults.maxDepth
  childCount_lt : (tree.childCount : ℤ) < service.config.defaults.maxChildRunsPerParent
  route_eq : service.config.route request.parentAgentId request.targetAgentId = some route
  route_enabled : route.enabled = true

theorem admitted_of_firstChecks {target : AgentProfile} {route : DelegationRoute}
    (h : service.firstChecks request parentProfile targetProfile tree = .ok (target, route)) :
    Admitted service request targetProfile tree target route := by
  unfold AgentDelegationPolicyService.firstChecks at h
  simp only [demand_bind_ok_iff, demandSome_bind_ok_iff] at h
  obtain ⟨-, target', htarget, henabled, hcycle, hdepth, hcount, route', hroute, hopen, -, -, h⟩ :=
    h
  cases h
  exact ⟨htarget, henabled, hcycle, hdepth, hcount, hroute, hopen⟩

theorem admitted_of_not_denied
    (h : (service.evaluate request parentProfile targetProfile tree).decision ≠ .deny) :
    ∃ target route, Admitted service request targetProfile tree target route ∧
      (service.evaluate request parentProfile targetProfile tree).metadata =
        some (service.capabilityMetadata request route target) ∧
      (service.capabilityMetadata request route target).deferredCapabilities =
        service.missing request route target := by
  unfold AgentDelegationPolicyService.evaluate at h ⊢
  cases hchecks : service.firstChecks request parentProfile targetProfile tree with
  | error denial =>
    rw [hchecks] at h
    exact absurd rfl h
  | ok found =>
    obtain ⟨target, route⟩ := found
    rw [hchecks] at h
    dsimp only at h ⊢
    refine ⟨target, route, admitted_of_firstChecks hchecks, ?_⟩
    by_cases hblocked : ((service.capabilityMetadata request route target).phaseNegotiation.any
          (!·.canStartInitialPhase)) = true
    · rw [if_pos hblocked] at h
      exact absurd rfl h
    · rw [if_neg hblocked]
      refine ⟨rfl, ?_⟩
      unfold AgentDelegationPolicyService.capabilityMetadata at hblocked ⊢
      dsimp only at hblocked ⊢
      by_cases hmissing : (service.missing request route target).isEmpty
      · rw [if_pos hmissing]
        simpa using hmissing
      · rw [if_neg hmissing] at hblocked ⊢
        have hstart : (service.phaseNegotiation
            (service.canonicalCapabilities request.capabilitiesRequested)
            (service.missing request route target)).canStartInitialPhase = true := by
          simpa using hblocked
        simp [hstart]

theorem evaluate_executionMode :
    (service.evaluate request parentProfile targetProfile tree).executionMode =
      request.executionMode := by
  unfold AgentDelegationPolicyService.evaluate
  split
  · rfl
  · dsimp only
    split <;> rfl

end

end AIpinho.Delegations
