import AIpinho.Delegations.Policy
import AIpinho.Events.Redaction

/-!
# Delegations between agents

`AgentDelegationService` records a delegation, asks the policy about it, creates the run of the
child, and ends a delegation when it is cancelled or takes too long. Each call also rewrites the
run that delegates. Runs and delegations are never removed; their identifiers count them.
-/

namespace AIpinho.Delegations

open Lib
open AIpinho.Events (redactFields)

/-- `AgentRun`, as far as delegations depend on it. -/
structure AgentRun where
  agentId : String
  parentRunId : Option ℕ
  delegationId : Option ℕ
  status : String
  operationType : String
  workspaceId : Option String
  capabilitiesRequested : List String
  completedAt : Option String
  errorCode : Option String
  /-- `metadata_sanitized`. -/
  metadata : List (String × Json)

/-- `AgentRunUpdateRequest`, as far as delegations depend on it. -/
structure AgentRunUpdateRequest where
  status : Option String := none
  completedAt : Option String := none
  errorCode : Option String := none
  metadata : Option (List (String × Json)) := none

/-- The statuses for which `update_run` sets the time of completion. -/
def terminalRunStatuses : List String :=
  ["completed", "completed_with_warnings", "failed", "blocked", "validation_failed", "cancelled"]

def AgentRun.Terminal (run : AgentRun) : Prop := run.status ∈ terminalRunStatuses

/-- `update_run`: what is given replaces what was there, whatever the status was. -/
def AgentRun.update (run : AgentRun) (now : String) (request : AgentRunUpdateRequest) : AgentRun :=
  { run with
    status := request.status.getD run.status
    completedAt :=
      match request.completedAt with
      | some completedAt => some completedAt
      | none =>
        if request.status.any terminalRunStatuses.contains then some now else run.completedAt
    errorCode := request.errorCode.or run.errorCode
    metadata := (request.metadata.map redactFields).getD run.metadata }

/-- `DelegationCreateRequest`, without what is only passed on. -/
structure DelegationCreateRequest where
  targetAgentId : String
  requestedOperation : String
  operationType : Option String := none
  workspaceId : Option String := none
  capabilitiesRequested : List String := []
  riskLevel : String := "low"
  executionMode : Option String := none
  /-- How long the delegation may take. -/
  timeoutSeconds : Option ℤ := none

/-- A delegation and the decision about it. -/
structure DelegationRecord where
  request : DelegationRequest
  decision : DelegationPolicyDecision

/-- The runs and the delegations, by their identifiers. -/
structure DelegationSystem where
  runs : List AgentRun
  delegations : List DelegationRecord

/-- `AgentDelegationService`, and what it asks others for. -/
structure AgentDelegationService where
  policy : AgentDelegationPolicyService
  /-- `get_profile`. -/
  profile : String → Option AgentProfile
  /-- `str` of a value that is no text. -/
  valueText : Json → String
  isoTime : ℤ → String

/-- What the service raises. -/
inductive DelegationError
  | fileNotFound (id : ℕ)
  | parentRunAgentMismatch
  deriving DecidableEq

def runName (id : ℕ) : String := "agent_run_" ++ toString id

def delegationName (id : ℕ) : String := "delegation_" ++ toString id

/-- `a or b`, where `a` may be missing. -/
def orText (a : Option String) (b : String) : String := if a.getD "" ≠ "" then a.getD "" else b

variable (service : AgentDelegationService)

def AgentDelegationService.recordedMode (run : AgentRun) : String :=
  match run.metadata.lookup "execution_mode" with
  | some (.str mode) => if mode = "" then "governed_autorun" else mode
  | some value => if value.truthy then service.valueText value else "governed_autorun"
  | none => "governed_autorun"

/-- The delegation that `create_delegation` saves first. -/
def AgentDelegationService.newRequest (clock : ℤ) (delegationId : ℕ) (parentAgentId : String)
    (parentRunId : ℕ) (parentRun : AgentRun) (request : DelegationCreateRequest) :
    DelegationRequest where
  delegationId := delegationId
  parentAgentId := parentAgentId
  targetAgentId := request.targetAgentId
  parentRunId := parentRunId
  childRunId := none
  requestedOperation := request.requestedOperation
  operationType := orText request.operationType request.requestedOperation
  workspaceId :=
    if request.workspaceId.getD "" ≠ "" then request.workspaceId else parentRun.workspaceId
  capabilitiesRequested := request.capabilitiesRequested
  riskLevel := request.riskLevel
  executionMode := orText request.executionMode (service.recordedMode parentRun)
  timeoutSeconds := service.policy.timeoutSeconds request.timeoutSeconds
  createdAt := clock
  status := .created

def lineageFrom (runs : List AgentRun) : ℕ → ℕ → List AgentRun
  | 0, _ => []
  | fuel + 1, runId =>
    match runs[runId]? with
    | none => []
    | some run =>
      run :: match run.parentRunId with
        | none => []
        | some parentRunId => lineageFrom runs fuel parentRunId

variable (s : DelegationSystem)

/-- `_lineage`. A parent is older than its child, so there are not more steps than runs. -/
def DelegationSystem.lineage (runId : ℕ) : List AgentRun :=
  lineageFrom s.runs s.runs.length runId

/-- `list_requests` of a parent run. -/
def DelegationSystem.listRequests (parentRunId : ℕ) : List DelegationRequest :=
  (s.delegations.map (·.request)).filter (·.parentRunId = parentRunId)

def DelegationSystem.updateRun (now : String) (runId : ℕ) (request : AgentRunUpdateRequest) :
    DelegationSystem :=
  { s with runs := s.runs.modify runId fun run => run.update now request }

/-- `save_request`, for a delegation that is there. -/
def DelegationSystem.setStatus (delegationId : ℕ) (status : DelegationStatus) : DelegationSystem :=
  { s with
    delegations := s.delegations.modify delegationId fun record =>
      { record with request := { record.request with status := status } } }

def AgentDelegationService.decide (delegation : DelegationRequest) : DelegationPolicyDecision :=
  let lineage := s.lineage delegation.parentRunId
  let saved := (s.listRequests delegation.parentRunId).length + 1
  service.policy.evaluate delegation (service.profile delegation.parentAgentId)
    (service.profile delegation.targetAgentId)
    { cycleDetected := (lineage.map (·.agentId)).contains delegation.targetAgentId
      depth := lineage.length
      childCount := saved - 1 }

variable (delegation : DelegationRequest)

def childRun : AgentRun where
  agentId := delegation.targetAgentId
  parentRunId := some delegation.parentRunId
  delegationId := some delegation.delegationId
  status := "running"
  operationType := delegation.operationType
  workspaceId := delegation.workspaceId
  capabilitiesRequested := delegation.capabilitiesRequested
  completedAt := none
  errorCode := none
  metadata := redactFields
    [("delegation_id", .str (delegationName delegation.delegationId)),
      ("parent_agent_id", .str delegation.parentAgentId),
      ("parent_run_id", .str (runName delegation.parentRunId)),
      ("execution_mode", .str delegation.executionMode),
      ("requested_operation", .str delegation.requestedOperation)]

def DelegationSystem.record (status : DelegationStatus) (childRunId : Option ℕ)
    (decision : DelegationPolicyDecision) : DelegationSystem :=
  { s with
    delegations := s.delegations ++
      [⟨{ delegation with status := status, childRunId := childRunId }, decision⟩] }

def approvalUpdate (decision : DelegationPolicyDecision) : AgentRunUpdateRequest where
  status := some "pending_approval"
  metadata := some
    [("delegation_id", .str (delegationName delegation.delegationId)),
      ("reason_code", .str decision.reasonCode)]

def runningUpdate (childRunId : ℕ) : AgentRunUpdateRequest where
  status := some "delegation_running"
  metadata := some
    [("delegation_id", .str (delegationName delegation.delegationId)),
      ("child_run_id", .str (runName childRunId))]

/-- What `create_delegation` does once the policy has decided. -/
def AgentDelegationService.settle (clock : ℤ) (delegation : DelegationRequest)
    (decision : DelegationPolicyDecision) (s : DelegationSystem) : DelegationSystem :=
  let now := service.isoTime clock
  match decision.decision with
  | .deny => s.record delegation .blocked none decision
  | .requireApproval =>
    (s.record delegation .approvalRequired none decision).updateRun now delegation.parentRunId
      (approvalUpdate delegation decision)
  | .allow | .autoApprove =>
    let childRunId := s.runs.length
    let s := { s with runs := s.runs ++ [childRun delegation] }
    (s.record delegation .running (some childRunId) decision).updateRun now delegation.parentRunId
      (runningUpdate delegation childRunId)

def AgentDelegationService.createDelegation (clock : ℤ) (parentAgentId : String) (parentRunId : ℕ)
    (request : DelegationCreateRequest) (s : DelegationSystem) :
    Except DelegationError DelegationPolicyDecision × DelegationSystem :=
  match s.runs[parentRunId]? with
  | none => (.error (.fileNotFound parentRunId), s)
  | some parentRun =>
    if parentRun.agentId ≠ parentAgentId then (.error .parentRunAgentMismatch, s)
    else
      let delegation := service.newRequest clock s.delegations.length parentAgentId parentRunId
        parentRun request
      let decision := service.decide s delegation
      (.ok decision, service.settle clock delegation decision s)

/-- `TERMINAL_STATUSES` of delegations. -/
def DelegationStatus.isTerminal : DelegationStatus → Bool
  | .completed | .completedWithWarnings | .blocked | .failed | .cancelled | .timedOut => true
  | .created | .policyChecking | .accepted | .approvalRequired | .rejected | .running => false

def DelegationSystem.endRuns (now : String) (delegation : DelegationRequest)
    (errorCode : Option String) (parentStatus : String) : DelegationSystem :=
  let metadata := [("delegation_id", Json.str (delegationName delegation.delegationId))]
  let s := match delegation.childRunId with
    | some childRunId => s.updateRun now childRunId
        { status := some "cancelled", errorCode := errorCode, metadata := some metadata }
    | none => s
  s.updateRun now delegation.parentRunId
    { status := some parentStatus, errorCode := errorCode, metadata := some metadata }

/-- `cancel`. -/
def AgentDelegationService.cancel (clock : ℤ) (delegationId : ℕ) (s : DelegationSystem) :
    Except DelegationError Unit × DelegationSystem :=
  match s.delegations[delegationId]? with
  | none => (.error (.fileNotFound delegationId), s)
  | some record =>
    if record.request.status.isTerminal then (.ok (), s)
    else
      (.ok (), (s.setStatus delegationId .cancelled).endRuns (service.isoTime clock)
        record.request none "cancelled")

/-- `check_timeout`. The times that are stored are whole seconds. -/
def AgentDelegationService.checkTimeout (clock : ℤ) (delegationId : ℕ) (s : DelegationSystem) :
    Except DelegationError Unit × DelegationSystem :=
  match s.delegations[delegationId]? with
  | none => (.error (.fileNotFound delegationId), s)
  | some record =>
    if record.request.status.isTerminal then (.ok (), s)
    else if clock - record.request.createdAt < record.request.timeoutSeconds then (.ok (), s)
    else
      (.ok (), (s.setStatus delegationId .timedOut).endRuns (service.isoTime clock)
        record.request (some "delegation_timeout") "failed")

/-- A call of the service, or an agent that updates a run. -/
inductive DelegationOp
  | create (clock : ℤ) (parentAgentId : String) (parentRunId : ℕ)
    (request : DelegationCreateRequest)
  | update (clock : ℤ) (runId : ℕ) (request : AgentRunUpdateRequest)
  | cancel (clock : ℤ) (delegationId : ℕ)
  | checkTimeout (clock : ℤ) (delegationId : ℕ)

def AgentDelegationService.step : DelegationOp → DelegationSystem
  | .create clock parentAgentId parentRunId request =>
    (service.createDelegation clock parentAgentId parentRunId request s).2
  | .update clock runId request => s.updateRun (service.isoTime clock) runId request
  | .cancel clock delegationId => (service.cancel clock delegationId s).2
  | .checkTimeout clock delegationId => (service.checkTimeout clock delegationId s).2

theorem getElem?_updateRun_self {s : DelegationSystem} {runId : ℕ} {run : AgentRun}
    (h : s.runs[runId]? = some run) (now : String) (request : AgentRunUpdateRequest) :
    (s.updateRun now runId request).runs[runId]? = some (run.update now request) := by
  simp [DelegationSystem.updateRun, h]

theorem getElem?_updateRun_of_ne {s : DelegationSystem} {runId other : ℕ} (h : other ≠ runId)
    (now : String) (request : AgentRunUpdateRequest) :
    (s.updateRun now runId request).runs[other]? = s.runs[other]? := by
  simp [DelegationSystem.updateRun, Ne.symm h]

section

variable {service : AgentDelegationService}

theorem createDelegation_cases (service : AgentDelegationService) (clock : ℤ)
    (parentAgentId : String) (parentRunId : ℕ) (request : DelegationCreateRequest)
    (s : DelegationSystem) :
    (∃ error, service.createDelegation clock parentAgentId parentRunId request s =
      (.error error, s)) ∨
    ∃ parentRun delegation, s.runs[parentRunId]? = some parentRun ∧
      parentRun.agentId = parentAgentId ∧
      delegation = service.newRequest clock s.delegations.length parentAgentId parentRunId
        parentRun request ∧
      service.createDelegation clock parentAgentId parentRunId request s =
        (.ok (service.decide s delegation),
          service.settle clock delegation (service.decide s delegation) s) := by
  unfold AgentDelegationService.createDelegation
  cases hrun : s.runs[parentRunId]? with
  | none => exact Or.inl ⟨_, rfl⟩
  | some parentRun =>
    by_cases hagent : parentRun.agentId ≠ parentAgentId
    · left
      exact ⟨.parentRunAgentMismatch, if_pos hagent⟩
    · right
      exact ⟨parentRun, _, rfl, not_not.mp hagent, rfl, if_neg hagent⟩

theorem step_create {s : DelegationSystem} {parentRunId : ℕ} {parentRun : AgentRun}
    (hrun : s.runs[parentRunId]? = some parentRun) (clock : ℤ)
    (request : DelegationCreateRequest) :
    service.step s (.create clock parentRun.agentId parentRunId request) = service.settle clock
        (service.newRequest clock s.delegations.length parentRun.agentId parentRunId parentRun
          request)
        (service.decide s (service.newRequest clock s.delegations.length parentRun.agentId
          parentRunId parentRun request)) s := by
  rw [AgentDelegationService.step, AgentDelegationService.createDelegation, hrun]
  dsimp only
  rw [if_neg (not_not.mpr rfl)]

theorem settle_cases (service : AgentDelegationService) (clock : ℤ)
    (delegation : DelegationRequest) (decision : DelegationPolicyDecision)
    (s : DelegationSystem) :
    (decision.decision = .deny ∧ service.settle clock delegation decision s =
      s.record delegation .blocked none decision) ∨
    (decision.decision = .requireApproval ∧ service.settle clock delegation decision s =
      (s.record delegation .approvalRequired none decision).updateRun (service.isoTime clock)
        delegation.parentRunId (approvalUpdate delegation decision)) ∨
    (decision.decision ≠ .deny ∧ decision.decision ≠ .requireApproval ∧
      service.settle clock delegation decision s =
        (({ s with runs := s.runs ++ [childRun delegation] } : DelegationSystem).record delegation
          .running (some s.runs.length) decision).updateRun (service.isoTime clock)
          delegation.parentRunId (runningUpdate delegation s.runs.length)) := by
  unfold AgentDelegationService.settle
  cases decision.decision with
  | deny => exact Or.inl ⟨rfl, rfl⟩
  | requireApproval => exact Or.inr (Or.inl ⟨rfl, rfl⟩)
  | allow | autoApprove => exact Or.inr (Or.inr ⟨by decide, by decide, rfl⟩)

theorem endDelegation_cases (service : AgentDelegationService) (clock : ℤ) (delegationId : ℕ)
    (s : DelegationSystem) (op : DelegationOp)
    (hop : op = .cancel clock delegationId ∨ op = .checkTimeout clock delegationId) :
    service.step s op = s ∨
    ∃ record status errorCode parentStatus, s.delegations[delegationId]? = some record ∧
      record.request.status.isTerminal = false ∧ status ≠ DelegationStatus.blocked ∧
      parentStatus ∈ terminalRunStatuses ∧
      service.step s op = (s.setStatus delegationId status).endRuns (service.isoTime clock)
        record.request errorCode parentStatus := by
  rcases hop with rfl | rfl
  · simp only [AgentDelegationService.step, AgentDelegationService.cancel]
    cases hrecord : s.delegations[delegationId]? with
    | none => exact Or.inl rfl
    | some record =>
      dsimp only
      cases hterminal : record.request.status.isTerminal with
      | true => exact Or.inl rfl
      | false =>
        right
        exact ⟨record, .cancelled, none, "cancelled", rfl, hterminal, by decide, by decide, rfl⟩
  · simp only [AgentDelegationService.step, AgentDelegationService.checkTimeout]
    cases hrecord : s.delegations[delegationId]? with
    | none => exact Or.inl rfl
    | some record =>
      dsimp only
      cases hterminal : record.request.status.isTerminal with
      | true => exact Or.inl rfl
      | false =>
        rw [if_neg Bool.false_ne_true]
        by_cases hearly : clock - record.request.createdAt < record.request.timeoutSeconds
        · rw [if_pos hearly]
          exact Or.inl rfl
        · rw [if_neg hearly]
          right
          exact ⟨record, .timedOut, some "delegation_timeout", "failed", rfl, hterminal,
            by decide, by decide, rfl⟩

end

def sampleRoute : DelegationRoute where
  parentAgentId := "lucio"
  targetAgentId := "codex"
  enabled := true
  capabilities := ["read_workspace"]

def sampleService : AgentDelegationService where
  policy := ⟨{ routes := [sampleRoute] }, none⟩
  profile _ := some ⟨true, []⟩
  valueText _ := ""
  isoTime clock := toString clock

def sampleSystem (mode : String) : DelegationSystem where
  runs := [⟨"lucio", none, none, "running", "chat", none, [], none, none,
    [("execution_mode", .str mode)]⟩]
  delegations := []

def sampleRequest (capabilities : List String) : DelegationCreateRequest where
  targetAgentId := "codex"
  requestedOperation := "technical_analysis"
  capabilitiesRequested := capabilities

end AIpinho.Delegations
