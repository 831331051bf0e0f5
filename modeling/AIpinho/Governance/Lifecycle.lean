import AIpinho.Lib.Json

/-!
# The governance lifecycle

`GovernanceLifecycleService.evaluate` turns an intent and a request into one snapshot: the
contract, the policy decision, the plan, the approval gate, the completion verdict and what the
speaker may claim. The two gates of operations that ask for approval are parameters.
-/

namespace AIpinho.Governance

open Lib

inductive CanonicalPermission
  | allowed | ask | denied | needsClarification | invalid | expired | stale
  deriving DecidableEq

/-- `GovernanceLifecycleState`, as far as `evaluate` returns it. -/
inductive LifecycleState
  | policyResolved | planOnlyPreview | executablePreview | pendingApproval | completed | blocked
  deriving DecidableEq

/-- `GovernanceLifecycleReasonCode`. The codes of the two gates carry their text. -/
inductive ReasonCode
  | none
  | readonlyOrPlanning
  | approvalRequired
  | policyDenied
  | needsClarification
  | invalidOperation
  | missingExecutablePlan
  | approvalStale
  | approvalExpired
  | completionMissingOutputs
  | speakerTruthBlocked
  | gate (text : String)
  deriving DecidableEq

def ReasonCode.value : ReasonCode → String
  | .none => "none"
  | .readonlyOrPlanning => "readonly_or_planning"
  | .approvalRequired => "approval_required"
  | .policyDenied => "policy_denied"
  | .needsClarification => "needs_clarification"
  | .invalidOperation => "invalid_operation"
  | .missingExecutablePlan => "missing_executable_plan"
  | .approvalStale => "approval_stale"
  | .approvalExpired => "approval_expired"
  | .completionMissingOutputs => "completion_missing_outputs"
  | .speakerTruthBlocked => "speaker_truth_blocked"
  | .gate text => text

inductive PreviewKind
  | planOnly | executable
  deriving DecidableEq

/-- `CanonicalIntentDecision`, with the artifact output of its semantic graph. -/
structure IntentDecision where
  intentType : String
  operationType : String
  requiresTask : Bool
  readonly : Bool
  negativeConstraints : List String
  /-- Whether the semantic graph asks for an artifact. -/
  artifactOutput : Bool

/-- `CanonicalOperationContract`. -/
structure OperationContract where
  operationId : String
  operationType : String
  contractType : String
  runtimeProfile : String
  requiresTask : Bool
  readOnly : Bool
  artifactGeneration : Bool
  workspaceMutation : Bool
  requestedActions : List String
  targetPaths : List String

/-- `CanonicalPolicyDecision`. -/
structure PolicyDecision where
  permission : CanonicalPermission
  allowedActions : List String
  askActions : List String
  deniedActions : List String
  reasonCode : ReasonCode
  requiresApproval : Bool

/-- `CanonicalExecutionPlan`. -/
structure ExecutionPlan where
  previewKind : PreviewKind
  executable : Bool
  executablePlanRef : Option String
  planKind : Option String
  expectedOutputs : List String
  targetPaths : List String
  /-- Why the plan cannot be executed. -/
  blockedReason : ReasonCode

/-- `ContextGateDecision` and `PreviewQualityDecision`. -/
structure GateDecision where
  canCreateApproval : Bool
  reasonCode : ReasonCode
  missingRequirements : List String

/-- `CanonicalApprovalGate`. -/
structure ApprovalGate where
  required : Bool
  canCreateApproval : Bool
  status : String
  reasonCode : ReasonCode

/-- `CanonicalCompletionVerdict`. -/
structure CompletionVerdict where
  status : String
  safeToReportSuccess : Bool
  expectedOutputs : List String
  fulfilledOutputs : List String
  missingOutputs : List String
  reasonCode : ReasonCode

/-- `CanonicalSpeakerTruth`. -/
structure SpeakerTruth where
  canClaimSuccess : Bool
  messageStatus : String
  requiredDisclosures : List String
  forbiddenClaims : List String
  reasonCode : ReasonCode

/-- `GovernanceLifecycleSnapshot`. -/
structure LifecycleSnapshot where
  state : LifecycleState
  reasonCode : ReasonCode
  contract : OperationContract
  policy : PolicyDecision
  plan : ExecutionPlan
  contextGate : GateDecision
  previewQuality : GateDecision
  approval : ApprovalGate
  completion : CompletionVerdict
  speakerTruth : SpeakerTruth

/-- The request, with the intent that was resolved for its text. -/
structure LifecycleInputs where
  intent : IntentDecision
  operationId : String
  requestedActions : List String
  operationType : Option String
  contractType : Option String
  runtimeProfile : Option String
  targetPaths : List String
  explicitPolicyDecisions : List String
  executablePlanRef : Option String
  planKind : Option String
  expectedOutputs : Option (List String)
  outputs : List (String × Json)
  proposedCompletionStatus : String

/-- What `evaluate` asks others for. -/
structure LifecycleServices where
  /-- A text without outer blanks, case-folded. -/
  fold : String → String
  /-- `ContextDiscoveryGate.evaluate`. -/
  contextGate : LifecycleInputs → OperationContract → ExecutionPlan → GateDecision
  /-- `ApprovalPreviewQualityGate.evaluate`. -/
  previewQualityGate : LifecycleInputs → OperationContract → ExecutionPlan → GateDecision →
    GateDecision

/-- Python's `or` on texts: the first if it is there and not empty. -/
def orText (text : Option String) (default : String) : String :=
  if text.getD "" = "" then default else text.getD ""

/-- Python's `startswith`. -/
def beginsWith (start text : String) : Bool := start.toList.isPrefixOf text.toList

def sideEffectActions : List String :=
  ["run_command", "run_tests", "apply_patch", "write_file", "write_files", "create_file",
    "create_directory", "modify_file", "delete", "delete_file", "move", "move_file", "format",
    "install", "build", "clean", "grant_shell", "grant_write", "project_generation"]

def defaultActionsForOperation (operationType : String) : List String :=
  if ["project_generation", "project_bootstrap"].contains operationType then ["write_files"]
  else if ["workspace_fix_request", "analysis_readonly", "readonly_analysis",
    "workspace_analysis_readonly", "capability_truth"].contains operationType then []
  else if ["patch_request", "patch_apply"].contains operationType then ["apply_patch"]
  else if ["filesystem_write", "filesystem_create_directory"].contains operationType then
    ["create_file"]
  else []

def defaultContractType (operationType : String) (actions : List String) : String :=
  if ["project_generation", "project_bootstrap"].contains operationType then "project_generation"
  else if ["analysis_readonly", "readonly_analysis", "workspace_analysis_readonly"].contains
    operationType then "analysis_readonly"
  else if ["workspace_fix_request", "capability_truth"].contains operationType then operationType
  else if actions.contains "apply_patch" then "patch_request"
  else if !actions.isEmpty then "filesystem_write"
  else orText (some operationType) "conversation"

def defaultRuntimeProfile (operationType : String) (actions : List String) : String :=
  if ["project_generation", "project_bootstrap"].contains operationType then "project_generation"
  else if ["analysis_readonly", "readonly_analysis", "workspace_analysis_readonly"].contains
    operationType then "readonly_analysis"
  else if ["workspace_fix_request", "capability_truth"].contains operationType then operationType
  else if actions.contains "apply_patch" then "patch"
  else if !actions.isEmpty then "write_file"
  else orText (some operationType) "conversation"

def readonlyHardOverride (intent : IntentDecision) : Bool :=
  intent.readonly &&
    (["write_forbidden", "shell_forbidden", "patch_forbidden", "artifact_forbidden",
      "approval_forbidden", "execution_forbidden"].any intent.negativeConstraints.contains ||
    ["product_planning_readonly", "workspace_analysis_readonly", "readonly_analysis"].contains
      intent.operationType)

def namesArtifact (others outputs : List String) : Bool :=
  outputs.any fun item => beginsWith "artifact" item || others.contains item

/-- What the override for intents that only read makes of a request. -/
structure Request where
  operationType : String
  actions : List String
  contractType : Option String
  runtimeProfile : Option String
  targetPaths : List String
  executablePlanRef : Option String
  expectedOutputs : Option (List String)

def LifecycleInputs.plainRequest (inputs : LifecycleInputs) : Request :=
  let operationType := orText inputs.operationType inputs.intent.operationType
  let actions :=
    if inputs.requestedActions.isEmpty then defaultActionsForOperation operationType
    else inputs.requestedActions
  ⟨operationType, actions.eraseDups, inputs.contractType, inputs.runtimeProfile,
    inputs.targetPaths, inputs.executablePlanRef, inputs.expectedOutputs⟩

def LifecycleInputs.request (inputs : LifecycleInputs) : Request :=
  let intent := inputs.intent
  if readonlyHardOverride intent then
    let expected := inputs.expectedOutputs.getD []
    let artifactOutputsRequested :=
      (intent.requiresTask && intent.artifactOutput ||
        namesArtifact ["validation_result", "project_analysis_report"] expected) &&
        !intent.negativeConstraints.contains "artifact_forbidden"
    if artifactOutputsRequested then
      { operationType := orText inputs.operationType
          (orText (some intent.operationType) "workspace_analysis_readonly")
        actions := ["read_workspace", "artifact_generate"]
        contractType := some (orText inputs.contractType "analysis_readonly")
        runtimeProfile := some (orText inputs.runtimeProfile "readonly_analysis")
        targetPaths := []
        executablePlanRef := inputs.executablePlanRef
        expectedOutputs := if expected.isEmpty then none else some expected }
    else
      let operationType := orText (some intent.operationType) "product_planning_readonly"
      { operationType := operationType
        actions := []
        contractType := some operationType
        runtimeProfile := some operationType
        targetPaths := []
        executablePlanRef := none
        expectedOutputs := some [] }
  else inputs.plainRequest

def LifecycleInputs.contract (inputs : LifecycleInputs) : OperationContract :=
  let intent := inputs.intent
  let request := inputs.request
  let artifactGeneration := intent.artifactOutput ||
    namesArtifact ["artifact_result", "project_analysis_report"] (request.expectedOutputs.getD [])
  { operationId := inputs.operationId
    operationType := request.operationType
    contractType := orText request.contractType
      (defaultContractType request.operationType request.actions)
    runtimeProfile := orText request.runtimeProfile
      (defaultRuntimeProfile request.operationType request.actions)
    requiresTask := intent.requiresTask || artifactGeneration
    readOnly := intent.readonly
    artifactGeneration := artifactGeneration
    workspaceMutation := !intent.readonly && request.actions.any sideEffectActions.contains
    requestedActions := request.actions
    targetPaths := request.targetPaths.eraseDups }

/-- `CanonicalPolicyService.normalize`. -/
def normalize (fold : String → String) (value : String) : CanonicalPermission :=
  let text := fold value
  if ["ask", "needs_approval", "approval_required", "approval_required_for",
    "waiting_input"].contains text then .ask
  else if ["denied", "blocked", "forbidden", "not_allowed"].contains text then .denied
  else if ["needs_clarification", "clarification_required", "workspace_required"].contains text then
    .needsClarification
  else if text = "expired" then .expired
  else if ["stale", "superseded"].contains text then .stale
  else if ["allowed", "permit", "permitted", "ok"].contains text || text = "" then .allowed
  else .invalid

def writeActions : List String :=
  ["write_files", "write_file", "create_file", "modify_file", "apply_patch", "project_generation",
    "create_directory", "run_command", "run_tests", "delete", "delete_file", "move", "move_file",
    "format", "install", "build", "clean", "grant_shell", "grant_write"]

def OperationContract.isReadonlyArtifact (contract : OperationContract) : Bool :=
  contract.readOnly && contract.requiresTask && contract.artifactGeneration &&
    !contract.workspaceMutation

def nonExecutingOperations : List String :=
  ["conversation", "product_planning_readonly", "workspace_permission_list", "session_diagnostic",
    "workspace_analysis_readonly", "readonly_analysis", "workspace_fix_request", "capability_truth"]

/-- `CanonicalPolicyService.resolve`. -/
def resolvePolicy (fold : String → String) (contract : OperationContract)
    (explicitDecisions : List String) : PolicyDecision :=
  let decisions := explicitDecisions.map (normalize fold)
  let actions := contract.requestedActions.eraseDups
  if decisions.contains .invalid then ⟨.denied, [], [], actions, .invalidOperation, false⟩
  else if decisions.contains .expired then ⟨.denied, [], [], actions, .approvalExpired, false⟩
  else if decisions.contains .stale then ⟨.denied, [], [], actions, .approvalStale, false⟩
  else if decisions.contains .denied then ⟨.denied, [], [], actions, .policyDenied, false⟩
  else if decisions.contains .needsClarification then
    ⟨.needsClarification, [], actions, [], .needsClarification, false⟩
  else if decisions.contains .ask then ⟨.ask, [], actions, [], .approvalRequired, true⟩
  else if contract.isReadonlyArtifact then ⟨.allowed, actions, [], [], .none, false⟩
  else if nonExecutingOperations.contains contract.operationType then
    ⟨.allowed, [], [], [], .readonlyOrPlanning, false⟩
  else if !decisions.isEmpty && decisions.all (· = .allowed) then
    ⟨.allowed, actions, [], [], .none, false⟩
  else if actions.any writeActions.contains then ⟨.ask, [], actions, [], .approvalRequired, true⟩
  else ⟨.allowed, actions, [], [], .none, false⟩

/-- `CanonicalRuntimeService.default_expected_outputs`. -/
def defaultExpectedOutputs (contract : OperationContract) : List String :=
  if contract.contractType = "analysis_readonly" ∨
    contract.operationType = "workspace_analysis_readonly" then
    ["project_analysis_report", "artifact_result", "validation_result"]
  else if contract.runtimeProfile = "project_generation" ∨
    contract.operationType = "project_generation" then
    ["project_generation_result", "validation_result"]
  else if ["patch_request", "patch_apply"].contains contract.contractType ∨
    contract.runtimeProfile = "patch" then ["patch_result", "validation_result"]
  else if contract.requestedActions.any ["create_file", "create_directory", "write_file",
    "write_files", "modify_file"].contains then ["filesystem_operation", "validation_result"]
  else if contract.requestedActions.any ["run_command", "run_tests"].contains then
    ["command_result", "validation_result"]
  else if contract.requestedActions.contains "artifact_create" then
    ["artifact_result", "validation_result"]
  else []

/-- `CanonicalRuntimeService.build_plan`. -/
def buildPlan (contract : OperationContract) (executablePlanRef planKind : Option String)
    (expectedOutputs : Option (List String)) (targetPaths : List String) : ExecutionPlan :=
  let outputs := (expectedOutputs.getD (defaultExpectedOutputs contract)).eraseDups
  let planRef := orText executablePlanRef
    (if contract.isReadonlyArtifact then "readonly_analysis:" ++ contract.operationId else "")
  let needsExecutionPlan :=
    contract.requestedActions.any ["write_files", "write_file", "create_file", "modify_file",
      "apply_patch", "project_generation", "create_directory", "run_command",
      "run_tests"].contains ||
    ["project_generation", "patch", "write_file"].contains contract.runtimeProfile ||
    contract.isReadonlyArtifact
  let targets := (if targetPaths.isEmpty then contract.targetPaths else targetPaths).eraseDups
  if !needsExecutionPlan then
    ⟨.planOnly, false, none, none, outputs, targets, .readonlyOrPlanning⟩
  else if planRef ≠ "" then
    ⟨.executable, true, some planRef, some (orText planKind "executable_plan"), outputs, targets,
      .none⟩
  else ⟨.planOnly, false, none, none, outputs, targets, .missingExecutablePlan⟩

def LifecycleInputs.plan (inputs : LifecycleInputs) : ExecutionPlan :=
  buildPlan inputs.contract inputs.request.executablePlanRef inputs.planKind
    inputs.request.expectedOutputs inputs.request.targetPaths

def allowedSideEffectWithoutPlan (policy : PolicyDecision) (contract : OperationContract)
    (plan : ExecutionPlan) : Bool :=
  policy.permission = .allowed && contract.requestedActions.any sideEffectActions.contains &&
    !(plan.executable && plan.executablePlanRef.getD "" ≠ "")

def LifecycleInputs.policy (services : LifecycleServices) (inputs : LifecycleInputs) :
    PolicyDecision :=
  let policy := resolvePolicy services.fold inputs.contract inputs.explicitPolicyDecisions
  if allowedSideEffectWithoutPlan policy inputs.contract inputs.plan then
    ⟨.denied, [], [], inputs.contract.requestedActions, .missingExecutablePlan, false⟩
  else policy

def ExecutionPlan.rejected (plan : ExecutionPlan) (reason : ReasonCode) : ExecutionPlan :=
  { plan with
    previewKind := .planOnly
    executable := false
    executablePlanRef := none
    blockedReason := reason }

def LifecycleInputs.gatedPlan (services : LifecycleServices) (inputs : LifecycleInputs) :
    ExecutionPlan × GateDecision × GateDecision :=
  let plan := inputs.plan
  if (inputs.policy services).permission = .ask then
    let context := services.contextGate inputs inputs.contract plan
    let plan := if context.canCreateApproval then plan else plan.rejected context.reasonCode
    let quality := services.previewQualityGate inputs inputs.contract plan context
    let plan := if quality.canCreateApproval then plan else plan.rejected quality.reasonCode
    (plan, context, quality)
  else (plan, ⟨true, .none, []⟩, ⟨true, .none, []⟩)

/-- `CanonicalApprovalService._status_for_reason`. -/
def statusForReason (reason : ReasonCode) : String :=
  if reason = .missingExecutablePlan then "approval_not_created_no_executable_plan"
  else if ["APPROVAL_NOT_CREATED", "WORKSPACE_DISCOVERY", "PREVIEW_REJECTED"].any
    (beginsWith · reason.value) then reason.value
  else "approval_not_created_no_executable_plan"

/-- `CanonicalApprovalService.evaluate`. -/
def evaluateApproval (policy : PolicyDecision) (plan : ExecutionPlan) : ApprovalGate :=
  match policy.permission with
  | .denied => ⟨false, false, "blocked", .policyDenied⟩
  | .needsClarification => ⟨false, false, "needs_clarification", .needsClarification⟩
  | .ask =>
    if plan.previewKind ≠ .executable ∨ ¬plan.executable ∨ plan.executablePlanRef.getD "" = "" then
      let reason :=
        if plan.blockedReason = .none then .missingExecutablePlan else plan.blockedReason
      ⟨true, false, statusForReason reason, reason⟩
    else ⟨true, true, "pending_approval", .approvalRequired⟩
  | _ => ⟨false, false, "not_required", .none⟩

def isPresent (outputs : List (String × Json)) (item : String) : Bool :=
  match outputs.lookup item with
  | none => false
  | some .null => false
  | some _ => true

/-- `CanonicalCompletionResolver.resolve`. -/
def resolveCompletion (fold : String → String) (expectedOutputs : List String)
    (outputs : List (String × Json)) (proposedStatus : String) : CompletionVerdict :=
  let expected := (expectedOutputs.filter (fold · ≠ "")).eraseDups
  let fulfilled := expected.filter (isPresent outputs)
  let missing := expected.filter fun item => !fulfilled.contains item
  let status :=
    if proposedStatus = "failed" ∨ proposedStatus = "blocked" then proposedStatus
    else if !missing.isEmpty then "incomplete"
    else if proposedStatus = "completed_with_warnings" then "completed_with_warnings"
    else "completed"
  { status := status
    safeToReportSuccess := status = "completed" && missing.isEmpty
    expectedOutputs := expected
    fulfilledOutputs := fulfilled
    missingOutputs := missing
    reasonCode := if missing.isEmpty then .none else .completionMissingOutputs }

def LifecycleInputs.completion (services : LifecycleServices) (inputs : LifecycleInputs) :
    CompletionVerdict :=
  let plan := (inputs.gatedPlan services).1
  let completion := resolveCompletion services.fold plan.expectedOutputs inputs.outputs
    inputs.proposedCompletionStatus
  if inputs.intent.requiresTask && plan.previewKind = .planOnly && !plan.executable &&
    completion.safeToReportSuccess then
    { completion with
      status := "incomplete"
      safeToReportSuccess := false
      reasonCode :=
        if plan.blockedReason = .none then .missingExecutablePlan else plan.blockedReason }
  else completion

/-- `_state`. -/
def stateOf (policy : PolicyDecision) (plan : ExecutionPlan) (approval : ApprovalGate)
    (completion : CompletionVerdict) : LifecycleState :=
  match policy.permission with
  | .denied | .invalid | .expired | .stale | .needsClarification => .blocked
  | _ =>
    if approval.required then
      if approval.canCreateApproval then .pendingApproval else .planOnlyPreview
    else if plan.previewKind = .planOnly ∧ ¬plan.executable then .planOnlyPreview
    else if completion.safeToReportSuccess then .completed
    else if completion.status = "failed" ∨ completion.status = "blocked" then .blocked
    else if plan.executable then .executablePreview
    else .policyResolved

/-- `_reason`. -/
def reasonOf (policy : PolicyDecision) (plan : ExecutionPlan) (approval : ApprovalGate)
    (completion : CompletionVerdict) : ReasonCode :=
  ([policy.reasonCode, approval.reasonCode, plan.blockedReason, completion.reasonCode].find?
    (· ≠ .none)).getD .none

def successClaims : List String :=
  ["executed", "implemented", "created", "modified", "applied", "validated", "completed"]

/-- `CanonicalSpeakerTruthService.evaluate`, without a runtime truth. -/
def evaluateSpeaker (plan : ExecutionPlan) (approval : ApprovalGate)
    (completion : CompletionVerdict) : SpeakerTruth :=
  let unapproved := approval.required && approval.status ≠ "approved"
  let unplanned := plan.blockedReason ≠ .none && !plan.executable
  let unsafeToReport := !completion.safeToReportSuccess
  let disclosures :=
    (if unapproved then ["approval_pending_or_not_granted"] else []) ++
    (if unplanned then [plan.blockedReason.value] else []) ++
    (if unsafeToReport && !completion.missingOutputs.isEmpty then
      ["missing_outputs:" ++ ",".intercalate completion.missingOutputs] else [])
  let forbidden :=
    (if unapproved then successClaims else []) ++ (if unplanned then successClaims else []) ++
    (if unsafeToReport then successClaims else [])
  let canClaim := forbidden.isEmpty && completion.safeToReportSuccess
  { canClaimSuccess := canClaim
    messageStatus :=
      if canClaim then "success" else if !forbidden.isEmpty then "blocked" else "neutral"
    requiredDisclosures := disclosures.eraseDups
    forbiddenClaims := forbidden.eraseDups
    reasonCode := if canClaim then .none else .speakerTruthBlocked }

/-- `GovernanceLifecycleService.evaluate`. -/
def evaluate (services : LifecycleServices) (inputs : LifecycleInputs) : LifecycleSnapshot :=
  let policy := inputs.policy services
  let (plan, context, quality) := inputs.gatedPlan services
  let approval := evaluateApproval policy plan
  let completion := inputs.completion services
  { state := stateOf policy plan approval completion
    reasonCode := reasonOf policy plan approval completion
    contract := inputs.contract
    policy := policy
    plan := plan
    contextGate := context
    previewQuality := quality
    approval := approval
    completion := completion
    speakerTruth := evaluateSpeaker plan approval completion }

end AIpinho.Governance
