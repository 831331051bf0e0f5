import AIpinho.Governance.DefaultPermissions
import AIpinho.Lib.Checks
import AIpinho.Lib.Table
import AIpinho.Lib.Text
import AIpinho.Runtime.Sanitize
import Mathlib.Data.List.Sort

/-!
# The policy kernel

`PolicyKernelService.resolve` takes a request through four stages: the requested actions get
their canonical names, the workspace is checked, the capability gate denies what the constraints
forbid, and the effective policy sorts the actions. The status is read off the result.
-/

namespace AIpinho.Policy

open List Lib Governance
open AIpinho.Runtime (isSpace)

/-- `sorted(set(...))` of texts. -/
def sortedSet (items : List String) : List String :=
  items.eraseDups.insertionSort fun a b => a ≤ b

@[simp]
theorem mem_sortedSet {items : List String} {item : String} :
    item ∈ sortedSet items ↔ item ∈ items := by
  rw [sortedSet, mem_insertionSort, mem_eraseDups]

/-- `d[key] = value` of a dictionary. -/
def setKey (key value : String) (entries : List (String × String)) : List (String × String) :=
  if entries.any fun entry => entry.1 = key then
    entries.map fun entry => if entry.1 = key then (key, value) else entry
  else entries ++ [(key, value)]

/-- `d[key] = value` for several keys, one after the other. -/
def setKeys (pairs entries : List (String × String)) : List (String × String) :=
  pairs.foldl (fun entries pair => setKey pair.1 pair.2 entries) entries

/-- `ActionDefinition` with the capability an action uses. -/
structure GatedAction extends ActionDefinition where
  /-- The capability, by its canonical name or an alias. -/
  capability : Option String := none

def definitions (actions : Table String GatedAction) : ActionRegistry :=
  actions.entries.map fun entry => (entry.1, entry.2.toActionDefinition)

/-- `ActionRegistryService` after `load`: `validate` has accepted the actions. -/
structure ActionRegistryService where
  /-- The actions under their canonical names. -/
  actions : Table String GatedAction
  /-- The canonical names of all names. -/
  aliases : List (String × String)
  /-- `validate` found these aliases. -/
  validated : ActionRegistry.validate (definitions actions) = .ok aliases

/-- `ConfigValidationError`, as the services of the kernel raise it. -/
inductive PolicyError
  | registry (error : RegistryError)
  | missingRoles (missing : List String)
  | writesWithoutTools (roleId : String)
  | mustForbidPatches
  | cannotExecuteTools (roleId : String)
  | unknownRole (roleId : String)
  deriving DecidableEq

def PolicyError.message : PolicyError → String
  | .registry error => error.message
  | .missingRoles missing => "Missing expected roles: ['" ++ "', '".intercalate missing ++ "']"
  | .writesWithoutTools roleId =>
    "Role cannot write without tool execution capability: " ++ roleId
  | .mustForbidPatches => "artifact_writer must forbid apply_patch"
  | .cannotExecuteTools roleId => roleId ++ " cannot execute tools"
  | .unknownRole roleId => "Unknown role: " ++ roleId

/-- `ActionRegistryService.normalize_action`. -/
def ActionRegistryService.normalizeAction (service : ActionRegistryService)
    (actionName : String) : Except PolicyError String :=
  ((definitions service.actions).normalizeAction actionName).mapError .registry

/-- `ActionRegistryService.get_action`. -/
def ActionRegistryService.getAction (service : ActionRegistryService) (actionName : String) :
    Except PolicyError GatedAction := do
  let canonical ← service.normalizeAction actionName
  match service.actions.get? canonical with
  | some definition => .ok definition
  | none => .error (.registry (.unknownAction canonical))

/-- `CapabilityRegistryService.REQUIRED_CAPABILITIES`. -/
def requiredCapabilities : List String :=
  ["read_workspace", "write_workspace", "shell", "git", "network", "rag", "memory_read",
    "memory_write", "model_inference", "artifact_write", "patch_preview", "patch_apply"]

/-- `CapabilityRegistryService` after `load`: the aliases of each capability. -/
structure CapabilityRegistryService where
  /-- The aliases under the canonical names. -/
  capabilities : Table String (List String)
  /-- `validate` missed no required capability. -/
  validated : ∀ capability ∈ requiredCapabilities, (capabilities.get? capability).isSome

/-- `CapabilityRegistryService.canonicalize`. -/
def CapabilityRegistryService.canonicalize (service : CapabilityRegistryService)
    (capability : String) : String :=
  let value := strip isSpace capability
  if (service.capabilities.get? value).isSome then value
  else
    match service.capabilities.entries.find? fun entry =>
        (entry.2.map (strip isSpace)).contains value with
    | some entry => entry.1
    | none => value

/-- `CapabilityRegistryService.capability_exists`. -/
def CapabilityRegistryService.capabilityExists (service : CapabilityRegistryService)
    (capability : String) : Bool :=
  (service.capabilities.get? (service.canonicalize capability)).isSome

/-- `ApprovalPolicyService` after `load`. The names of its lists are canonical in its
own action registry, and `validate` found each side effect that needs an approval
among the actions that require one. -/
structure ApprovalPolicyService where
  actionRegistry : ActionRegistryService
  actionsRequiringApproval : List String
  /-- `_never_auto_execute`. -/
  neverAutoExecuteActions : List String
  unknownActionRequiresApproval : Bool := true
  validated : ∀ entry ∈ actionRegistry.actions.entries, entry.2.sideEffect = true →
    entry.2.requiresApproval = true → entry.1 ∈ actionsRequiringApproval

/-- `ApprovalPolicyService.requires_approval`. -/
def ApprovalPolicyService.requiresApproval (policy : ApprovalPolicyService)
    (actionName : String) : Bool :=
  match policy.actionRegistry.getAction actionName,
      policy.actionRegistry.normalizeAction actionName with
  | .ok action, .ok canonical =>
    policy.actionsRequiringApproval.contains canonical || action.requiresApproval
  | _, _ => policy.unknownActionRequiresApproval

/-- `ApprovalPolicyService.never_auto_execute`. -/
def ApprovalPolicyService.neverAutoExecute (policy : ApprovalPolicyService)
    (actionName : String) : Bool :=
  match policy.actionRegistry.normalizeAction actionName with
  | .ok canonical => policy.neverAutoExecuteActions.contains canonical
  | .error _ => true

inductive ContractType
  | conversation | readonlyAnalysis | artifactGeneration | filesystemWrite
  | fileModification | projectGeneration | artifactBuild | shellExecution | webSearch
  | projectBuild | patchRequest | patchApply | validation | validationRequest
  | inChatFinalReport | memoryCuration | unknown
  deriving DecidableEq

inductive IntentType
  | conversation | selfAnalysis | capabilityExplanation | inChatFinalReport
  | readonlyAnalysis | artifactGeneration | filesystemWriteRequest
  | fileModificationRequest | projectGenerationRequest | androidProjectGeneration
  | artifactBuildRequest | patchRequest | validationRequest | publicFactQuery
  | memoryRequest | memoryWrite | ragQuery | unknown
  deriving DecidableEq

/-- `IntentSummary`, as far as the kernel reads it. -/
structure IntentSummary where
  intentType : IntentType := .unknown
  requiresWorkspace : Bool := false

/-- `TaskContractInput`, as far as the kernel reads it. -/
structure TaskContractInput where
  taskType : ContractType := .unknown
  requestedActions : List String := []
  readOnly : Bool := true

structure UserConstraints where
  readOnly : Bool := false
  noWrite : Bool := false
  noShell : Bool := false
  noNetwork : Bool := false

/-- `PolicyResolveRequest`, with the path of its `WorkspaceInput` and the id of its
`RoleInput`. -/
structure PolicyResolveRequest where
  intent : IntentSummary := {}
  task : TaskContractInput := {}
  /-- `workspace.path`. -/
  workspacePath : Option String := none
  /-- `role.role_id`. -/
  roleId : String := "planner"
  userConstraints : UserConstraints := {}

structure PolicyViolation where
  code : String
  reason : String
  severity : String
  source : String
  deriving DecidableEq

/-- `RoleDefinition`, as far as the kernel and the checks of the role registry read
it. -/
structure RoleDefinition where
  canWrite : Bool := false
  canExecuteTools : Bool := false
  allowedActions : List String := []
  forbiddenActions : List String := []
  requiresApproval : List String := []

/-- `RoleRegistry.EXPECTED_ROLES`, sorted. -/
def expectedRoles : List String :=
  ["artifact_writer", "debugger", "executor", "interpreter", "memory_curator", "planner",
    "reporter", "reranker", "retriever", "speaker", "supervisor", "validator"]

/-- The checks of `RoleRegistry.validate` on one role. -/
def validateRole (registry : ActionRegistryService) (entry : String × RoleDefinition) :
    Except PolicyError Unit := do
  let (roleId, role) := entry
  demand (¬(role.canWrite = true ∧ role.canExecuteTools = false))
    (PolicyError.writesWithoutTools roleId)
  checkEach (fun action => do let _ ← registry.normalizeAction action; .ok ())
    (role.allowedActions ++ role.forbiddenActions ++ role.requiresApproval)
  let forbidden ← role.forbiddenActions.mapM registry.normalizeAction
  demand (¬(roleId = "artifact_writer" ∧ "apply_patch" ∉ forbidden))
    PolicyError.mustForbidPatches
  demand (¬(roleId ∈ ["speaker", "interpreter", "debugger"] ∧ role.canExecuteTools = true))
    (PolicyError.cannotExecuteTools roleId)

/-- `RoleRegistry`: the roles of the configuration, and the action registry they are
checked against. -/
structure RoleRegistry where
  roles : Table String RoleDefinition
  actionRegistry : ActionRegistryService

/-- `RoleRegistry.validate`. -/
def RoleRegistry.validate (registry : RoleRegistry) : Except PolicyError Unit := do
  let missing := expectedRoles.filter fun roleId => (registry.roles.get? roleId).isNone
  demand (missing = []) (PolicyError.missingRoles missing)
  checkEach (validateRole registry.actionRegistry) registry.roles.entries

/-- `RoleRegistry.get_role`. -/
def RoleRegistry.getRole (registry : RoleRegistry) (roleId : String) :
    Except PolicyError RoleDefinition := do
  registry.validate
  match registry.roles.get? roleId with
  | some role => .ok role
  | none => .error (.unknownRole roleId)

/-- An entry of `protected_roots`. Entries that are no mappings are passed over. -/
structure ProtectedRoot where
  path : String
  blockTask : Bool := true

structure WorkspacePolicyResult where
  /-- `allowed`, `denied` or `needs_clarification`. -/
  status : String
  workspacePath : Option String
  /-- Whether the workspace is protected. -/
  blocked : Bool
  needsClarification : Bool
  reason : String
  violations : List PolicyViolation

/-- `WorkspacePolicyService`. Whether one path is under another depends on the file
system, where links are resolved. -/
structure WorkspacePolicyService where
  /-- `protected_workspaces.yaml`. -/
  configPath : String
  protectedRoots : List ProtectedRoot
  isUnder : String → String → Bool

/-- `WorkspacePolicyService.evaluate`. -/
def WorkspacePolicyService.evaluate (service : WorkspacePolicyService)
    (workspacePath : Option String) (requiresWorkspace : Bool) : WorkspacePolicyResult :=
  let path := workspacePath.getD ""
  if path = "" then
    if requiresWorkspace then
      ⟨"needs_clarification", none, false, true, "workspace_missing", []⟩
    else ⟨"allowed", none, false, false, "workspace_not_required", []⟩
  else if service.protectedRoots.any fun root =>
      root.path ≠ "" && service.isUnder path root.path && root.blockTask then
    ⟨"denied", some path, true, false, "forbidden_root",
      [⟨"forbidden_root", "workspace_path_matches_protected_root", "critical",
        service.configPath⟩]⟩
  else ⟨"allowed", some path, false, false, "workspace_allowed", []⟩

structure PolicyContext where
  /-- The canonical names of the requested actions that are known. -/
  normalizedActions : List String
  unknownActions : List String
  role : RoleDefinition
  violations : List PolicyViolation
  warnings : List String

/-- The canonical names of the actions that are known. -/
def ActionRegistryService.normalizedActions (registry : ActionRegistryService)
    (requested : List String) : List String :=
  requested.filterMap fun action => (registry.normalizeAction action).toOption

def ActionRegistryService.unknownActions (registry : ActionRegistryService)
    (requested : List String) : List String :=
  requested.filter fun action => (registry.normalizeAction action).toOption.isNone

/-- `PolicyContextBuilder.build`. -/
def buildContext (registry : ActionRegistryService) (roles : RoleRegistry)
    (request : PolicyResolveRequest) : Except PolicyError PolicyContext := do
  let unknown := registry.unknownActions request.task.requestedActions
  let role ← roles.getRole request.roleId
  .ok {
    normalizedActions := registry.normalizedActions request.task.requestedActions
    unknownActions := unknown
    role := role
    violations := unknown.map fun action =>
      ⟨"unknown_action", "Unknown action: " ++ action, "error",
        "config/policies/action_registry.yaml"⟩
    warnings :=
      if request.intent.requiresWorkspace && request.workspacePath.getD "" = "" then
        ["workspace_required_but_missing"]
      else [] }

/-- What the gate is told beside the actions. -/
structure GateConstraints where
  readOnly : Bool
  noWrite : Bool
  noShell : Bool
  noNetwork : Bool
  workspaceBlocked : Bool

/-- `CapabilityGateService.WRITE_LIKE_CAPABILITIES`. -/
def writeLikeCapabilities : List String :=
  ["write_workspace", "artifact_write", "patch_apply", "memory_write", "git"]

/-- `deny_reason` of an action with a known capability. -/
def denyReason (constraints : GateConstraints) (capability : String) (sideEffect : Bool) :
    Option String :=
  if constraints.workspaceBlocked then some "workspace_policy_denied"
  else if (constraints.readOnly || constraints.noWrite) &&
      writeLikeCapabilities.contains capability then
    some "read_only_or_no_write_constraint"
  else if constraints.readOnly && capability = "shell" && sideEffect then
    some "read_only_blocks_side_effect_shell"
  else if constraints.noShell && capability = "shell" then some "user_constraint_no_shell"
  else if constraints.noNetwork && capability = "network" then
    some "user_constraint_no_network"
  else none

/-- What the gate says of one action. -/
structure GateVerdict where
  action : String
  /-- The capability under which the action is listed. -/
  capability : String
  denied : Option String

/-- The body of the loop of `CapabilityGateService.evaluate`; `capability_for` and
`is_side_effect` read the one definition that `get_action` finds. -/
def gateAction (registry : ActionRegistryService) (capabilities : CapabilityRegistryService)
    (constraints : GateConstraints) (action : String) : Except PolicyError GateVerdict := do
  let definition ← registry.getAction action
  let capability := definition.capability.getD ""
  if definition.capability.isNone || !capabilities.capabilityExists capability then
    .ok ⟨action, if capability = "" then "unknown" else capability,
      some "unknown_or_missing_capability"⟩
  else .ok ⟨action, capability, denyReason constraints capability definition.sideEffect⟩

structure CapabilityGateResult where
  grantedCapabilities : List String
  deniedCapabilities : List String
  deniedActions : List String
  reasons : List (String × String)

/-- `CapabilityGateService.evaluate`. -/
def evaluateGate (registry : ActionRegistryService) (capabilities : CapabilityRegistryService)
    (constraints : GateConstraints) (actions : List String) :
    Except PolicyError CapabilityGateResult := do
  let verdicts ← actions.mapM (gateAction registry capabilities constraints)
  let denied := verdicts.filter fun verdict => verdict.denied.isSome
  let granted := verdicts.filter fun verdict => verdict.denied.isNone
  .ok {
    grantedCapabilities := sortedSet (granted.map (·.capability))
    deniedCapabilities := sortedSet (denied.map (·.capability))
    deniedActions := denied.map (·.action)
    reasons := setKeys (denied.map fun verdict => (verdict.action, verdict.denied.getD "")) [] }

structure EffectivePolicy where
  allowedActions : List String
  deniedActions : List String
  approvalRequiredFor : List String
  grantedCapabilities : List String
  deniedCapabilities : List String
  /-- The reasons other than a missing approval. -/
  blockedBy : List String
  warnings : List String
  reasons : List (String × String)

/-- The actions that are denied before the others are told apart: the unknown ones,
those the gate denies, and all in a protected workspace. -/
def deniedFirst (context : PolicyContext) (blocked : Bool) (gate : CapabilityGateResult) :
    List String :=
  context.unknownActions ++ gate.deniedActions ++
    if blocked then context.normalizedActions else []

def deniedReadOnly (task : TaskContractInput) (normalized : List String) : List String :=
  if task.readOnly then
    ["write_files", "apply_patch"].filter fun action =>
      !normalized.contains action && task.taskType ≠ .conversation
  else []

def deniedForArtifacts (task : TaskContractInput) : List String :=
  if task.taskType = .artifactGeneration then ["apply_patch"] else []

/-- `EffectivePolicyBuilder.build`. -/
def buildEffectivePolicy (registry : ActionRegistryService) (approval : ApprovalPolicyService)
    (task : TaskContractInput) (context : PolicyContext) (blocked : Bool)
    (gate : CapabilityGateResult) : Except PolicyError EffectivePolicy := do
  let denied := deniedFirst context blocked gate
  let roleForbidden ← context.role.forbiddenActions.mapM registry.normalizeAction
  let roleRequiresApproval ← context.role.requiresApproval.mapM registry.normalizeAction
  let limited := sortedSet (roleForbidden.filter context.normalizedActions.contains)
  let open' := context.normalizedActions.filter fun action => !denied.contains action
  let needsApproval := fun action =>
    roleRequiresApproval.contains action || approval.requiresApproval action
  let readOnly := deniedReadOnly task context.normalizedActions
  let artifacts := deniedForArtifacts task
  let reasons := setKeys
    ((context.unknownActions.map fun action => (action, "unknown_action_default_deny")) ++
      (gate.deniedActions.map fun action =>
        (action, (gate.reasons.lookup action).getD "capability_denied")) ++
      (if blocked then
        context.normalizedActions.map fun action => (action, "workspace_policy_denied")
      else []) ++
      ((open'.filter needsApproval).map fun action => (action, "approval_required")) ++
      (readOnly.map fun action => (action, "read_only_constraint"))) []
  let reasons := setKeys
    ((artifacts.filter fun action => (reasons.lookup action).isNone).map fun action =>
      (action, "artifact_writer_not_code_patch")) reasons
  .ok {
    allowedActions := sortedSet (open'.filter fun action => !needsApproval action)
    deniedActions := sortedSet (denied ++ readOnly ++ artifacts)
    approvalRequiredFor := sortedSet (open'.filter needsApproval)
    grantedCapabilities := gate.grantedCapabilities
    deniedCapabilities := gate.deniedCapabilities
    blockedBy := sortedSet ((reasons.map Prod.snd).filter (· ≠ "approval_required"))
    warnings := context.warnings ++
      limited.map fun action => "role_declares_action_limited:" ++ action
    reasons := reasons }

inductive PolicyDecisionStatus
  | allowed | denied | needsApproval | needsClarification | degraded
  deriving DecidableEq

/-- `PolicyDecision`, without its id and its trace. -/
structure PolicyDecision where
  status : PolicyDecisionStatus
  contractType : ContractType
  /-- The effective policy, whose action and capability lists the decision repeats. -/
  effectivePolicy : EffectivePolicy
  violations : List PolicyViolation
  safeToExecute : Bool
  safeToPreview : Bool

/-- `PolicyDecision.allowed_actions`. -/
def PolicyDecision.allowedActions (decision : PolicyDecision) : List String :=
  decision.effectivePolicy.allowedActions

/-- `PolicyDecision.denied_actions`. -/
def PolicyDecision.deniedActions (decision : PolicyDecision) : List String :=
  decision.effectivePolicy.deniedActions

/-- `PolicyDecision.approval_required_for`. -/
def PolicyDecision.approvalRequiredFor (decision : PolicyDecision) : List String :=
  decision.effectivePolicy.approvalRequiredFor

structure PolicyKernelService where
  actionRegistry : ActionRegistryService
  capabilityRegistry : CapabilityRegistryService
  approvalPolicy : ApprovalPolicyService
  roleRegistry : RoleRegistry
  workspacePolicy : WorkspacePolicyService

/-- `PolicyKernelService._contract_type`. -/
def contractType (request : PolicyResolveRequest) : ContractType :=
  if request.task.taskType ≠ .unknown then request.task.taskType
  else
    match request.intent.intentType with
    | .memoryWrite => .memoryCuration
    | .conversation => .conversation
    | .inChatFinalReport => .inChatFinalReport
    | .readonlyAnalysis => .readonlyAnalysis
    | .artifactGeneration => .artifactGeneration
    | .patchRequest => .patchRequest
    | .validationRequest => .validationRequest
    | _ => .unknown

def PolicyResolveRequest.constraints (request : PolicyResolveRequest) (blocked : Bool) :
    GateConstraints :=
  ⟨request.task.readOnly || request.userConstraints.readOnly, request.userConstraints.noWrite,
    request.userConstraints.noShell, request.userConstraints.noNetwork, blocked⟩

def decisionStatus (workspace : WorkspacePolicyResult) (context : PolicyContext)
    (policy : EffectivePolicy) : PolicyDecisionStatus :=
  if workspace.needsClarification then .needsClarification
  else if workspace.blocked || !context.unknownActions.isEmpty ||
      context.normalizedActions.any policy.deniedActions.contains then .denied
  else if !policy.approvalRequiredFor.isEmpty then .needsApproval
  else .allowed

/-- `PolicyKernelService._safe_to_execute`. -/
def safeToExecute (approval : ApprovalPolicyService) (status : PolicyDecisionStatus)
    (requested allowed approvalRequired : List String) : Bool :=
  status = .allowed && !requested.isEmpty &&
    (requested.all allowed.contains && allowed.all requested.contains) &&
    approvalRequired.isEmpty && requested.all fun action => !approval.neverAutoExecute action

/-- `PolicyKernelService.resolve`. -/
def PolicyKernelService.resolve (kernel : PolicyKernelService)
    (request : PolicyResolveRequest) : Except PolicyError PolicyDecision := do
  let context ← buildContext kernel.actionRegistry kernel.roleRegistry request
  let workspace :=
    kernel.workspacePolicy.evaluate request.workspacePath request.intent.requiresWorkspace
  let gate ← evaluateGate kernel.actionRegistry kernel.capabilityRegistry
    (request.constraints workspace.blocked) context.normalizedActions
  let policy ← buildEffectivePolicy kernel.actionRegistry kernel.approvalPolicy request.task
    context workspace.blocked gate
  let status := decisionStatus workspace context policy
  .ok {
    status := status
    contractType := contractType request
    effectivePolicy := policy
    violations := context.violations ++ workspace.violations
    safeToExecute := safeToExecute kernel.approvalPolicy status context.normalizedActions
      policy.allowedActions policy.approvalRequiredFor
    safeToPreview := status = .allowed || status = .needsApproval }

/-- The names are entered for the canonical one, and none is changed. -/
theorem enterNames_spec {canonical : String} {names : List String}
    {aliases aliases' : List (String × String)}
    (h : enterNames canonical aliases names = .ok aliases') :
    (∀ name value, aliases.lookup name = some value → aliases'.lookup name = some value) ∧
      (∀ name ∈ names, aliases'.lookup name = some canonical) ∧
      ∀ name value, aliases'.lookup name = some value →
        aliases.lookup name = some value ∨ value = canonical := by
  induction names generalizing aliases with
  | nil =>
    cases h
    exact ⟨fun _ _ h => h, fun _ h => absurd h not_mem_nil, fun _ _ h => Or.inl h⟩
  | cons name names ih =>
    rw [enterNames] at h
    cases hname : aliases.lookup name with
    | some previous =>
      rw [hname] at h
      simp only [ne_eq, ite_not] at h
      split at h
      · rename_i hprevious
        subst hprevious
        obtain ⟨hkept, hentered, honly⟩ := ih h
        refine ⟨hkept, fun other hother => ?_, honly⟩
        rcases mem_cons.mp hother with rfl | hother
        · exact hkept other previous hname
        · exact hentered other hother
      · cases h
    | none =>
      rw [hname] at h
      obtain ⟨hkept, hentered, honly⟩ := ih h
      have hlookup : ∀ other, ((name, canonical) :: aliases).lookup other =
          if other = name then some canonical else aliases.lookup other := by
        intro other
        rw [lookup_cons]
        by_cases hother : other = name
        · simp [hother]
        · rw [beq_eq_false_iff_ne.mpr hother, if_neg hother]
      refine ⟨fun other value hother => ?_, fun other hother => ?_, fun other value hother => ?_⟩
      · refine hkept other value ?_
        rw [hlookup, if_neg, hother]
        rintro rfl
        rw [hname] at hother
        cases hother
      · rcases mem_cons.mp hother with rfl | hother
        · exact hkept other canonical (by rw [hlookup, if_pos rfl])
        · exact hentered other hother
      · rcases honly other value hother with hold | hcanonical
        · rw [hlookup] at hold
          split at hold
          · cases hold
            exact Or.inr rfl
          · exact Or.inl hold
        · exact Or.inr hcanonical

/-- The alias table of a registry has each canonical name under itself, and leads to
canonical names only. -/
theorem enterActions_spec {actions : ActionRegistry} {aliases aliases' : List (String × String)}
    (h : enterActions aliases actions = .ok aliases') :
    (∀ name value, aliases.lookup name = some value → aliases'.lookup name = some value) ∧
      (∀ entry ∈ actions, aliases'.lookup entry.1 = some entry.1) ∧
      ∀ name value, aliases'.lookup name = some value →
        aliases.lookup name = some value ∨ value ∈ actions.map Prod.fst := by
  induction actions generalizing aliases with
  | nil =>
    cases h
    exact ⟨fun _ _ h => h, fun _ h => absurd h not_mem_nil, fun _ _ h => Or.inl h⟩
  | cons entry actions ih =>
    obtain ⟨canonical, definition⟩ := entry
    rw [enterActions] at h
    split at h
    · cases h
    · rw [value_bind_ok_iff] at h
      obtain ⟨entered, hnames, h⟩ := h
      obtain ⟨hkept, hself, honly⟩ := enterNames_spec hnames
      obtain ⟨hkept', hself', honly'⟩ := ih h
      refine ⟨fun name value hname => hkept' name value (hkept name value hname),
        fun entry hentry => ?_, fun name value hname => ?_⟩
      · rcases mem_cons.mp hentry with rfl | hentry
        · exact hkept' _ _ (hself canonical mem_cons_self)
        · exact hself' entry hentry
      · rcases honly' name value hname with hold | hold
        · rcases honly name value hold with hold | rfl
          · exact Or.inl hold
          · exact Or.inr mem_cons_self
        · exact Or.inr (mem_cons_of_mem canonical hold)

section

variable {registry : ActionRegistryService} {name action : String}

theorem normalizeAction_ok_iff :
    registry.normalizeAction name = .ok action ↔ registry.aliases.lookup name = some action := by
  rw [ActionRegistryService.normalizeAction, ActionRegistry.normalizeAction, registry.validated]
  simp only [bind, Except.bind]
  cases registry.aliases.lookup name <;> simp [Except.mapError]

theorem normalizeAction_self (h : registry.normalizeAction name = .ok action) :
    registry.normalizeAction action = .ok action ∧ ∃ definition,
      registry.getAction action = .ok definition := by
  obtain ⟨-, hself, honly⟩ := enterActions_spec registry.validated
  have hmem : action ∈ (definitions registry.actions).map Prod.fst := by
    rcases honly name action (normalizeAction_ok_iff.mp h) with hempty | hmem
    · cases hempty
    · exact hmem
  obtain ⟨entry, hentry, rfl⟩ := mem_map.mp hmem
  have hcanonical : registry.normalizeAction entry.1 = .ok entry.1 :=
    normalizeAction_ok_iff.mpr (hself entry hentry)
  refine ⟨hcanonical, ?_⟩
  rw [ActionRegistryService.getAction, hcanonical]
  cases hget : registry.actions.get? entry.1 with
  | some definition => exact ⟨definition, by simp [bind, Except.bind, hget]⟩
  | none =>
    rw [Table.get?, Table.lookup_eq_none_iff_notMem] at hget
    refine absurd ?_ hget
    obtain ⟨item, hitem, rfl⟩ := mem_map.mp hentry
    exact mem_map_of_mem hitem

end


section

variable {kernel : PolicyKernelService} {request : PolicyResolveRequest} {decision : PolicyDecision}

def PolicyKernelService.Requests (kernel : PolicyKernelService)
    (request : PolicyResolveRequest) (action : String) : Prop :=
  ∃ name ∈ request.task.requestedActions, kernel.actionRegistry.normalizeAction name = .ok action

def PolicyKernelService.Unknown (kernel : PolicyKernelService)
    (request : PolicyResolveRequest) (action : String) : Prop :=
  action ∈ request.task.requestedActions ∧
    ∀ canonical, kernel.actionRegistry.normalizeAction action ≠ .ok canonical

/-- What `WorkspacePolicyService` says of the workspace of a request. -/
def PolicyKernelService.workspace (kernel : PolicyKernelService)
    (request : PolicyResolveRequest) : WorkspacePolicyResult :=
  kernel.workspacePolicy.evaluate request.workspacePath request.intent.requiresWorkspace

def PolicyKernelService.GateDenies (kernel : PolicyKernelService)
    (request : PolicyResolveRequest) (action : String) : Prop :=
  ∃ verdict, gateAction kernel.actionRegistry kernel.capabilityRegistry
    (request.constraints (kernel.workspace request).blocked) action = .ok verdict ∧
      verdict.denied.isSome = true

def PolicyKernelService.NeedsApproval (kernel : PolicyKernelService)
    (request : PolicyResolveRequest) (action : String) : Prop :=
  (∃ role, kernel.roleRegistry.getRole request.roleId = .ok role ∧
    ∃ name ∈ role.requiresApproval, kernel.actionRegistry.normalizeAction name = .ok action) ∨
  kernel.approvalPolicy.requiresApproval action = true

variable {action : String} {task : TaskContractInput}

variable {registry : ActionRegistryService} {requested : List String} {context : PolicyContext}

theorem mem_normalizedActions : action ∈ registry.normalizedActions requested ↔
      ∃ name ∈ requested, registry.normalizeAction name = .ok action := by
  rw [ActionRegistryService.normalizedActions, mem_filterMap]
  refine exists_congr fun name => and_congr_right fun _ => ?_
  cases registry.normalizeAction name <;> simp [Except.toOption]

theorem mem_unknownActions : action ∈ registry.unknownActions requested ↔
      action ∈ requested ∧ ∀ canonical, registry.normalizeAction action ≠ .ok canonical := by
  rw [ActionRegistryService.unknownActions, mem_filter]
  refine and_congr_right fun _ => ?_
  cases registry.normalizeAction action <;> simp [Except.toOption]

theorem PolicyKernelService.stages_of_resolve (h : kernel.resolve request = .ok decision) :
    ∃ context gate, buildContext kernel.actionRegistry kernel.roleRegistry request = .ok context ∧
      evaluateGate kernel.actionRegistry kernel.capabilityRegistry
        (request.constraints (kernel.workspace request).blocked) context.normalizedActions =
          .ok gate ∧
      buildEffectivePolicy kernel.actionRegistry kernel.approvalPolicy request.task context
        (kernel.workspace request).blocked gate = .ok decision.effectivePolicy ∧
      decision.status = decisionStatus (kernel.workspace request) context decision.effectivePolicy ∧
      decision.safeToExecute = Policy.safeToExecute kernel.approvalPolicy decision.status
        context.normalizedActions decision.allowedActions decision.approvalRequiredFor := by
  rw [PolicyKernelService.resolve, value_bind_ok_iff] at h
  obtain ⟨context, hcontext, h⟩ := h
  rw [value_bind_ok_iff] at h
  obtain ⟨gate, hgate, h⟩ := h
  rw [value_bind_ok_iff] at h
  obtain ⟨policy, hpolicy, h⟩ := h
  cases h
  exact ⟨context, gate, hcontext, hgate, hpolicy, rfl, rfl⟩

theorem buildContext_spec {roles : RoleRegistry}
    (h : buildContext registry roles request = .ok context) :
    context.normalizedActions = registry.normalizedActions request.task.requestedActions ∧
      context.unknownActions = registry.unknownActions request.task.requestedActions ∧
      roles.getRole request.roleId = .ok context.role := by
  rw [buildContext, value_bind_ok_iff] at h
  obtain ⟨role, hrole, h⟩ := h
  cases h
  exact ⟨rfl, rfl, hrole⟩

theorem mem_deniedActions {capabilities : CapabilityRegistryService}
    {constraints : GateConstraints} {actions : List String} {gate : CapabilityGateResult}
    (h : evaluateGate registry capabilities constraints actions = .ok gate) (action : String) :
    action ∈ gate.deniedActions ↔ action ∈ actions ∧
      ∃ verdict, gateAction registry capabilities constraints action = .ok verdict ∧
        verdict.denied.isSome = true := by
  have hname : ∀ item verdict, gateAction registry capabilities constraints item = .ok verdict →
      verdict.action = item := by
    intro item verdict hverdict
    rw [gateAction, value_bind_ok_iff] at hverdict
    obtain ⟨definition, -, hverdict⟩ := hverdict
    simp only at hverdict
    split at hverdict <;> cases hverdict <;> rfl
  rw [evaluateGate, value_bind_ok_iff] at h
  obtain ⟨verdicts, hverdicts, h⟩ := h
  cases h
  simp only [mem_map, mem_filter, mem_of_mapM_ok hverdicts]
  constructor
  · rintro ⟨verdict, ⟨⟨item, hitem, hverdict⟩, hdenied⟩, rfl⟩
    rw [hname item verdict hverdict]
    exact ⟨hitem, verdict, hverdict, hdenied⟩
  · rintro ⟨haction, verdict, hverdict, hdenied⟩
    exact ⟨verdict, ⟨⟨action, haction, hverdict⟩, hdenied⟩, hname action verdict hverdict⟩

/-- What a task denies without regard to the gate: writes that nobody asked for when it
only reads, and patches when it generates an artifact. -/
def PolicyKernelService.TaskDenies (kernel : PolicyKernelService)
    (request : PolicyResolveRequest) (action : String) : Prop :=
  (request.task.readOnly = true ∧ request.task.taskType ≠ .conversation ∧
      action ∈ ["write_files", "apply_patch"] ∧ ¬kernel.Requests request action) ∨
    (request.task.taskType = .artifactGeneration ∧ action = "apply_patch")

/-- What a decision says of the actions of its request. -/
structure PolicyKernelService.Decides (kernel : PolicyKernelService)
    (request : PolicyResolveRequest) (decision : PolicyDecision) : Prop where
  mem_allowed : ∀ action, action ∈ decision.allowedActions ↔
    kernel.Requests request action ∧ ¬kernel.GateDenies request action ∧
      ¬kernel.NeedsApproval request action
  mem_approval : ∀ action, action ∈ decision.approvalRequiredFor ↔
    kernel.Requests request action ∧ ¬kernel.GateDenies request action ∧
      kernel.NeedsApproval request action
  mem_denied : ∀ action, action ∈ decision.deniedActions ↔
    kernel.Unknown request action ∨
      (kernel.Requests request action ∧ kernel.GateDenies request action) ∨
      kernel.TaskDenies request action
  status_allowed : decision.status = .allowed ↔
    (kernel.workspace request).needsClarification = false ∧
      (kernel.workspace request).blocked = false ∧
      (∀ action, ¬kernel.Unknown request action) ∧
      (∀ action, kernel.Requests request action → action ∉ decision.deniedActions) ∧
      ∀ action, action ∉ decision.approvalRequiredFor
  safe : decision.safeToExecute = true ↔ decision.status = .allowed ∧
    (∃ action, kernel.Requests request action) ∧
    (∀ action, kernel.Requests request action ↔ action ∈ decision.allowedActions) ∧
    (∀ action, action ∉ decision.approvalRequiredFor) ∧
    ∀ action, kernel.Requests request action →
      kernel.approvalPolicy.neverAutoExecute action = false

theorem PolicyKernelService.Requests.not_unknown (h : kernel.Requests request action) :
    ¬kernel.Unknown request action := by
  obtain ⟨name, -, hname⟩ := h
  exact fun hunknown => hunknown.2 action (normalizeAction_self hname).1

theorem PolicyKernelService.gateDenies_iff : kernel.GateDenies request action ↔
      ∃ definition, kernel.actionRegistry.getAction action = .ok definition ∧
        (definition.capability.isNone = true ∨
          kernel.capabilityRegistry.capabilityExists (definition.capability.getD "") = false ∨
          (denyReason (request.constraints (kernel.workspace request).blocked)
            (definition.capability.getD "") definition.sideEffect).isSome = true) := by
  rw [PolicyKernelService.GateDenies, gateAction]
  cases hdefinition : kernel.actionRegistry.getAction action with
  | error error => simp [bind, Except.bind]
  | ok definition =>
    simp only [bind, Except.bind, Except.ok.injEq, exists_eq_left', Bool.or_eq_true,
      Bool.not_eq_true']
    split
    · rename_i hunknown
      simp only [Except.ok.injEq, exists_eq_left', Option.isSome_some, true_iff]
      exact hunknown.elim Or.inl fun h => Or.inr (Or.inl h)
    · rename_i hknown
      rw [not_or] at hknown
      simp [hknown.1, hknown.2]

theorem PolicyKernelService.Requests.gateDenies (h : kernel.Requests request action)
    (hblocked : (kernel.workspace request).blocked = true) : kernel.GateDenies request action := by
  obtain ⟨name, -, hname⟩ := h
  obtain ⟨-, definition, hdefinition⟩ := normalizeAction_self hname
  refine PolicyKernelService.gateDenies_iff.mpr ⟨definition, hdefinition, Or.inr (Or.inr ?_)⟩
  simp [denyReason, PolicyResolveRequest.constraints, hblocked]

theorem buildEffectivePolicy_spec {approval : ApprovalPolicyService} {blocked : Bool}
    {gate : CapabilityGateResult} {policy : EffectivePolicy}
    (h : buildEffectivePolicy registry approval task context blocked gate = .ok policy) :
    ∃ names, context.role.requiresApproval.mapM registry.normalizeAction = .ok names ∧
      (∀ action, action ∈ policy.allowedActions ↔ action ∈ context.normalizedActions ∧
        action ∉ deniedFirst context blocked gate ∧
        ¬(action ∈ names ∨ approval.requiresApproval action = true)) ∧
      (∀ action, action ∈ policy.approvalRequiredFor ↔ action ∈ context.normalizedActions ∧
        action ∉ deniedFirst context blocked gate ∧
        (action ∈ names ∨ approval.requiresApproval action = true)) ∧
      ∀ action, action ∈ policy.deniedActions ↔ action ∈ deniedFirst context blocked gate ∨
        action ∈ deniedReadOnly task context.normalizedActions ∨
        action ∈ deniedForArtifacts task := by
  rw [buildEffectivePolicy, value_bind_ok_iff] at h
  obtain ⟨roleForbidden, -, h⟩ := h
  rw [value_bind_ok_iff] at h
  obtain ⟨names, hnames, h⟩ := h
  cases h
  refine ⟨names, hnames, fun action => ?_, fun action => ?_, fun action => ?_⟩
  · simp only [mem_sortedSet, mem_filter, Bool.not_eq_true', contains_eq_mem,
      decide_eq_false_iff_not, Bool.or_eq_false_iff, not_or, Bool.not_eq_true, and_assoc]
  · simp only [mem_sortedSet, mem_filter, Bool.not_eq_true', contains_eq_mem,
      decide_eq_false_iff_not, Bool.or_eq_true, decide_eq_true_eq, and_assoc]
  · simp only [mem_sortedSet, mem_append, or_assoc]

theorem mem_deniedReadOnly {normalized : List String} :
    action ∈ deniedReadOnly task normalized ↔ task.readOnly = true ∧
      task.taskType ≠ .conversation ∧ action ∈ ["write_files", "apply_patch"] ∧
        action ∉ normalized := by
  rw [deniedReadOnly]
  cases task.readOnly <;> simp [and_comm, and_left_comm]

theorem mem_deniedForArtifacts : action ∈ deniedForArtifacts task ↔
      task.taskType = .artifactGeneration ∧ action = "apply_patch" := by
  rw [deniedForArtifacts]
  split <;> simp_all

theorem decisionStatus_eq_allowed_iff {workspace : WorkspacePolicyResult}
    {policy : EffectivePolicy} :
    decisionStatus workspace context policy = .allowed ↔
      workspace.needsClarification = false ∧ workspace.blocked = false ∧
      (∀ action, action ∉ context.unknownActions) ∧
      (∀ action ∈ context.normalizedActions, action ∉ policy.deniedActions) ∧
      ∀ action, action ∉ policy.approvalRequiredFor := by
  have hunknown : context.unknownActions.isEmpty = true ↔
      ∀ action, action ∉ context.unknownActions := by
    rw [List.isEmpty_iff, eq_nil_iff_forall_not_mem]
  have hdenied : context.normalizedActions.any policy.deniedActions.contains = false ↔
      ∀ action ∈ context.normalizedActions, action ∉ policy.deniedActions := by
    simp only [any_eq_false, contains_iff_mem]
  have happroval : policy.approvalRequiredFor.isEmpty = true ↔
      ∀ action, action ∉ policy.approvalRequiredFor := by
    rw [List.isEmpty_iff, eq_nil_iff_forall_not_mem]
  rw [decisionStatus, ← hunknown, ← hdenied, ← happroval]
  cases workspace.needsClarification
  case true => simp
  cases workspace.blocked
  case true => simp
  cases context.unknownActions.isEmpty
  case false => simp
  cases context.normalizedActions.any policy.deniedActions.contains
  case true => simp
  cases policy.approvalRequiredFor.isEmpty <;> simp

theorem safeToExecute_iff {approval : ApprovalPolicyService} {status : PolicyDecisionStatus}
    {allowed approvalRequired : List String} :
    safeToExecute approval status requested allowed approvalRequired = true ↔
      status = .allowed ∧ (∃ action, action ∈ requested) ∧
      (∀ action, action ∈ requested ↔ action ∈ allowed) ∧
      (∀ action, action ∉ approvalRequired) ∧
      ∀ action ∈ requested, approval.neverAutoExecute action = false := by
  rw [safeToExecute]
  simp only [Bool.and_eq_true, decide_eq_true_eq, all_eq_true, contains_iff_mem,
    Bool.not_eq_true', isEmpty_eq_false_iff_exists_mem, List.isEmpty_iff,
    eq_nil_iff_forall_not_mem, and_assoc]
  refine and_congr_right fun _ => and_congr_right fun _ => ?_
  rw [← and_assoc]
  refine and_congr_left fun _ => ?_
  exact ⟨fun h action => ⟨h.1 action, h.2 action⟩,
    fun h => ⟨fun action => (h action).mp, fun action => (h action).mpr⟩⟩

/-- Every decision of the kernel is made as `Decides` says. -/
theorem PolicyKernelService.decides (h : kernel.resolve request = .ok decision) :
    kernel.Decides request decision := by
  obtain ⟨context, gate, hcontext, hgate, hpolicy, hstatus, hsafe⟩ :=
    PolicyKernelService.stages_of_resolve h
  obtain ⟨hnormalized, hunknown, hrole⟩ := buildContext_spec hcontext
  obtain ⟨names, hnames, hallowed, happroval, hdenied⟩ := buildEffectivePolicy_spec hpolicy
  have hrequests : ∀ action, action ∈ context.normalizedActions ↔
      kernel.Requests request action := by
    intro action
    rw [hnormalized, mem_normalizedActions]
    rfl
  have hunknowns : ∀ action, action ∈ context.unknownActions ↔ kernel.Unknown request action := by
    intro action
    rw [hunknown, mem_unknownActions]
    rfl
  have hneeds : ∀ action, (action ∈ names ∨ kernel.approvalPolicy.requiresApproval action = true) ↔
        kernel.NeedsApproval request action := by
    intro action
    simp only [PolicyKernelService.NeedsApproval, hrole, mem_of_mapM_ok hnames, Except.ok.injEq,
      exists_eq_left']
  -- A protected workspace adds nothing to what the gate denies.
  have hfirst : ∀ action, action ∈ deniedFirst context (kernel.workspace request).blocked gate ↔
      kernel.Unknown request action ∨
        (kernel.Requests request action ∧ kernel.GateDenies request action) := by
    intro action
    rw [deniedFirst, mem_append, mem_append, hunknowns, mem_deniedActions hgate,
      hrequests, or_assoc]
    refine or_congr_right ⟨?_, Or.inl⟩
    rintro (hgated | hblocked)
    · exact hgated
    · split at hblocked
      · rename_i hworkspace
        have hrequested := (hrequests action).mp hblocked
        exact ⟨hrequested, hrequested.gateDenies hworkspace⟩
      · cases hblocked
  have hopen : ∀ action, kernel.Requests request action →
      (action ∉ deniedFirst context (kernel.workspace request).blocked gate ↔
        ¬kernel.GateDenies request action) := by
    intro action hrequested
    rw [hfirst, not_or, not_and]
    exact ⟨fun h => h.2 hrequested, fun h => ⟨hrequested.not_unknown, fun _ => h⟩⟩
  refine {
    mem_allowed := fun action => ?_
    mem_approval := fun action => ?_
    mem_denied := fun action => ?_
    status_allowed := ?_
    safe := ?_ }
  · rw [PolicyDecision.allowedActions, hallowed, hneeds, hrequests]
    refine and_congr_right fun hrequested => ?_
    rw [hopen action hrequested]
  · rw [PolicyDecision.approvalRequiredFor, happroval, hneeds, hrequests]
    refine and_congr_right fun hrequested => ?_
    rw [hopen action hrequested]
  · rw [PolicyDecision.deniedActions, hdenied, hfirst, mem_deniedReadOnly, hrequests,
      mem_deniedForArtifacts, or_assoc]
    rfl
  · rw [hstatus, decisionStatus_eq_allowed_iff]
    simp only [hrequests, hunknowns]
    rfl
  · rw [hsafe, safeToExecute_iff]
    simp only [hrequests]

end

/-- The capabilities of `config/policies/action_registry.yaml`, in the order of its
actions. -/
def shippedCapabilitiesOfActions : List String :=
  ["read_workspace", "read_workspace", "read_workspace", "read_workspace", "write_workspace",
    "write_workspace", "shell", "shell", "rag", "memory_write", "git", "git", "patch_preview",
    "memory_read", "git", "network", "read_workspace", "read_workspace", "read_workspace",
    "read_workspace", "model_inference", "read_workspace", "read_workspace"]

/-- `config/policies/action_registry.yaml`. -/
def shippedActions : ActionRegistryService where
  actions := {
    entries := (Governance.actionRegistry.zip shippedCapabilitiesOfActions).map
      fun (entry, capability) => (entry.1, { entry.2 with capability := some capability })
    nodup := by decide }
  aliases := (ActionRegistry.validate Governance.actionRegistry).toOption.getD []
  validated := by rfl

/-- `config/policies/capability_registry.yaml`. -/
def shippedCapabilities : CapabilityRegistryService where
  capabilities := {
    entries := [("read_workspace", ["scan_workspace", "search_workspace"]),
      ("write_workspace", ["workspace_write", "write_file", "create_file", "modify_file",
        "create_directory"]),
      ("shell", ["run_approved_shell", "governed_shell_request", "run_shell_readonly",
        "run_command"]),
      ("git", []), ("network", []), ("rag", []), ("memory_read", []), ("memory_write", []),
      ("model_inference", []),
      ("artifact_write", ["artifact_create", "artifact_request", "create_artifact",
        "artifact_generate", "artifact_generation", "artifact_upload", "artifact_download",
        "report_generate", "report_generation", "generate_report"]),
      ("patch_preview", ["create_patch_preview"]), ("patch_apply", []),
      ("delegation", ["delegate"]), ("validation", ["validate_changes", "validate_runtime"]),
      ("build", ["run_build", "build_project", "run_shell_build"]),
      ("test", ["run_test", "run_tests", "test_project", "run_shell_test"])]
    nodup := by decide }
  validated := by decide

/-- `config/policies/approval_policy.yaml`. -/
def shippedApprovals : ApprovalPolicyService where
  actionRegistry := shippedActions
  actionsRequiringApproval := ["write_files", "apply_patch", "run_command", "web_request",
    "git_commit", "git_push", "write_memory"]
  neverAutoExecuteActions := ["apply_patch", "git_push"]
  validated := by decide

/-- `config/roles/default_roles.yaml`. -/
def shippedRoles : RoleRegistry where
  roles := {
    entries :=
      (["planner", "analyst", "reporter", "interpreter", "speaker", "supervisor", "debugger",
        "executor", "observer", "reviewer", "validator", "retriever", "reranker",
        "memory_curator", "patch_reviewer", "intent_classifier", "small_code_assistant",
        "coder", "patch_planner", "code_reviewer", "patch_quality_reviewer", "security_guard",
        "vision_analyst", "ocr_specialist", "document_reader"].map fun roleId => (roleId, {})) ++
      (["semantic_interpreter", "mission_completion_requirement_extractor",
        "mission_completion_evidence_binder"].map fun roleId =>
          (roleId, { forbiddenActions := ["write_files", "apply_patch", "run_command",
            "git_commit", "git_push", "write_memory", "web_request"] })) ++
      [("artifact_writer",
        { forbiddenActions := ["apply_patch", "git_commit", "git_push", "write_files"] })]
    nodup := by decide }
  actionRegistry := shippedActions

def shippedKernel : PolicyKernelService where
  actionRegistry := shippedActions
  capabilityRegistry := shippedCapabilities
  approvalPolicy := shippedApprovals
  roleRegistry := shippedRoles
  workspacePolicy := {
    configPath := "protected_workspaces.yaml"
    protectedRoots := [⟨"C:\\Windows", true⟩, ⟨"C:\\Program Files", true⟩,
      ⟨"C:\\Program Files (x86)", true⟩, ⟨"C:\\PinhoabacaxiAI", false⟩]
    isUnder := fun path root => path = root || (root ++ "\\").isPrefixOf path }

end AIpinho.Policy
