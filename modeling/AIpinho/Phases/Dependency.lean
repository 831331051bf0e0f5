import AIpinho.Lib.Json

/-!
# Dependencies between phases

`PhaseDependencyEvaluationService` evaluates what an upstream phase has left against the
requirements of a downstream phase, turns an evaluation into an admission, and validates the
admission before the downstream phase starts.
-/

namespace AIpinho.Phases

open Lib

/-- `LimitationCompatibility`. -/
inductive Impact
  | compatible | compatibleWithConstraint | incompatible | notApplicable | unknown
  deriving DecidableEq

/-- The source of a limitation assessment. -/
inductive AssessmentSource
  | downstreamContract | semanticReasoner | upstreamDisclosure | unclassified

/-- `DependencyAdmissionDecision`, as far as it is returned. -/
inductive Decision
  | admitted | admittedWithConstraints | blocked | insufficientEvidence
  deriving DecidableEq

def Decision.admits : Decision → Bool
  | .admitted | .admittedWithConstraints => true
  | .blocked | .insufficientEvidence => false

/-- The authority that has written the requirements. -/
inductive AuthoritySource
  | compiledTaskSemantics | compiledTaskSemanticsWithSystemInvariants | trustedRegistry
  | workflowContract | systemInvariant
  deriving DecidableEq

/-- `DownstreamPhaseRequirements`. -/
structure Requirements where
  contractId : String
  contractVersion : String
  consumerPhaseId : String
  operationType : String
  /-- Who has written the requirements. -/
  authoritySource : AuthoritySource
  allowedDependencyStatuses : List String
  requiredDownstreamUses : List String
  requiredUseSafety : List (String × List Json)
  requiredSemanticProperties : List (String × List Json)
  requiredCapabilities : List String
  limitationCompatibility : List (String × Impact)
  baseConstraints : List String
  riskConstraints : List String
  prohibitedEffects : List String
  evidenceRequired : Bool
  authorizationTtlSeconds : ℤ
  sourcePlanId : Option String
  sourceExecutionId : Option String
  sourceSemanticsSha256 : Option String
  frozenAt : Option String
  requirementProvenance : List String
  /-- The remaining fields, which only the hash reads. -/
  otherFields : Json

/-- `PhaseDependencySnapshot`. -/
structure Snapshot where
  dependencyId : String
  producerTaskRunId : String
  producerOperationId : Option String
  producerPhaseId : String
  upstreamResultRef : String
  dependencyStatus : String
  evidenceRefs : List String
  limitations : List String
  requiredDisclosures : List String
  missingTruth : List String
  riskConstraints : List String
  allowedDownstreamUses : List String
  forbiddenDownstreamUses : List String
  forbiddenClaims : List String
  useSafety : List (String × Json)
  semanticProperties : List (String × Json)

/-- The status of a check. -/
inductive CheckStatus
  | satisfied | blocked | unknown
  deriving DecidableEq

/-- `DependencyRequirementCheck`. -/
structure RequirementCheck where
  requirement : String
  expected : List Json
  observed : Json
  status : CheckStatus
  reasonCode : Option String

structure LimitationAssessment where
  limitation : String
  impact : Impact
  source : AssessmentSource
  constraints : List String

/-- The identities that an evaluation binds. -/
structure Identities where
  consumerTaskRunId : String
  consumerOperationId : String
  consumerOperationType : String
  producerTaskRunId : String
  producerOperationId : Option String
  dependencyId : String
  producerPhaseId : String
  consumerPhaseId : String
  deriving DecidableEq

/-- `PhaseDependencyEvaluation`. -/
structure Evaluation where
  evaluationId : String
  identities : Identities
  upstreamResultRef : String
  downstreamContractId : String
  downstreamContractVersion : String
  requirementsSha256 : String
  dependencyStatus : String
  isCompleted : Bool
  decision : Decision
  reasonCodes : List String
  requirementChecks : List RequirementCheck
  limitationAssessments : List LimitationAssessment
  missingTruth : List String
  riskConstraints : List String
  constraints : List String
  evidenceRefs : List String
  evaluatedAt : ℤ
  expiresAt : ℤ
  authoritySha256 : String

/-- `PhaseDependencyAdmission`. -/
structure Admission where
  admissionId : String
  evaluationId : String
  identities : Identities
  downstreamContractId : String
  requirementsSha256 : String
  evaluationAuthoritySha256 : String
  authorized : Bool
  decision : Decision
  reasonCode : String
  missingTruth : List String
  riskConstraints : List String
  constraints : List String
  evidenceRefs : List String
  admittedAt : ℤ
  expiresAt : ℤ
  authoritySha256 : String

/-- What is hashed. -/
inductive Payload
  | requirements (requirements : Requirements)
  | evaluation (evaluation : Evaluation)
  | admission (admission : Admission)

/-- What the limitation resolver says about a limitation. -/
inductive ResolverAnswer
  | insufficientEvidence (reasonCode : String)
  | assessed (impact : Impact) (source : AssessmentSource) (constraints : List String)
  | notAssessed

/-- What the service asks others for. -/
structure PhaseServices where
  strip : String → String
  /-- The hash of the canonical encoding of a record. -/
  sha256 : Payload → String
  /-- `LimitationCompatibilityResolverService`. -/
  resolveLimitation : Requirements → String → ResolverAnswer

variable (services : PhaseServices)

/-- `_model_sha256` of an evaluation, without its own hash. -/
def PhaseServices.evaluationSha256 (evaluation : Evaluation) : String :=
  services.sha256 (.evaluation { evaluation with authoritySha256 := "" })

/-- `_model_sha256` of an admission, without its own hash. -/
def PhaseServices.admissionSha256 (admission : Admission) : String :=
  services.sha256 (.admission { admission with authoritySha256 := "" })

def PhaseServices.requirementsSha256 (requirements : Requirements) : String :=
  services.sha256 (.requirements requirements)

/-- `_unique`. -/
def uniqueTexts (values : List String) : List String := (values.filter (· ≠ "")).eraseDups

/-- What the evaluation collects. -/
structure Findings where
  checks : List RequirementCheck
  blocking : List String
  /-- Reasons why nothing can be said. -/
  unknown : List String
  constraints : List String
  assessments : List LimitationAssessment

namespace Findings

def empty : Findings := ⟨[], [], [], [], []⟩

def and (a b : Findings) : Findings :=
  ⟨a.checks ++ b.checks, a.blocking ++ b.blocking, a.unknown ++ b.unknown,
    a.constraints ++ b.constraints, a.assessments ++ b.assessments⟩

def all (parts : List Findings) : Findings := parts.foldr Findings.and empty

def ofUnknown (reason : String) : Findings := { empty with unknown := [reason] }

end Findings

def checkBinding (value name : String) : Findings :=
  if services.strip value = "" then .ofUnknown ("PHASE_DEPENDENCY_BINDING_MISSING:" ++ name)
  else .empty

def checkValue (name : String) (expected : List Json) (observed : Json) (blockedReason : String) :
    Findings :=
  if expected.any (observed == ·) then
    { Findings.empty with checks := [⟨name, expected, observed, .satisfied, none⟩] }
  else
    { Findings.empty with
      checks := [⟨name, expected, observed, .blocked, some blockedReason⟩]
      blocking := [blockedReason] }

/-- The two mappings of a snapshot that are checked. -/
inductive Namespace
  | useSafety | semanticProperty

def Namespace.text : Namespace → String
  | .useSafety => "use_safety"
  | .semanticProperty => "semantic_property"

def Namespace.unknownReason : Namespace → String
  | .useSafety => "PHASE_DEPENDENCY_REQUIRED_USE_SAFETY_UNKNOWN"
  | .semanticProperty => "PHASE_DEPENDENCY_REQUIRED_SEMANTIC_PROPERTY_UNKNOWN"

/-- The reason if a value is not among the expected ones. -/
def Namespace.unsatisfiedReason : Namespace → String
  | .useSafety => "PHASE_DEPENDENCY_REQUIRED_USE_SAFETY_UNSATISFIED"
  | .semanticProperty => "PHASE_DEPENDENCY_REQUIRED_SEMANTIC_PROPERTY_UNSATISFIED"

def checkMappingValue (ns : Namespace) (mapping : List (String × Json))
    (required : String × List Json) : Findings :=
  let name := ns.text ++ ":" ++ required.1
  match mapping.lookup required.1 with
  | none =>
    { Findings.empty with
      checks := [⟨name, required.2, .null, .unknown, some ns.unknownReason⟩]
      unknown := [ns.unknownReason] }
  | some observed => checkValue name required.2 observed ns.unsatisfiedReason

variable (requirements : Requirements)

def compiledRequirementReason : Option String :=
  if requirements.authoritySource ≠ .compiledTaskSemantics ∧
    requirements.authoritySource ≠ .compiledTaskSemanticsWithSystemInvariants then none
  else if [requirements.sourcePlanId, requirements.sourceExecutionId,
    requirements.sourceSemanticsSha256, requirements.frozenAt].any (·.getD "" = "") then
    some "PHASE_DEPENDENCY_COMPILED_REQUIREMENTS_SOURCE_BINDING_REQUIRED"
  else
    let required := ["operation_type", "allowed_dependency_statuses", "evidence_required"] ++
      requirements.requiredDownstreamUses.map ("required_downstream_use:" ++ ·) ++
      requirements.requiredUseSafety.map ("required_use_safety:" ++ ·.1) ++
      requirements.requiredSemanticProperties.map ("required_semantic_property:" ++ ·.1) ++
      requirements.requiredCapabilities.map ("required_capability:" ++ ·) ++
      requirements.limitationCompatibility.map ("limitation_compatibility:" ++ ·.1) ++
      requirements.baseConstraints.map ("base_constraint:" ++ ·) ++
      requirements.riskConstraints.map ("risk_constraint:" ++ ·) ++
      requirements.prohibitedEffects.map ("prohibited_effect:" ++ ·)
    if required.all requirements.requirementProvenance.contains then none
    else some "PHASE_DEPENDENCY_COMPILED_REQUIREMENTS_PROVENANCE_REQUIRED"

variable (snapshot : Snapshot)

def checkEvidence : Findings :=
  if requirements.evidenceRequired && snapshot.evidenceRefs.isEmpty then
    { Findings.empty with
      checks := [⟨"evidence_refs", [.str "non_empty"], .list [], .unknown,
        some "PHASE_DEPENDENCY_EVIDENCE_REQUIRED"⟩]
      unknown := ["PHASE_DEPENDENCY_EVIDENCE_REQUIRED"] }
  else .empty

def checkUse (requiredUse : String) : Findings :=
  let allowed := snapshot.allowedDownstreamUses.contains requiredUse
  let reason := "PHASE_DEPENDENCY_DOWNSTREAM_USE_NOT_ALLOWED"
  { Findings.empty with
    checks := [⟨"allowed_downstream_use:" ++ requiredUse, [.bool true], .bool allowed,
      if allowed then .satisfied else .blocked, if allowed then none else some reason⟩]
    blocking := (if allowed then [] else [reason]) ++
      if snapshot.forbiddenDownstreamUses.contains requiredUse then
        ["PHASE_DEPENDENCY_DOWNSTREAM_USE_FORBIDDEN"] else [] }

def insufficientReason (limitations : List String) : Option String :=
  limitations.findSome? fun limitation =>
    match services.resolveLimitation requirements limitation with
    | .insufficientEvidence reason => some reason
    | _ => none

def unclassifiedLimitations : List String :=
  snapshot.limitations.filter fun limitation =>
    (requirements.limitationCompatibility.lookup limitation).isNone

def checkResolver : Findings :=
  match insufficientReason services requirements
    (unclassifiedLimitations requirements snapshot) with
  | some reason => .ofUnknown
      (if reason = "" then "PHASE_DEPENDENCY_LIMITATION_COMPATIBILITY_UNKNOWN" else reason)
  | none => .empty

def assessLimitation (limitation : String) : Impact × AssessmentSource × List String :=
  match requirements.limitationCompatibility.lookup limitation with
  | some impact => (impact, .downstreamContract, [])
  | none =>
    match services.resolveLimitation requirements limitation with
    | .assessed impact source constraints => (impact, source, constraints.filter (· ≠ ""))
    | _ => (.unknown, .unclassified, [])

def checkLimitation (limitation : String) : Findings :=
  let (impact, source, constraints) := assessLimitation services requirements limitation
  let constraints :=
    if impact = .compatibleWithConstraint then
      uniqueTexts (constraints ++ ["disclose_limitation:" ++ limitation])
    else constraints
  { Findings.empty with
    blocking :=
      if impact = .incompatible then ["PHASE_DEPENDENCY_LIMITATION_INCOMPATIBLE"] else []
    unknown :=
      if impact = .unknown then ["PHASE_DEPENDENCY_LIMITATION_COMPATIBILITY_UNKNOWN"] else []
    constraints := if impact = .compatibleWithConstraint then constraints else []
    assessments := [⟨limitation, impact, source, constraints⟩] }

/-- Who consumes, and when and as what the evaluation is recorded. -/
structure EvaluateCall where
  snapshot : Snapshot
  requirements : Requirements
  consumerTaskRunId : String
  consumerOperationId : String
  consumerOperationType : String
  evaluationId : String
  now : ℤ

def EvaluateCall.riskConstraints (call : EvaluateCall) : List String :=
  uniqueTexts (call.requirements.riskConstraints ++ call.snapshot.riskConstraints)

variable (call : EvaluateCall)

def EvaluateCall.findings : Findings :=
  let snapshot := call.snapshot
  let requirements := call.requirements
  .all [
    { Findings.empty with
      constraints := requirements.baseConstraints ++
        requirements.prohibitedEffects.map ("prohibit_effect:" ++ ·) ++
        snapshot.requiredDisclosures.map ("disclose_limitation:" ++ ·) ++
        call.riskConstraints.map ("risk_constraint:" ++ ·) },
    { Findings.empty with unknown := (compiledRequirementReason requirements).toList },
    checkBinding services snapshot.dependencyId "dependency_id",
    checkBinding services snapshot.producerTaskRunId "producer_task_run_id",
    checkBinding services (snapshot.producerOperationId.getD "") "producer_operation_id",
    checkBinding services snapshot.producerPhaseId "producer_phase_id",
    checkBinding services snapshot.upstreamResultRef "upstream_result_ref",
    checkBinding services call.consumerTaskRunId "consumer_task_run_id",
    checkBinding services call.consumerOperationId "consumer_operation_id",
    checkBinding services call.consumerOperationType "consumer_operation_type",
    checkBinding services requirements.consumerPhaseId "consumer_phase_id",
    checkValue "consumer_operation_type" [.str requirements.operationType]
      (.str call.consumerOperationType) "PHASE_DEPENDENCY_DOWNSTREAM_OPERATION_MISMATCH",
    checkValue "dependency_status" (requirements.allowedDependencyStatuses.map .str)
      (.str snapshot.dependencyStatus) "PHASE_DEPENDENCY_NOT_SATISFIED",
    checkEvidence requirements snapshot,
    .all (requirements.requiredDownstreamUses.map (checkUse snapshot)),
    .all (requirements.requiredUseSafety.map
      (checkMappingValue .useSafety snapshot.useSafety)),
    .all (requirements.requiredSemanticProperties.map
      (checkMappingValue .semanticProperty snapshot.semanticProperties)),
    checkResolver services requirements snapshot,
    .all (snapshot.limitations.map (checkLimitation services requirements)),
    { Findings.empty with constraints := snapshot.forbiddenClaims.map ("forbid_claim:" ++ ·) }]

def EvaluateCall.verdict : Decision × Bool × List String :=
  let findings := call.findings services
  let reasons := uniqueTexts (findings.blocking ++ findings.unknown)
  if !findings.blocking.isEmpty then (.blocked, true, reasons)
  else if !findings.unknown.isEmpty then (.insufficientEvidence, false, reasons)
  else if !findings.constraints.isEmpty ∨
    call.snapshot.dependencyStatus = "satisfied_with_limitations" then
    (.admittedWithConstraints, true, ["PHASE_DEPENDENCY_ADMITTED_WITH_CONSTRAINTS"])
  else (.admitted, true, ["PHASE_DEPENDENCY_ADMITTED"])

def EvaluateCall.identities : Identities :=
  { consumerTaskRunId := call.consumerTaskRunId
    consumerOperationId := call.consumerOperationId
    consumerOperationType := call.consumerOperationType
    producerTaskRunId := call.snapshot.producerTaskRunId
    producerOperationId := call.snapshot.producerOperationId
    dependencyId := call.snapshot.dependencyId
    producerPhaseId := call.snapshot.producerPhaseId
    consumerPhaseId := call.requirements.consumerPhaseId }

/-- `evaluate`. -/
def evaluate : Evaluation :=
  let findings := call.findings services
  let (decision, isCompleted, reasonCodes) := call.verdict services
  let evaluation : Evaluation :=
    { evaluationId := call.evaluationId
      identities := call.identities
      upstreamResultRef := call.snapshot.upstreamResultRef
      downstreamContractId := call.requirements.contractId
      downstreamContractVersion := call.requirements.contractVersion
      requirementsSha256 := services.requirementsSha256 call.requirements
      dependencyStatus := call.snapshot.dependencyStatus
      isCompleted := isCompleted
      decision := decision
      reasonCodes := reasonCodes
      requirementChecks := findings.checks
      limitationAssessments := findings.assessments
      missingTruth := uniqueTexts call.snapshot.missingTruth
      riskConstraints := call.riskConstraints
      constraints := uniqueTexts findings.constraints
      evidenceRefs := uniqueTexts call.snapshot.evidenceRefs
      evaluatedAt := call.now
      expiresAt := call.now + max 1 call.requirements.authorizationTtlSeconds * 1000000
      authoritySha256 := "" }
  { evaluation with authoritySha256 := services.evaluationSha256 evaluation }

/-- An authorization of an evaluation for the identities that are presented. -/
structure AuthorizeCall where
  evaluation : Evaluation
  requirements : Requirements
  presented : Identities
  now : ℤ
  admissionId : String
  admittedAt : ℤ

def authorizationFailure (consumed : List String) (call : AuthorizeCall) : Option String :=
  let evaluation := call.evaluation
  if evaluation.authoritySha256 ≠ services.evaluationSha256 evaluation then
    some "PHASE_DEPENDENCY_EVALUATION_TAMPERED"
  else if !evaluation.isCompleted then some "PHASE_DEPENDENCY_EVALUATION_INCOMPLETE"
  else if consumed.contains evaluation.evaluationId then
    some "PHASE_DEPENDENCY_EVALUATION_REPLAYED"
  else if evaluation.expiresAt ≤ call.now then some "PHASE_DEPENDENCY_EVALUATION_STALE"
  else if evaluation.identities ≠ call.presented ∨
    evaluation.downstreamContractId ≠ call.requirements.contractId ∨
    evaluation.downstreamContractVersion ≠ call.requirements.contractVersion ∨
    evaluation.requirementsSha256 ≠ services.requirementsSha256 call.requirements then
    some "PHASE_DEPENDENCY_EVALUATION_BINDING_MISMATCH"
  else none

/-- `authorize`, without a shared set if `consumed`
is missing. -/
def authorize (consumed : Option (List String)) (call : AuthorizeCall) :
    Admission × Option (List String) :=
  let evaluation := call.evaluation
  let failure := authorizationFailure services (consumed.getD []) call
  let authorized := failure.isNone && evaluation.decision.admits
  let reason := failure.or
    (if authorized then none
      else some (evaluation.reasonCodes.headD "PHASE_DEPENDENCY_NOT_ADMITTED"))
  let admission : Admission :=
    { admissionId := call.admissionId
      evaluationId := evaluation.evaluationId
      identities := evaluation.identities
      downstreamContractId := evaluation.downstreamContractId
      requirementsSha256 := evaluation.requirementsSha256
      evaluationAuthoritySha256 := evaluation.authoritySha256
      authorized := authorized
      decision := evaluation.decision
      reasonCode := reason.getD
        (if evaluation.decision = .admittedWithConstraints then
          "PHASE_DEPENDENCY_ADMITTED_WITH_CONSTRAINTS" else "PHASE_DEPENDENCY_ADMITTED")
      missingTruth := evaluation.missingTruth
      riskConstraints := evaluation.riskConstraints
      constraints := if authorized then evaluation.constraints else []
      evidenceRefs := if authorized then evaluation.evidenceRefs else []
      admittedAt := call.admittedAt
      expiresAt := evaluation.expiresAt
      authoritySha256 := "" }
  ({ admission with authoritySha256 := services.admissionSha256 admission },
    if authorized then consumed.map (evaluation.evaluationId :: ·) else consumed)

/-- `validate_admission`: whether the admission is
accepted, and why not. -/
def validateAdmission (admission : Admission) (evaluation : Evaluation)
    (requirements : Requirements) (presented : Identities) (now : ℤ) : Bool × Option String :=
  if admission.authoritySha256 ≠ services.admissionSha256 admission then
    (false, some "PHASE_DEPENDENCY_ADMISSION_TAMPERED")
  else if evaluation.authoritySha256 ≠ services.evaluationSha256 evaluation then
    (false, some "PHASE_DEPENDENCY_EVALUATION_TAMPERED")
  else if admission.evaluationId ≠ evaluation.evaluationId ∨
    admission.evaluationAuthoritySha256 ≠ evaluation.authoritySha256 then
    (false, some "PHASE_DEPENDENCY_EVALUATION_BINDING_MISMATCH")
  else if admission.expiresAt ≤ now then (false, some "PHASE_DEPENDENCY_ADMISSION_STALE")
  else if admission.identities ≠ presented ∨
    admission.downstreamContractId ≠ requirements.contractId ∨
    admission.requirementsSha256 ≠ services.requirementsSha256 requirements then
    (false, some "PHASE_DEPENDENCY_ADMISSION_BINDING_MISMATCH")
  else if !admission.authorized then (false, some admission.reasonCode)
  else (true, none)

/-- Authorizations one after the other with a shared set of consumed evaluations. -/
def authorizeAll (services : PhaseServices) : List String → List AuthorizeCall → List Admission
  | _, [] => []
  | consumed, call :: calls =>
    let (admission, consumed') := authorize services (some consumed) call
    admission :: authorizeAll services (consumed'.getD consumed) calls

end AIpinho.Phases
