import AIpinho.Phases.Dependency

/-!
# Evaluations fail closed and are monotone

An evaluation admits the downstream phase exactly if every requirement is met and every
limitation is known to be compatible. More limitations and less evidence only cost admission.
-/

namespace AIpinho.Phases

open List Lib

/-- The snapshot has one of the expected values under a name. -/
def HasValue (mapping : List (String × Json)) (required : String × List Json) : Prop :=
  ∃ observed, mapping.lookup required.1 = some observed ∧ required.2.any (observed == ·) = true

variable (services : PhaseServices)

def IsCompatible (requirements : Requirements) (limitation : String) : Prop :=
  (assessLimitation services requirements limitation).1 ≠ .unknown ∧
    (assessLimitation services requirements limitation).1 ≠ .incompatible

/-- Everything that the requirements ask for. -/
structure EvaluateCall.Meets (services : PhaseServices) (call : EvaluateCall) : Prop where
  compiled : compiledRequirementReason call.requirements = none
  bindings : ∀ value ∈ [call.snapshot.dependencyId, call.snapshot.producerTaskRunId,
    call.snapshot.producerOperationId.getD "", call.snapshot.producerPhaseId,
    call.snapshot.upstreamResultRef, call.consumerTaskRunId, call.consumerOperationId,
    call.consumerOperationType, call.requirements.consumerPhaseId], services.strip value ≠ ""
  operationType : call.consumerOperationType = call.requirements.operationType
  dependencyStatus : call.snapshot.dependencyStatus ∈ call.requirements.allowedDependencyStatuses
  evidence : call.requirements.evidenceRequired = true → call.snapshot.evidenceRefs ≠ []
  uses : ∀ use ∈ call.requirements.requiredDownstreamUses,
    use ∈ call.snapshot.allowedDownstreamUses ∧ use ∉ call.snapshot.forbiddenDownstreamUses
  useSafety : ∀ required ∈ call.requirements.requiredUseSafety,
    HasValue call.snapshot.useSafety required
  semanticProperties : ∀ required ∈ call.requirements.requiredSemanticProperties,
    HasValue call.snapshot.semanticProperties required
  limitations : ∀ limitation ∈ call.snapshot.limitations,
    IsCompatible services call.requirements limitation

/-- A snapshot with more limitations, missing truths, risk constraints or forbidden
uses, or with less evidence or fewer allowed uses. -/
structure Snapshot.Degrades (s s' : Snapshot) : Prop where
  limitations : s.limitations ⊆ s'.limitations
  missingTruth : s.missingTruth ⊆ s'.missingTruth
  riskConstraints : s.riskConstraints ⊆ s'.riskConstraints
  forbiddenDownstreamUses : s.forbiddenDownstreamUses ⊆ s'.forbiddenDownstreamUses
  evidenceRefs : s'.evidenceRefs ⊆ s.evidenceRefs
  allowedDownstreamUses : s'.allowedDownstreamUses ⊆ s.allowedDownstreamUses
  others : s' = { s with
    limitations := s'.limitations
    missingTruth := s'.missingTruth
    riskConstraints := s'.riskConstraints
    forbiddenDownstreamUses := s'.forbiddenDownstreamUses
    evidenceRefs := s'.evidenceRefs
    allowedDownstreamUses := s'.allowedDownstreamUses }

def Findings.Clean (findings : Findings) : Prop := findings.blocking = [] ∧ findings.unknown = []

def Findings.Satisfied (findings : Findings) : Prop :=
  (∀ check ∈ findings.checks, check.status = .satisfied) ∧
    ∀ a ∈ findings.assessments, a.impact ≠ .unknown ∧ a.impact ≠ .incompatible

namespace Findings

theorem clean_and (a b : Findings) : (a.and b).Clean ↔ a.Clean ∧ b.Clean := by
  simp only [Clean, Findings.and, append_eq_nil_iff]
  tauto

theorem clean_all (parts : List Findings) : (all parts).Clean ↔ ∀ part ∈ parts, part.Clean := by
  induction parts with
  | nil => simp [all, Clean, empty]
  | cons part parts ih =>
    rw [all, foldr_cons, ← all, clean_and, ih, forall_mem_cons]

theorem satisfied_and {a b : Findings} (ha : a.Satisfied) (hb : b.Satisfied) :
    (a.and b).Satisfied := by
  refine ⟨fun check hcheck => ?_, fun assessment hassessment => ?_⟩
  · rcases mem_append.mp hcheck with h | h
    · exact ha.1 check h
    · exact hb.1 check h
  · rcases mem_append.mp hassessment with h | h
    · exact ha.2 assessment h
    · exact hb.2 assessment h

theorem satisfied_all {parts : List Findings} (h : ∀ part ∈ parts, part.Satisfied) :
    (all parts).Satisfied := by
  induction parts with
  | nil => simp [all, Satisfied, empty]
  | cons part parts ih =>
    rw [forall_mem_cons] at h
    rw [all, foldr_cons, ← all]
    exact satisfied_and h.1 (ih h.2)

end Findings

theorem checkBinding_clean_iff (value name : String) :
    (checkBinding services value name).Clean ↔ services.strip value ≠ "" := by
  unfold checkBinding
  split <;> simp_all [Findings.Clean, Findings.ofUnknown, Findings.empty]

theorem checkValue_clean_iff (name : String) (expected : List Json) (observed : Json)
    (reason : String) :
    (checkValue name expected observed reason).Clean ↔ expected.any (observed == ·) = true := by
  unfold checkValue
  split <;> simp_all [Findings.Clean, Findings.empty]

theorem checkMappingValue_clean_iff (ns : Namespace) (mapping : List (String × Json))
    (required : String × List Json) :
    (checkMappingValue ns mapping required).Clean ↔ HasValue mapping required := by
  unfold checkMappingValue HasValue
  cases mapping.lookup required.1 with
  | none => simp [Findings.Clean, Findings.empty]
  | some observed => simp [checkValue_clean_iff]

theorem checkEvidence_clean_iff (requirements : Requirements) (snapshot : Snapshot) :
    (checkEvidence requirements snapshot).Clean ↔
      (requirements.evidenceRequired = true → snapshot.evidenceRefs ≠ []) := by
  unfold checkEvidence
  split <;> simp_all [Findings.Clean, Findings.empty]

theorem checkUse_clean_iff (snapshot : Snapshot) (use : String) : (checkUse snapshot use).Clean ↔
      use ∈ snapshot.allowedDownstreamUses ∧ use ∉ snapshot.forbiddenDownstreamUses := by
  unfold checkUse
  simp [Findings.Clean, Findings.empty]

theorem checkLimitation_clean_iff (requirements : Requirements) (limitation : String) :
    (checkLimitation services requirements limitation).Clean ↔
      IsCompatible services requirements limitation := by
  unfold checkLimitation IsCompatible
  simp only [Findings.Clean]
  cases (assessLimitation services requirements limitation).1 <;> simp

variable {requirements : Requirements} {snapshot : Snapshot}

theorem checkResolver_clean {services : PhaseServices}
    (h : ∀ limitation ∈ snapshot.limitations, IsCompatible services requirements limitation) :
    (checkResolver services requirements snapshot).Clean := by
  have hnone : insufficientReason services requirements
      (unclassifiedLimitations requirements snapshot) = none := by
    rw [insufficientReason, findSome?_eq_none_iff]
    intro limitation hlimitation
    rw [unclassifiedLimitations, mem_filter, Option.isNone_iff_eq_none] at hlimitation
    obtain ⟨hmem, hlookup⟩ := hlimitation
    have hcompatible := (h limitation hmem).1
    rw [assessLimitation, hlookup] at hcompatible
    dsimp only at hcompatible
    split
    · rename_i reason hanswer
      rw [hanswer] at hcompatible
      exact absurd rfl hcompatible
    · rfl
  rw [checkResolver, hnone]
  exact ⟨rfl, rfl⟩

theorem satisfied_of_no_checks {findings : Findings} (hchecks : findings.checks = [])
    (hassessments : findings.assessments = []) : findings.Satisfied := by
  simp [Findings.Satisfied, hchecks, hassessments]

theorem checkBinding_satisfied (value name : String) :
    (checkBinding services value name).Satisfied := by
  unfold checkBinding
  split <;> exact satisfied_of_no_checks rfl rfl

theorem checkResolver_satisfied (requirements : Requirements) (snapshot : Snapshot) :
    (checkResolver services requirements snapshot).Satisfied := by
  unfold checkResolver
  split <;> exact satisfied_of_no_checks rfl rfl

theorem checkValue_satisfied {name : String} {expected : List Json} {observed : Json}
    {reason : String} (h : (checkValue name expected observed reason).Clean) :
    (checkValue name expected observed reason).Satisfied := by
  rw [checkValue_clean_iff] at h
  rw [checkValue, if_pos h]
  simp [Findings.Satisfied, Findings.empty]

theorem checkMappingValue_satisfied {ns : Namespace} {mapping : List (String × Json)}
    {required : String × List Json} (h : (checkMappingValue ns mapping required).Clean) :
    (checkMappingValue ns mapping required).Satisfied := by
  obtain ⟨observed, hlookup, hany⟩ := (checkMappingValue_clean_iff ns mapping required).mp h
  rw [checkMappingValue, hlookup]
  exact checkValue_satisfied ((checkValue_clean_iff _ _ _ _).mpr hany)

theorem checkEvidence_satisfied (h : (checkEvidence requirements snapshot).Clean) :
    (checkEvidence requirements snapshot).Satisfied := by
  unfold checkEvidence at h ⊢
  split
  · rename_i hmissing
    rw [if_pos hmissing] at h
    cases h.2
  · exact satisfied_of_no_checks rfl rfl

theorem checkUse_satisfied {use : String} (h : (checkUse snapshot use).Clean) :
    (checkUse snapshot use).Satisfied := by
  rw [checkUse_clean_iff] at h
  simp [checkUse, Findings.Satisfied, Findings.empty, h.1]

theorem checkLimitation_satisfied {services : PhaseServices} {limitation : String}
    (h : (checkLimitation services requirements limitation).Clean) :
    (checkLimitation services requirements limitation).Satisfied := by
  rw [checkLimitation_clean_iff] at h
  refine ⟨by simp [checkLimitation, Findings.empty], ?_⟩
  intro assessment hassessment
  simp only [checkLimitation, mem_singleton] at hassessment
  rw [hassessment]
  exact h

section

variable {services : PhaseServices} {call : EvaluateCall}

theorem any_str_iff (text : String) (texts : List String) :
    (texts.map Json.str).any (Json.str text == ·) = true ↔ text ∈ texts := by
  simp only [any_map, any_eq_true, Function.comp_apply, Json.beq_iff, Json.canonical,
    Json.str.injEq]
  constructor
  · rintro ⟨other, hother, rfl⟩
    exact hother
  · intro h
    exact ⟨text, h, rfl⟩

theorem findings_clean_iff : (call.findings services).Clean ↔ call.Meets services := by
  have hany := any_str_iff call.consumerOperationType [call.requirements.operationType]
  rw [map_singleton, mem_singleton] at hany
  have hcompiled : ({ Findings.empty with
      unknown := (compiledRequirementReason call.requirements).toList } : Findings).Clean ↔
      compiledRequirementReason call.requirements = none := by
    simp [Findings.Clean, Findings.empty]
  unfold EvaluateCall.findings
  simp only [Findings.clean_all, forall_mem_cons, forall_mem_map, hcompiled,
    checkBinding_clean_iff, checkValue_clean_iff, checkMappingValue_clean_iff,
    checkEvidence_clean_iff, checkUse_clean_iff, checkLimitation_clean_iff, hany, any_str_iff]
  constructor
  · rintro ⟨-, h1, h2, h3, h4, h5, h6, h7, h8, h9, h10, h11, h12, h13, h14, h15, h16, -, h17, -⟩
    exact ⟨h1, by simp only [forall_mem_cons]; simp_all, h11, h12, h13, h14, h15, h16, h17⟩
  · intro h
    have hbindings := h.bindings
    simp only [forall_mem_cons] at hbindings
    obtain ⟨h2, h3, h4, h5, h6, h7, h8, h9, h10, -⟩ := hbindings
    exact ⟨⟨rfl, rfl⟩, h.compiled, h2, h3, h4, h5, h6, h7, h8, h9, h10, h.operationType,
      h.dependencyStatus, h.evidence, h.uses, h.useSafety, h.semanticProperties,
      checkResolver_clean h.limitations, h.limitations, ⟨rfl, rfl⟩, by simp⟩

theorem findings_satisfied (h : (call.findings services).Clean) :
    (call.findings services).Satisfied := by
  unfold EvaluateCall.findings at h ⊢
  rw [Findings.clean_all] at h
  apply Findings.satisfied_all
  simp only [forall_mem_cons, Findings.clean_all, forall_mem_map] at h ⊢
  obtain ⟨-, -, -, -, -, -, -, -, -, -, -, h11, h12, h13, h14, h15, h16, -, h17, -⟩ := h
  refine ⟨satisfied_of_no_checks rfl rfl, satisfied_of_no_checks rfl rfl,
    checkBinding_satisfied _ _ _, checkBinding_satisfied _ _ _, checkBinding_satisfied _ _ _,
    checkBinding_satisfied _ _ _, checkBinding_satisfied _ _ _, checkBinding_satisfied _ _ _,
    checkBinding_satisfied _ _ _, checkBinding_satisfied _ _ _, checkBinding_satisfied _ _ _,
    checkValue_satisfied h11, checkValue_satisfied h12, checkEvidence_satisfied h13,
    ?_, ?_, ?_, checkResolver_satisfied _ _ _, ?_, satisfied_of_no_checks rfl rfl, by simp⟩
  · apply Findings.satisfied_all
    rw [forall_mem_map]
    exact fun use huse => checkUse_satisfied (h14 use huse)
  · apply Findings.satisfied_all
    rw [forall_mem_map]
    exact fun required hrequired => checkMappingValue_satisfied (h15 required hrequired)
  · apply Findings.satisfied_all
    rw [forall_mem_map]
    exact fun required hrequired => checkMappingValue_satisfied (h16 required hrequired)
  · apply Findings.satisfied_all
    rw [forall_mem_map]
    exact fun limitation hlimitation => checkLimitation_satisfied (h17 limitation hlimitation)

theorem verdict_admits_iff :
    (call.verdict services).1.admits = true ↔ (call.findings services).Clean := by
  unfold EvaluateCall.verdict Findings.Clean
  dsimp only
  split
  · simp_all [Decision.admits]
  · split
    · simp_all [Decision.admits]
    · split <;> simp_all [Decision.admits]

theorem decision_admits_iff :
    (evaluate services call).decision.admits = true ↔ call.Meets services := by
  rw [← findings_clean_iff, ← verdict_admits_iff]
  rfl

theorem meets_of_degrades {snapshot : Snapshot}
    (hdegrades : call.snapshot.Degrades snapshot)
    (h : EvaluateCall.Meets services { call with snapshot := snapshot }) : call.Meets services := by
  have hothers := hdegrades.others
  rw [hothers] at h
  exact
    { compiled := h.compiled
      bindings := h.bindings
      operationType := h.operationType
      dependencyStatus := h.dependencyStatus
      evidence := fun hrequired hnil => h.evidence hrequired
        (subset_nil.mp (hnil ▸ hdegrades.evidenceRefs))
      uses := fun use huse =>
        ⟨hdegrades.allowedDownstreamUses (h.uses use huse).1,
          fun hforbidden => (h.uses use huse).2 (hdegrades.forbiddenDownstreamUses hforbidden)⟩
      useSafety := h.useSafety
      semanticProperties := h.semanticProperties
      limitations := fun limitation hlimitation =>
        h.limitations limitation (hdegrades.limitations hlimitation) }

end

/-- An evaluation admits only if every requirement is met and every limitation is known to be
compatible; and no degraded snapshot is admitted where the snapshot itself is not. -/
theorem evaluation_fails_closed (services : PhaseServices) (call : EvaluateCall)
    (snapshot : Snapshot) (hdegrades : call.snapshot.Degrades snapshot) :
    ((evaluate services call).decision.admits = true → call.Meets services ∧
      (∀ check ∈ (evaluate services call).requirementChecks, check.status = .satisfied) ∧
      ∀ a ∈ (evaluate services call).limitationAssessments,
        a.impact ≠ .unknown ∧ a.impact ≠ .incompatible) ∧
    ((evaluate services call).decision.admits = false →
      (evaluate services { call with snapshot := snapshot }).decision.admits = false) := by
  constructor
  · intro hadmits
    have hmeets := decision_admits_iff.mp hadmits
    exact ⟨hmeets, findings_satisfied (findings_clean_iff.mpr hmeets)⟩
  · intro hnot
    by_contra hadmits
    rw [Bool.not_eq_false, decision_admits_iff] at hadmits
    rw [decision_admits_iff.mpr (meets_of_degrades hdegrades hadmits)] at hnot
    cases hnot

/-- Services without a resolver, with a hash for each kind of record. -/
def plainServices : PhaseServices where
  strip := id
  sha256
    | .requirements _ => "requirements"
    | .evaluation _ => "evaluation"
    | .admission _ => "admission"
  resolveLimitation _ _ := .notAssessed

def reportRequirements : Requirements where
  contractId := "contract"
  contractVersion := "1"
  consumerPhaseId := "write"
  operationType := "summary"
  authoritySource := .trustedRegistry
  allowedDependencyStatuses := ["satisfied"]
  requiredDownstreamUses := ["quote"]
  requiredUseSafety := []
  requiredSemanticProperties := []
  requiredCapabilities := []
  limitationCompatibility := []
  baseConstraints := []
  riskConstraints := []
  prohibitedEffects := []
  evidenceRequired := true
  authorizationTtlSeconds := 900
  sourcePlanId := none
  sourceExecutionId := none
  sourceSemanticsSha256 := none
  frozenAt := none
  requirementProvenance := []
  otherFields := .null

def reportSnapshot (limitations : List String) : Snapshot where
  dependencyId := "dependency"
  producerTaskRunId := "run"
  producerOperationId := some "operation"
  producerPhaseId := "read"
  upstreamResultRef := "report"
  dependencyStatus := "satisfied"
  evidenceRefs := ["file"]
  limitations := limitations
  requiredDisclosures := []
  missingTruth := []
  riskConstraints := []
  allowedDownstreamUses := ["quote"]
  forbiddenDownstreamUses := []
  forbiddenClaims := []
  useSafety := []
  semanticProperties := []

def reportCall (limitations : List String) : EvaluateCall where
  snapshot := reportSnapshot limitations
  requirements := reportRequirements
  consumerTaskRunId := "run"
  consumerOperationId := "consumer"
  consumerOperationType := "summary"
  evaluationId := "evaluation"
  now := 0

/-- A report without limitations is admitted and meets the requirements; with a
limitation of which nothing is known it stays without admission when a second is
added. -/
theorem report_meets_requirements : (reportCall []).Meets plainServices ∧
    (evaluate plainServices (reportCall ["partial", "old"])).decision.admits = false := by
  constructor
  · exact ((evaluation_fails_closed plainServices (reportCall []) (reportSnapshot [])
      ⟨fun _ h => h, fun _ h => h, fun _ h => h, fun _ h => h, fun _ h => h, fun _ h => h,
        rfl⟩).1 (by decide)).1
  · exact (evaluation_fails_closed plainServices (reportCall ["partial"])
      (reportSnapshot ["partial", "old"])
      ⟨by decide, fun _ h => h, fun _ h => h, fun _ h => h, fun _ h => h, fun _ h => h,
        rfl⟩).2 (by decide)

end AIpinho.Phases
