import AIpinho.Governance.Lifecycle

/-!
# When success may be claimed

The speaker may claim success if the plan can be executed, no approval is asked for and the
completion verdict is safe. Neither the verdict nor the speaker looks at a denied policy. This
module says for which requests a claim of success is one of an allowed and completed operation.
-/

namespace AIpinho.Governance

open Lib

/-- Success is claimed only of allowed and completed work whose outputs are all there. -/
def ClaimIsTrue (inputs : LifecycleInputs) (snapshot : LifecycleSnapshot) : Prop :=
  snapshot.speakerTruth.canClaimSuccess = true →
    snapshot.state = .completed ∧ snapshot.policy.permission = .allowed ∧
    (inputs.proposedCompletionStatus = "completed" ∨
      inputs.proposedCompletionStatus = "completed_with_warnings") ∧
    ∀ item ∈ snapshot.completion.expectedOutputs, isPresent inputs.outputs item = true

def LifecycleInputs.HasOutputs (services : LifecycleServices) (inputs : LifecycleInputs) : Prop :=
  ∀ item ∈ inputs.plan.expectedOutputs, services.fold item ≠ "" →
    isPresent inputs.outputs item = true

/-- Where success would be claimed, the work is allowed and completed. -/
def LifecycleInputs.ClaimsRightly (services : LifecycleServices) (inputs : LifecycleInputs) :
    Prop :=
  inputs.plan.executable = true → (inputs.policy services).permission ≠ .ask →
    inputs.HasOutputs services →
    inputs.proposedCompletionStatus ≠ "failed" → inputs.proposedCompletionStatus ≠ "blocked" →
    inputs.proposedCompletionStatus ≠ "completed_with_warnings" →
    (inputs.policy services).permission = .allowed ∧ inputs.proposedCompletionStatus = "completed"

section

variable {services : LifecycleServices} {inputs : LifecycleInputs}

theorem LifecycleInputs.plan_cases (inputs : LifecycleInputs) :
    inputs.plan.executable = true ∧ inputs.plan.previewKind = .executable ∧
        inputs.plan.blockedReason = .none ∨
      inputs.plan.executable = false ∧ inputs.plan.previewKind = .planOnly ∧
        inputs.plan.blockedReason ≠ .none := by
  generalize h : inputs.plan = plan
  unfold LifecycleInputs.plan buildPlan at h
  extract_lets outputs ref needsExecutionPlan targets at h
  split at h
  · subst plan
    exact .inr ⟨rfl, rfl, nofun⟩
  · split at h
    · subst plan
      exact .inl ⟨rfl, rfl, rfl⟩
    · subst plan
      exact .inr ⟨rfl, rfl, nofun⟩

theorem gatedPlan_of_not_ask (h : (inputs.policy services).permission ≠ .ask) :
    (inputs.gatedPlan services).1 = inputs.plan := by
  unfold LifecycleInputs.gatedPlan
  rw [if_neg h]

theorem resolveCompletion_safe_iff (fold : String → String) (expected : List String)
    (outputs : List (String × Json)) (proposed : String) :
    (resolveCompletion fold expected outputs proposed).safeToReportSuccess = true ↔
      proposed ≠ "failed" ∧ proposed ≠ "blocked" ∧ proposed ≠ "completed_with_warnings" ∧
        ∀ item ∈ expected, fold item ≠ "" → isPresent outputs item = true := by
  unfold resolveCompletion
  extract_lets names fulfilled missing status
  have hmissing : missing = [] ↔
      ∀ item ∈ expected, fold item ≠ "" → isPresent outputs item = true := by
    simp only [missing, fulfilled, names, List.filter_eq_nil_iff, List.mem_eraseDups,
      List.mem_filter, List.contains_eq_mem]
    constructor
    · intro h item hitem hname
      simpa [hitem, hname] using h item ⟨hitem, by simpa using hname⟩
    · rintro h item ⟨hitem, hname⟩
      simp [h item hitem (by simpa using hname), hitem, by simpa using hname]
  rw [← hmissing]
  simp only [status, Bool.and_eq_true, decide_eq_true_eq, List.isEmpty_iff]
  by_cases hproposed : proposed = "failed" ∨ proposed = "blocked"
  · rw [if_pos hproposed]
    rcases hproposed with rfl | rfl <;> simp
  · rw [if_neg hproposed]
    rw [not_or] at hproposed
    by_cases hempty : missing = []
    · by_cases hwarnings : proposed = "completed_with_warnings"
      · simp [hempty, hwarnings]
      · simp [hempty, hwarnings, hproposed]
    · simp [hempty]

theorem completion_of_executable (hask : (inputs.policy services).permission ≠ .ask)
    (hplan : inputs.plan.executable = true) :
    inputs.completion services = resolveCompletion services.fold inputs.plan.expectedOutputs
      inputs.outputs inputs.proposedCompletionStatus := by
  unfold LifecycleInputs.completion
  simp [gatedPlan_of_not_ask hask, hplan]

theorem statusForReason_ne_approved (reason : ReasonCode) :
    statusForReason reason ≠ "approved" := by
  unfold statusForReason
  split
  · decide
  · split
    · rename_i hstart
      intro heq
      rw [heq] at hstart
      revert hstart
      decide
    · decide

theorem evaluateApproval_open_iff (policy : PolicyDecision) (plan : ExecutionPlan) :
    ((evaluateApproval policy plan).required = true ∧
        (evaluateApproval policy plan).status ≠ "approved") ↔ policy.permission = .ask := by
  unfold evaluateApproval
  cases policy.permission with
  | ask =>
    dsimp only
    split
    · simp [statusForReason_ne_approved]
    · simp
  | _ => simp

theorem evaluateSpeaker_canClaim_iff (plan : ExecutionPlan) (approval : ApprovalGate)
    (completion : CompletionVerdict) :
    (evaluateSpeaker plan approval completion).canClaimSuccess = true ↔
      ¬(approval.required = true ∧ approval.status ≠ "approved") ∧
      ¬(plan.blockedReason ≠ .none ∧ plan.executable = false) ∧
      completion.safeToReportSuccess = true := by
  unfold evaluateSpeaker
  extract_lets unapproved unplanned unsafeToReport disclosures forbidden canClaim
  have hforbidden : forbidden = [] ↔ ¬unapproved = true ∧ ¬unplanned = true ∧
      ¬unsafeToReport = true := by
    simp [forbidden, successClaims]
  have hclaim : canClaim = true ↔ forbidden = [] ∧ completion.safeToReportSuccess = true := by
    simp [canClaim]
  rw [hclaim, hforbidden]
  have hreportable : ¬unsafeToReport = true ↔ completion.safeToReportSuccess = true := by
    simp [unsafeToReport]
  have hunapproved : unapproved = true ↔
      approval.required = true ∧ approval.status ≠ "approved" := by
    simp [unapproved]
  have hunplanned : unplanned = true ↔ plan.blockedReason ≠ .none ∧ plan.executable = false := by
    simp [unplanned]
  rw [hreportable, hunapproved, hunplanned]
  exact and_iff_left_of_imp fun h => h.2.2

theorem canClaimSuccess_iff : (evaluate services inputs).speakerTruth.canClaimSuccess = true ↔
      (inputs.policy services).permission ≠ .ask ∧ inputs.plan.executable = true ∧
      (inputs.completion services).safeToReportSuccess = true := by
  have hspeaker : (evaluate services inputs).speakerTruth =
      evaluateSpeaker (inputs.gatedPlan services).1
        (evaluateApproval (inputs.policy services) (inputs.gatedPlan services).1)
        (inputs.completion services) := rfl
  rw [hspeaker, evaluateSpeaker_canClaim_iff, evaluateApproval_open_iff]
  refine and_congr_right fun hask => and_congr_left fun _ => ?_
  rw [gatedPlan_of_not_ask hask]
  rcases inputs.plan_cases with ⟨hexec, -, hreason⟩ | ⟨hexec, -, hreason⟩
  · simp [hexec, hreason]
  · simp [hexec, hreason]

theorem state_of_claim (hask : (inputs.policy services).permission ≠ .ask)
    (hplan : inputs.plan.executable = true)
    (hsafe : (inputs.completion services).safeToReportSuccess = true) :
    (evaluate services inputs).state = .completed ↔
      (inputs.policy services).permission = .allowed := by
  have hstate : (evaluate services inputs).state =
      stateOf (inputs.policy services) (inputs.gatedPlan services).1
        (evaluateApproval (inputs.policy services) (inputs.gatedPlan services).1)
        (inputs.completion services) := rfl
  rw [hstate, gatedPlan_of_not_ask hask]
  unfold stateOf evaluateApproval
  cases hpermission : (inputs.policy services).permission with
  | ask => exact absurd hpermission hask
  | allowed => simp [hplan, hsafe]
  | _ => simp

variable (services inputs) in
/-- A claim of success is true exactly if the request is one that claims rightly. -/
theorem claim_is_true_iff :
    ClaimIsTrue inputs (evaluate services inputs) ↔ inputs.ClaimsRightly services := by
  have hpolicy : (evaluate services inputs).policy = inputs.policy services := rfl
  have hcompletion : (evaluate services inputs).completion = inputs.completion services := rfl
  rw [ClaimIsTrue, canClaimSuccess_iff, hpolicy, hcompletion]
  constructor
  · intro h hplan hask houtputs hfailed hblocked hwarnings
    have hverdict := completion_of_executable hask hplan
    have hsafe : (inputs.completion services).safeToReportSuccess = true := by
      rw [hverdict, resolveCompletion_safe_iff]
      exact ⟨hfailed, hblocked, hwarnings, houtputs⟩
    obtain ⟨-, hallowed, hproposed, -⟩ := h ⟨hask, hplan, hsafe⟩
    exact ⟨hallowed, hproposed.resolve_right hwarnings⟩
  · rintro h ⟨hask, hplan, hsafe⟩
    have hverdict := completion_of_executable hask hplan
    have hstate := state_of_claim hask hplan hsafe
    rw [hverdict, resolveCompletion_safe_iff] at hsafe
    obtain ⟨hfailed, hblocked, hwarnings, houtputs⟩ := hsafe
    obtain ⟨hallowed, hproposed⟩ := h hplan hask houtputs hfailed hblocked hwarnings
    refine ⟨hstate.mpr hallowed, hallowed, .inl hproposed, ?_⟩
    rw [hverdict]
    intro item hitem
    simp only [resolveCompletion, List.mem_eraseDups, List.mem_filter] at hitem
    exact houtputs item hitem.1 (by simpa using hitem.2)

end

/-- Services whose gates let everything pass. -/
def openServices : LifecycleServices := ⟨id, fun _ _ _ => ⟨true, .none, []⟩,
  fun _ _ _ _ => ⟨true, .none, []⟩⟩

def writeRequest (decision proposed : String) : LifecycleInputs where
  intent := ⟨"write", "filesystem_write", true, false, [], false⟩
  operationId := "op"
  requestedActions := ["write_file"]
  operationType := none
  contractType := none
  runtimeProfile := none
  targetPaths := ["a"]
  explicitPolicyDecisions := [decision]
  executablePlanRef := some "plan"
  planKind := none
  expectedOutputs := some []
  outputs := []
  proposedCompletionStatus := proposed

/-- A denied operation that was never run, with a plan and no expected outputs: the
speaker may claim success. -/
theorem denied_operation_claims_success : ¬ClaimIsTrue (writeRequest "denied" "not_run")
      (evaluate openServices (writeRequest "denied" "not_run")) ∧
    (evaluate openServices (writeRequest "denied" "not_run")).speakerTruth.canClaimSuccess = true ∧
    (evaluate openServices (writeRequest "denied" "not_run")).state = .blocked := by
  refine ⟨?_, by decide, by decide⟩
  intro h
  exact absurd (h (by decide)).1 (by decide)

end AIpinho.Governance
