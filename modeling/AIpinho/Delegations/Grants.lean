import AIpinho.Delegations.Service

/-!
# The capabilities of a child

The policy compares what a delegation asks for with the route and the target, and may defer the
rest. The run of the child gets all that was asked for.
-/

namespace AIpinho.Delegations

open Lib
open AIpinho.Policy (mem_sortedSet)
open AIpinho.Runtime (isSpace)

def AgentDelegationPolicyService.canonical (service : AgentDelegationPolicyService)
    (capability : String) : String :=
  match service.capabilityRegistry with
  | none => capability
  | some registry => registry.canonicalize capability

/-- A capability that `_canonical_capabilities` passes over. -/
def AgentDelegationPolicyService.Blank (service : AgentDelegationPolicyService)
    (capability : String) : Prop :=
  match service.capabilityRegistry with
  | none => capability = ""
  | some _ => strip isSpace capability = ""

variable {service : AgentDelegationPolicyService}

theorem mem_canonicalCapabilities {capabilities : List String} {name : String} :
    name ∈ service.canonicalCapabilities capabilities ↔
      ∃ capability ∈ capabilities, ¬service.Blank capability ∧
        service.canonical capability = name := by
  unfold AgentDelegationPolicyService.canonicalCapabilities AgentDelegationPolicyService.Blank
    AgentDelegationPolicyService.canonical
  cases service.capabilityRegistry with
  | none => simp
  | some registry => simp [and_assoc]

def AgentDelegationPolicyService.Grants (service : AgentDelegationPolicyService)
    (route : DelegationRoute) (target : AgentProfile) (capability : String) : Prop :=
  service.canonical capability ∈ service.canonicalCapabilities route.capabilities ∨
    service.canonical capability ∈ service.canonicalCapabilities target.capabilities

theorem mem_missing {request : DelegationRequest} {route : DelegationRoute}
    {target : AgentProfile} {name : String} :
    name ∈ service.missing request route target ↔
      ∃ capability ∈ request.capabilitiesRequested, ¬service.Blank capability ∧
        ¬service.Grants route target capability ∧ service.canonical capability = name := by
  unfold AgentDelegationPolicyService.missing AgentDelegationPolicyService.Grants
  dsimp only
  rw [List.mem_filter, mem_canonicalCapabilities]
  constructor
  · rintro ⟨⟨capability, hmem, hblank, rfl⟩, hgrants⟩
    exact ⟨capability, hmem, hblank, by simpa using hgrants, rfl⟩
  · rintro ⟨capability, hmem, hblank, hgrants, rfl⟩
    exact ⟨⟨capability, hmem, hblank, rfl⟩, by simpa using hgrants⟩

def DelegationPolicyDecision.deferred (decision : DelegationPolicyDecision) : List String :=
  (decision.metadata.map (·.deferredCapabilities)).getD []

/-- The child asks for capabilities that were granted and not deferred. -/
def HoldsGranted (service : AgentDelegationPolicyService) (route : DelegationRoute)
    (target : AgentProfile) (decision : DelegationPolicyDecision) (run : AgentRun) : Prop :=
  ∀ capability ∈ run.capabilitiesRequested, service.Grants route target capability ∧
    service.canonical capability ∉ decision.deferred

/-- A request asks for nothing but what the route allows or the target declares, so that
nothing has to be deferred. -/
def AsksForGranted (service : AgentDelegationPolicyService) (route : DelegationRoute)
    (target : AgentProfile) (request : DelegationCreateRequest) : Prop :=
  (∀ name ∈ service.canonicalCapabilities request.capabilitiesRequested,
    name ∈ service.canonicalCapabilities route.capabilities ∨
      name ∈ service.canonicalCapabilities target.capabilities) ∧
  ∀ capability ∈ request.capabilitiesRequested, service.Blank capability →
    service.Grants route target capability

theorem asksForGranted_iff {route : DelegationRoute} {target : AgentProfile}
    {request : DelegationCreateRequest} :
    AsksForGranted service route target request ↔
      ∀ capability ∈ request.capabilitiesRequested, service.Grants route target capability := by
  constructor
  · rintro ⟨hnames, hblank⟩ capability hmem
    by_cases h : service.Blank capability
    · exact hblank capability hmem h
    · exact hnames _ (mem_canonicalCapabilities.mpr ⟨capability, hmem, h, rfl⟩)
  · intro h
    refine ⟨fun name hname => ?_, fun capability hmem _ => h capability hmem⟩
    obtain ⟨capability, hmem, -, rfl⟩ := mem_canonicalCapabilities.mp hname
    exact h capability hmem

theorem created_child {service : AgentDelegationService} {s : DelegationSystem} {clock : ℤ}
    {parentAgentId : String} {parentRunId : ℕ} {request : DelegationCreateRequest}
    {child : AgentRun}
    (hchild : (service.step s (.create clock parentAgentId parentRunId
      request)).runs[s.runs.length]? = some child) :
    ∃ parentRun delegation,
      delegation = service.newRequest clock s.delegations.length parentAgentId parentRunId
        parentRun request ∧
      (service.createDelegation clock parentAgentId parentRunId request s).1 =
        .ok (service.decide s delegation) ∧
      (service.decide s delegation).decision ≠ .deny ∧
      child.capabilitiesRequested = request.capabilitiesRequested := by
  rw [AgentDelegationService.step] at hchild
  rcases createDelegation_cases service clock parentAgentId parentRunId request s with
    ⟨error, hcreate⟩ | ⟨parentRun, delegation, hrun, -, hdelegation, hcreate⟩
  · rw [hcreate, List.getElem?_eq_none (Nat.le_refl _)] at hchild
    cases hchild
  · rw [hcreate] at hchild ⊢
    dsimp only at hchild
    have hlt : delegation.parentRunId < s.runs.length := by
      rw [hdelegation]
      exact (List.getElem?_eq_some_iff.mp hrun).1
    refine ⟨parentRun, delegation, hdelegation, rfl, ?_⟩
    rcases settle_cases service clock delegation (service.decide s delegation) s with
      ⟨-, hsettle⟩ | ⟨-, hsettle⟩ | ⟨hdecision, -, hsettle⟩
    · rw [hsettle, DelegationSystem.record, List.getElem?_eq_none (Nat.le_refl _)] at hchild
      cases hchild
    · rw [hsettle] at hchild
      simp [DelegationSystem.updateRun, DelegationSystem.record] at hchild
    · rw [hsettle] at hchild
      have hne : delegation.parentRunId ≠ s.runs.length := by omega
      have hsame : childRun delegation = child := by
        simpa [DelegationSystem.updateRun, DelegationSystem.record, hne] using hchild
      rw [← hsame, hdelegation]
      exact ⟨by rw [← hdelegation]; exact hdecision, rfl⟩

/-- Every run that `create_delegation` creates holds only capabilities that the open route
allows or the target declares, and none that was deferred, exactly if the request asks for
no others. -/
theorem child_holds_granted_iff (service : AgentDelegationService) (s : DelegationSystem)
    (clock : ℤ) (parentAgentId : String) (parentRunId : ℕ) (request : DelegationCreateRequest)
    (child : AgentRun)
    (hchild : (service.step s (.create clock parentAgentId parentRunId
      request)).runs[s.runs.length]? = some child) :
    ∃ decision target route,
      (service.createDelegation clock parentAgentId parentRunId request s).1 = .ok decision ∧
      service.profile request.targetAgentId = some target ∧
      service.policy.config.route parentAgentId request.targetAgentId = some route ∧
      route.enabled = true ∧
      (HoldsGranted service.policy route target decision child ↔
        AsksForGranted service.policy route target request) := by
  obtain ⟨parentRun, delegation, hdelegation, hcreate, hdecision, hcapabilities⟩ :=
    created_child hchild
  obtain ⟨target, route, hadmitted, hmetadata, hdeferred⟩ := admitted_of_not_denied hdecision
  have hasked : delegation.capabilitiesRequested = request.capabilitiesRequested := by
    rw [hdelegation]
    rfl
  refine ⟨service.decide s delegation, target, route, hcreate, ?_, ?_, hadmitted.route_enabled, ?_⟩
  · have htarget := hadmitted.target_eq
    rw [hdelegation] at htarget
    exact htarget
  · have hroute := hadmitted.route_eq
    rw [hdelegation] at hroute
    exact hroute
  · rw [asksForGranted_iff]
    unfold HoldsGranted
    rw [hcapabilities]
    constructor
    · intro h capability hmem
      exact (h capability hmem).1
    · intro h capability hmem
      refine ⟨h capability hmem, ?_⟩
      have hempty : (service.decide s delegation).deferred =
          service.policy.missing delegation route target := by
        rw [DelegationPolicyDecision.deferred, AgentDelegationService.decide, hmetadata,
          Option.map_some, Option.getD_some, hdeferred]
      rw [hempty, mem_missing]
      rintro ⟨other, hother, -, hgrants, -⟩
      rw [hasked] at hother
      exact hgrants (h other hother)

def buildCall : DelegationOp :=
  .create 0 "lucio" 0 (sampleRequest ["read_workspace", "build"])

/-- Building is deferred, and the child that may start with reading holds it. -/
theorem deferred_capability_on_child :
    ((sampleService.createDelegation 0 "lucio" 0 (sampleRequest ["read_workspace", "build"])
        (sampleSystem "governed_autorun")).1.toOption.map fun decision =>
          (decision.decision, decision.deferred)) = some (.autoApprove, ["build"]) ∧
    ((sampleService.step (sampleSystem "governed_autorun") buildCall).runs[1]?.map
      (·.capabilitiesRequested)) = some ["read_workspace", "build"] ∧
    ¬sampleService.policy.Grants sampleRoute ⟨true, []⟩ "build" := by
  refine ⟨by decide +kernel, by decide +kernel, ?_⟩
  unfold AgentDelegationPolicyService.Grants
  decide +kernel

/-- A child that only reads holds what the route allows. -/
theorem reading_child_holds_granted : ∃ decision target route child,
      (sampleService.step (sampleSystem "governed_autorun")
        (.create 0 "lucio" 0 (sampleRequest ["read_workspace"]))).runs[1]? = some child ∧
      HoldsGranted sampleService.policy route target decision child := by
  have hsome : (sampleService.step (sampleSystem "governed_autorun")
      (.create 0 "lucio" 0 (sampleRequest ["read_workspace"]))).runs[1]?.isSome = true := by
    decide +kernel
  obtain ⟨child, hchild⟩ := Option.isSome_iff_exists.mp hsome
  obtain ⟨decision, target, route, -, -, hroute, -, hiff⟩ :=
    child_holds_granted_iff sampleService (sampleSystem "governed_autorun") 0 "lucio" 0
      (sampleRequest ["read_workspace"]) child hchild
  obtain rfl : sampleRoute = route := Option.some.inj hroute
  refine ⟨decision, target, sampleRoute, child, hchild, hiff.mpr (asksForGranted_iff.mpr ?_)⟩
  intro capability hmem
  obtain rfl := List.mem_singleton.mp hmem
  left
  decide +kernel

end AIpinho.Delegations
