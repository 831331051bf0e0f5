import AIpinho.Policy.Restriction

/-!
# Denied, to be approved, or allowed

The effective policy is to put each requested action into one of three sets, with denial
winning. But a task that generates artifacts denies patches after the sets were computed, and
the gate compares the capability of an action as it is written.
-/

namespace AIpinho.Policy

open Lib Governance
open AIpinho.Runtime (isSpace)

/-- `ActionRegistryService.capability_for`. -/
def ActionRegistryService.capabilityFor (registry : ActionRegistryService)
    (actionName : String) : Except PolicyError (Option String) := do
  let definition ← registry.getAction actionName
  .ok definition.capability

def PolicyResolveRequest.ForbidsWrites (request : PolicyResolveRequest) : Prop :=
  request.task.readOnly = true ∨ request.userConstraints.readOnly = true ∨
    request.userConstraints.noWrite = true

def PolicyKernelService.WriteLike (kernel : PolicyKernelService) (capability : String) : Prop :=
  kernel.capabilityRegistry.canonicalize capability ∈ writeLikeCapabilities

/-- The three sets of a decision partition the requested actions, unknown actions are
denied, and nothing that writes is left when writes are forbidden. -/
structure PolicyKernelService.Partitions (kernel : PolicyKernelService)
    (request : PolicyResolveRequest) (decision : PolicyDecision) : Prop where
  allowed_approval : ∀ action ∈ decision.allowedActions, action ∉ decision.approvalRequiredFor
  allowed_denied : ∀ action ∈ decision.allowedActions, action ∉ decision.deniedActions
  approval_denied : ∀ action ∈ decision.approvalRequiredFor, action ∉ decision.deniedActions
  covered : ∀ action, kernel.Requests request action → action ∈ decision.allowedActions ∨
    action ∈ decision.approvalRequiredFor ∨ action ∈ decision.deniedActions
  unknown_denied : ∀ action, kernel.Unknown request action → action ∈ decision.deniedActions
  no_writes : request.ForbidsWrites → ∀ action, action ∈ decision.allowedActions ∨
    action ∈ decision.approvalRequiredFor → ∀ capability,
      kernel.actionRegistry.capabilityFor action = .ok (some capability) →
        ¬kernel.WriteLike capability

/-- What must hold of a request and the registries: patches of artifacts are asked for only where
the gate denies them, and where writes are forbidden, outside a protected workspace, each action
that writes names its capability by the canonical name. -/
structure PolicyKernelService.NamesWrites (kernel : PolicyKernelService)
    (request : PolicyResolveRequest) : Prop where
  patches : request.task.taskType = .artifactGeneration →
    kernel.Requests request "apply_patch" → kernel.GateDenies request "apply_patch"
  capabilities : request.ForbidsWrites → (kernel.workspace request).blocked = false →
    ∀ action, kernel.Requests request action → ∀ capability,
      kernel.actionRegistry.capabilityFor action = .ok (some capability) →
        kernel.WriteLike capability → capability ∈ writeLikeCapabilities

theorem canonicalize_of_required (service : CapabilityRegistryService) {capability : String}
    (h : capability ∈ requiredCapabilities) : service.canonicalize capability = capability := by
  have hstrip : strip isSpace capability = capability :=
    (by decide : ∀ capability ∈ requiredCapabilities, strip isSpace capability = capability)
      capability h
  rw [CapabilityRegistryService.canonicalize, hstrip, if_pos (service.validated capability h)]

theorem required_of_writeLike {capability : String} (h : capability ∈ writeLikeCapabilities) :
    capability ∈ requiredCapabilities :=
  (by decide : ∀ capability ∈ writeLikeCapabilities, capability ∈ requiredCapabilities)
    capability h

theorem capabilityFor_ok_iff {registry : ActionRegistryService} {action capability : String} :
    registry.capabilityFor action = .ok (some capability) ↔
      ∃ definition, registry.getAction action = .ok definition ∧
        definition.capability = some capability := by
  rw [ActionRegistryService.capabilityFor, value_bind_ok_iff]
  simp only [Except.ok.injEq]

section

variable {kernel : PolicyKernelService} {request : PolicyResolveRequest}

theorem gateDenies_of_writeLike {action capability : String} (hwrites : request.ForbidsWrites)
    (hcapability : kernel.actionRegistry.capabilityFor action = .ok (some capability))
    (hmem : capability ∈ writeLikeCapabilities) : kernel.GateDenies request action := by
  obtain ⟨definition, hdefinition, hnamed⟩ := capabilityFor_ok_iff.mp hcapability
  refine PolicyKernelService.gateDenies_iff.mpr ⟨definition, hdefinition, Or.inr (Or.inr ?_)⟩
  rw [hnamed, denyReason_isSome_iff]
  refine Or.inr (Or.inl ⟨?_, hmem⟩)
  rcases hwrites with hread | hread | hwrite
  · exact Or.inl (by simp [PolicyResolveRequest.constraints, hread])
  · exact Or.inl (by simp [PolicyResolveRequest.constraints, hread])
  · exact Or.inr hwrite

theorem not_gateDenies_of_alias {action capability : String}
    (hblocked : (kernel.workspace request).blocked = false)
    (hcapability : kernel.actionRegistry.capabilityFor action = .ok (some capability))
    (hwrite : kernel.WriteLike capability) (hmem : capability ∉ writeLikeCapabilities) :
    ¬kernel.GateDenies request action := by
  obtain ⟨definition, hdefinition, hnamed⟩ := capabilityFor_ok_iff.mp hcapability
  have hexists : kernel.capabilityRegistry.capabilityExists capability = true :=
    kernel.capabilityRegistry.validated _ (required_of_writeLike hwrite)
  -- `shell` and `network` are canonical names, and no capabilities to write.
  have hne : ∀ name ∈ ["shell", "network"], capability ≠ name := by
    rintro name hname rfl
    have hrequired : capability ∈ requiredCapabilities :=
      (by decide : ∀ name ∈ ["shell", "network"], name ∈ requiredCapabilities) capability hname
    rw [PolicyKernelService.WriteLike, canonicalize_of_required _ hrequired] at hwrite
    exact hmem hwrite
  rw [PolicyKernelService.gateDenies_iff]
  rintro ⟨definition', hdefinition', hdenied⟩
  cases hdefinition.symm.trans hdefinition'
  rw [hnamed] at hdenied
  rcases hdenied with hnone | hunknown | hreason
  · cases hnone
  · rw [Option.getD_some, hexists] at hunknown
    cases hunknown
  · rw [denyReason_isSome_iff] at hreason
    rcases hreason with hworkspace | ⟨-, hraw⟩ | ⟨-, hshell, -⟩ | ⟨-, hshell⟩ | ⟨-, hnetwork⟩
    · exact absurd (hworkspace.symm.trans hblocked) (by decide)
    · exact hmem hraw
    · exact hne _ (by decide) hshell
    · exact hne _ (by decide) hshell
    · exact hne _ (by decide) hnetwork

/-- The sets of a decision are a partition with denial winning exactly if the request
asks for patches of artifacts only where the gate denies them, and actions that write
name their capability by its canonical name. -/
theorem decision_partitions_iff {decision : PolicyDecision}
    (h : kernel.resolve request = .ok decision) :
    kernel.Partitions request decision ↔ kernel.NamesWrites request := by
  have hd := PolicyKernelService.decides h
  have hkept : ∀ action, kernel.Requests request action → ¬kernel.GateDenies request action →
      action ∈ decision.allowedActions ∨ action ∈ decision.approvalRequiredFor := by
    intro action hrequested hgate
    by_cases hneeds : kernel.NeedsApproval request action
    · exact Or.inr ((hd.mem_approval action).mpr ⟨hrequested, hgate, hneeds⟩)
    · exact Or.inl ((hd.mem_allowed action).mpr ⟨hrequested, hgate, hneeds⟩)
  constructor
  · intro hpartition
    constructor
    · intro htype hrequested
      by_contra hgate
      have hdenied : "apply_patch" ∈ decision.deniedActions :=
        (hd.mem_denied _).mpr (Or.inr (Or.inr (Or.inr ⟨htype, rfl⟩)))
      rcases hkept _ hrequested hgate with hallowed | happroval
      · exact hpartition.allowed_denied _ hallowed hdenied
      · exact hpartition.approval_denied _ happroval hdenied
    · intro hwrites hblocked action hrequested capability hcapability hwrite
      by_contra hmem
      have hgate := not_gateDenies_of_alias hblocked hcapability hwrite hmem
      exact hpartition.no_writes hwrites action (hkept action hrequested hgate) capability
        hcapability hwrite
  · intro hnames
    have hopen : ∀ action, kernel.Requests request action → ¬kernel.GateDenies request action →
        action ∉ decision.deniedActions := by
      intro action hrequested hgate hdenied
      rcases (hd.mem_denied action).mp hdenied with hunknown | hgated | htask
      · exact hrequested.not_unknown hunknown
      · exact hgate hgated.2
      · rcases htask with ⟨-, -, -, hnot⟩ | ⟨htype, rfl⟩
        · exact hnot hrequested
        · exact hgate (hnames.patches htype hrequested)
    have hrest : ∀ action, action ∈ decision.allowedActions ∨
        action ∈ decision.approvalRequiredFor →
          kernel.Requests request action ∧ ¬kernel.GateDenies request action := by
      rintro action (haction | haction)
      · obtain ⟨hrequested, hgate, -⟩ := (hd.mem_allowed action).mp haction
        exact ⟨hrequested, hgate⟩
      · obtain ⟨hrequested, hgate, -⟩ := (hd.mem_approval action).mp haction
        exact ⟨hrequested, hgate⟩
    refine ⟨fun action hallowed happroval => ?_, fun action hallowed => ?_,
      fun action happroval => ?_, fun action hrequested => ?_, fun action hunknown => ?_,
      fun hwrites action hmem capability hcapability hwrite => ?_⟩
    · exact ((hd.mem_allowed action).mp hallowed).2.2 ((hd.mem_approval action).mp happroval).2.2
    · obtain ⟨hrequested, hgate⟩ := hrest action (Or.inl hallowed)
      exact hopen action hrequested hgate
    · obtain ⟨hrequested, hgate⟩ := hrest action (Or.inr happroval)
      exact hopen action hrequested hgate
    · by_cases hgate : kernel.GateDenies request action
      · exact Or.inr (Or.inr ((hd.mem_denied action).mpr (Or.inr (Or.inl ⟨hrequested, hgate⟩))))
      · exact (hkept action hrequested hgate).imp_right Or.inl
    · exact (hd.mem_denied action).mpr (Or.inl hunknown)
    · obtain ⟨hrequested, hgate⟩ := hrest action hmem
      cases hblocked : (kernel.workspace request).blocked with
      | true => exact hgate (hrequested.gateDenies hblocked)
      | false =>
        exact hgate (gateDenies_of_writeLike hwrites hcapability
          (hnames.capabilities hwrites hblocked action hrequested capability hcapability hwrite))

end

/-- A request to read a file partitions its actions. -/
theorem read_request_partitions : ∃ decision, shippedKernel.resolve readRequest = .ok decision ∧
      (shippedKernel.Partitions readRequest decision ↔ shippedKernel.NamesWrites readRequest) := by
  obtain ⟨decision, hdecision⟩ := exists_ok_of_toOption_isSome
    (show (shippedKernel.resolve readRequest).toOption.isSome = true by decide +kernel)
  exact ⟨decision, hdecision, decision_partitions_iff hdecision⟩

def patchArtifact : PolicyResolveRequest :=
  { task := { taskType := .artifactGeneration, requestedActions := ["apply_patch"],
              readOnly := false } }

/-- The patch of an artifact is denied and can be approved. -/
theorem patch_denied_and_approvable :
    ∃ decision, shippedKernel.resolve patchArtifact = .ok decision ∧
      ¬shippedKernel.Partitions patchArtifact decision := by
  have hlists : (shippedKernel.resolve patchArtifact).toOption.map
      (fun decision => (decision.approvalRequiredFor, decision.deniedActions)) =
        some (["apply_patch"], ["apply_patch"]) := by decide +kernel
  cases hdecision : shippedKernel.resolve patchArtifact with
  | error error =>
    rw [hdecision] at hlists
    cases hlists
  | ok decision =>
    rw [hdecision] at hlists
    simp only [Except.toOption, Option.map_some, Option.some.injEq, Prod.mk.injEq] at hlists
    refine ⟨decision, rfl, fun hpartition => ?_⟩
    refine hpartition.approval_denied "apply_patch" ?_ ?_
    · rw [hlists.1]
      exact List.mem_singleton_self _
    · rw [hlists.2]
      exact List.mem_singleton_self _

end AIpinho.Policy
