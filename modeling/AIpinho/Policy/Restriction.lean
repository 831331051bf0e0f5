import AIpinho.Policy.Kernel

/-!
# Constraints only restrict

A request is made stronger by turning constraints on and by asking for more actions. Each stage
denies at least what it denied before, so no decision becomes more permissive, except that a
request without any action is never executed.
-/

namespace AIpinho.Policy

/-- A request with more constraints and more requested actions than another one. -/
structure Strengthens (weak strong : PolicyResolveRequest) : Prop where
  intent : strong.intent = weak.intent
  workspacePath : strong.workspacePath = weak.workspacePath
  roleId : strong.roleId = weak.roleId
  taskType : strong.task.taskType = weak.task.taskType
  requestedActions : weak.task.requestedActions ⊆ strong.task.requestedActions
  taskReadOnly : weak.task.readOnly = true → strong.task.readOnly = true
  /-- `read_only` stays on. -/
  readOnly : weak.userConstraints.readOnly = true → strong.userConstraints.readOnly = true
  /-- `no_write` stays on. -/
  noWrite : weak.userConstraints.noWrite = true → strong.userConstraints.noWrite = true
  /-- `no_shell` stays on. -/
  noShell : weak.userConstraints.noShell = true → strong.userConstraints.noShell = true
  /-- `no_network` stays on. -/
  noNetwork : weak.userConstraints.noNetwork = true → strong.userConstraints.noNetwork = true

theorem denyReason_isSome_iff {constraints : GateConstraints} {capability : String}
    {sideEffect : Bool} :
    (denyReason constraints capability sideEffect).isSome = true ↔
      constraints.workspaceBlocked = true ∨
      ((constraints.readOnly = true ∨ constraints.noWrite = true) ∧
        capability ∈ writeLikeCapabilities) ∨
      (constraints.readOnly = true ∧ capability = "shell" ∧ sideEffect = true) ∨
      (constraints.noShell = true ∧ capability = "shell") ∨
      (constraints.noNetwork = true ∧ capability = "network") := by
  rw [denyReason]
  split_ifs <;> simp_all

namespace Strengthens

variable {kernel : PolicyKernelService} {weak strong : PolicyResolveRequest}

theorem workspace_eq (h : Strengthens weak strong) :
    kernel.workspace strong = kernel.workspace weak := by
  rw [PolicyKernelService.workspace, h.workspacePath, h.intent, PolicyKernelService.workspace]

variable {action : String}

theorem requests (h : Strengthens weak strong) (haction : kernel.Requests weak action) :
    kernel.Requests strong action := by
  obtain ⟨name, hname, hcanonical⟩ := haction
  exact ⟨name, h.requestedActions hname, hcanonical⟩

theorem unknown (h : Strengthens weak strong) (haction : kernel.Unknown weak action) :
    kernel.Unknown strong action :=
  ⟨h.requestedActions haction.1, haction.2⟩

theorem needsApproval_iff (h : Strengthens weak strong) :
    kernel.NeedsApproval strong action ↔ kernel.NeedsApproval weak action := by
  rw [PolicyKernelService.NeedsApproval, h.roleId, PolicyKernelService.NeedsApproval]

theorem gateDenies (h : Strengthens weak strong) (haction : kernel.GateDenies weak action) :
    kernel.GateDenies strong action := by
  rw [PolicyKernelService.gateDenies_iff] at haction ⊢
  obtain ⟨definition, hdefinition, hdenied⟩ := haction
  refine ⟨definition, hdefinition, Or.imp id (Or.imp id fun hreason => ?_) hdenied⟩
  rw [denyReason_isSome_iff] at hreason ⊢
  have hread : (weak.task.readOnly || weak.userConstraints.readOnly) = true →
      (strong.task.readOnly || strong.userConstraints.readOnly) = true := by
    rw [Bool.or_eq_true, Bool.or_eq_true]
    exact Or.imp h.taskReadOnly h.readOnly
  rw [h.workspace_eq]
  refine Or.imp id (Or.imp ?_ (Or.imp ?_ (Or.imp ?_ ?_))) hreason
  · exact And.imp_left (Or.imp hread h.noWrite)
  · exact And.imp_left hread
  · exact And.imp_left h.noShell
  · exact And.imp_left h.noNetwork

variable {decision decision' : PolicyDecision}

theorem denied (h : Strengthens weak strong) (hweak : kernel.Decides weak decision)
    (hstrong : kernel.Decides strong decision') (hrequested : kernel.Requests weak action)
    (haction : action ∈ decision.deniedActions) : action ∈ decision'.deniedActions := by
  rw [hweak.mem_denied] at haction
  rw [hstrong.mem_denied]
  refine Or.imp h.unknown (Or.imp (And.imp h.requests h.gateDenies) ?_) haction
  rintro (⟨-, -, -, hnot⟩ | ⟨htype, hpatch⟩)
  · exact absurd hrequested hnot
  · exact Or.inr ⟨h.taskType.trans htype, hpatch⟩

theorem allowed (h : Strengthens weak strong) (hweak : kernel.Decides weak decision)
    (hstrong : kernel.Decides strong decision') (hallowed : decision'.status = .allowed) :
    decision.status = .allowed := by
  obtain ⟨hclear, hblocked, hunknown, hdenied, happroval⟩ := hstrong.status_allowed.mp hallowed
  rw [h.workspace_eq] at hclear hblocked
  refine hweak.status_allowed.mpr ⟨hclear, hblocked, fun action haction =>
    hunknown action (h.unknown haction), fun action hrequested haction =>
      hdenied action (h.requests hrequested) (h.denied hweak hstrong hrequested haction), ?_⟩
  intro action haction
  obtain ⟨hrequested, -, hneeds⟩ := (hweak.mem_approval action).mp haction
  -- The action is still requested, so it would be denied or wait for its approval.
  by_cases hgate : kernel.GateDenies strong action
  · exact hdenied action (h.requests hrequested)
      ((hstrong.mem_denied action).mpr (Or.inr (Or.inl ⟨h.requests hrequested, hgate⟩)))
  · exact happroval action ((hstrong.mem_approval action).mpr
      ⟨h.requests hrequested, hgate, h.needsApproval_iff.mpr hneeds⟩)

theorem safe (h : Strengthens weak strong) (hweak : kernel.Decides weak decision)
    (hstrong : kernel.Decides strong decision') (hasks : weak.task.requestedActions ≠ [])
    (hsafe : decision'.safeToExecute = true) : decision.safeToExecute = true := by
  obtain ⟨hallowed', -, -, -, hauto⟩ := hstrong.safe.mp hsafe
  have hallowed := h.allowed hweak hstrong hallowed'
  obtain ⟨-, -, hunknown, hdenied, happroval⟩ := hweak.status_allowed.mp hallowed
  refine hweak.safe.mpr ⟨hallowed, ?_, fun action => ⟨fun hrequested => ?_, fun haction => ?_⟩,
    happroval, fun action hrequested => hauto action (h.requests hrequested)⟩
  · obtain ⟨name, hname⟩ := List.exists_mem_of_ne_nil _ hasks
    have hknown := hunknown name
    rw [PolicyKernelService.Unknown, not_and] at hknown
    obtain ⟨action, hcanonical⟩ := not_forall_not.mp (hknown hname)
    exact ⟨action, name, hname, hcanonical⟩
  · have hgate : ¬kernel.GateDenies weak action := fun hgate => hdenied action hrequested
      ((hweak.mem_denied action).mpr (Or.inr (Or.inl ⟨hrequested, hgate⟩)))
    have hneeds : ¬kernel.NeedsApproval weak action := fun hneeds => happroval action
      ((hweak.mem_approval action).mpr ⟨hrequested, hgate, hneeds⟩)
    exact (hweak.mem_allowed action).mpr ⟨hrequested, hgate, hneeds⟩
  · exact ((hweak.mem_allowed action).mp haction).1

end Strengthens

/-- Turning constraints on and asking for more never turns a refusal into a permission: what was
not allowed is not allowed, what was not safe to execute is not safe, and no action is allowed
that was asked for before and not allowed. -/
theorem constraints_only_restrict (kernel : PolicyKernelService)
    {weak strong : PolicyResolveRequest} (h : Strengthens weak strong)
    {decision decision' : PolicyDecision} (hweak : kernel.resolve weak = .ok decision)
    (hstrong : kernel.resolve strong = .ok decision') :
    (decision.status = .denied ∨ decision.status = .needsApproval → decision'.status ≠ .allowed) ∧
    (weak.task.requestedActions ≠ [] → decision.safeToExecute = false →
      decision'.safeToExecute = false) ∧
    (strong.task.requestedActions = weak.task.requestedActions →
      ∀ action ∈ decision'.allowedActions, action ∈ decision.allowedActions) := by
  have hweak := PolicyKernelService.decides hweak
  have hstrong := PolicyKernelService.decides hstrong
  refine ⟨fun hrefused hallowed => ?_, fun hasks hunsafe => ?_, fun hsame action haction => ?_⟩
  · rw [h.allowed hweak hstrong hallowed] at hrefused
    exact absurd hrefused (by decide)
  · by_contra hsafe
    rw [Bool.not_eq_false] at hsafe
    rw [h.safe hweak hstrong hasks hsafe] at hunsafe
    cases hunsafe
  · obtain ⟨⟨name, hname, hcanonical⟩, hgate, hneeds⟩ := (hstrong.mem_allowed action).mp haction
    rw [hsame] at hname
    exact (hweak.mem_allowed action).mpr ⟨⟨name, hname, hcanonical⟩,
      fun hdenied => hgate (h.gateDenies hdenied), fun hneeded =>
        hneeds (h.needsApproval_iff.mpr hneeded)⟩

def readRequest : PolicyResolveRequest :=
  { task := { requestedActions := ["read_file"] } }

def readWithoutShell : PolicyResolveRequest :=
  { task := { requestedActions := ["read_file", "shell"] }, userConstraints := { noShell := true } }

theorem readRequest_is_safe :
    (shippedKernel.resolve readRequest).toOption.map (·.safeToExecute) = some true := by
  decide

/-- Asking for a command under `no_shell` takes the permission to read back. -/
theorem shell_takes_permission_back :
    ∃ decision decision', shippedKernel.resolve readRequest = .ok decision ∧
      shippedKernel.resolve readWithoutShell = .ok decision' ∧
      (decision.status = .denied ∨ decision.status = .needsApproval → decision'.status ≠ .allowed) ∧
      (readRequest.task.requestedActions ≠ [] → decision.safeToExecute = false →
        decision'.safeToExecute = false) ∧
      (readWithoutShell.task.requestedActions = readRequest.task.requestedActions →
        ∀ action ∈ decision'.allowedActions, action ∈ decision.allowedActions) := by
  have hstrong : Strengthens readRequest readWithoutShell :=
    ⟨rfl, rfl, rfl, rfl, by decide, by decide, by decide, by decide, by decide, by decide⟩
  have hread : (shippedKernel.resolve readRequest).toOption.isSome = true := by
    rw [← Option.isSome_map, readRequest_is_safe]
    rfl
  have hread' : (shippedKernel.resolve readWithoutShell).toOption.isSome = true := by
    decide +kernel
  obtain ⟨decision, hdecision⟩ := Lib.exists_ok_of_toOption_isSome hread
  obtain ⟨decision', hdecision'⟩ := Lib.exists_ok_of_toOption_isSome hread'
  exact ⟨decision, decision', hdecision, hdecision',
    constraints_only_restrict shippedKernel hstrong hdecision hdecision'⟩

/-- A request that asks for nothing is allowed and not safe to execute; asking for a file
to be read makes it safe. -/
theorem asking_makes_safe : Strengthens {} readRequest ∧
      (shippedKernel.resolve {}).toOption.map (·.safeToExecute) = some false ∧
      (shippedKernel.resolve readRequest).toOption.map (·.safeToExecute) = some true :=
  ⟨⟨rfl, rfl, rfl, rfl, by decide, by decide, by decide, by decide, by decide, by decide⟩,
    by decide +kernel, readRequest_is_safe⟩

end AIpinho.Policy
