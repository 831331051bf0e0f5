import AIpinho.Agents.PolicyKernel

/-!
# Which side effects the kernel permits

A call is let through when no early check denies it, the workspace passes, and it is a tool of
the sandbox, a command of a safe category that the mode approves, or another tool that no later
check stops.
-/

namespace AIpinho.Agents

open Lib
open AIpinho.Mission (containsText)

/-- A decision that runs the tool at once. -/
def KernelDecision.permits : KernelDecision → Bool
  | .allow => true
  | .autoApprove => true
  | .deny => false
  | .requireApproval => false

/-- The tool changes files or runs commands. -/
def ToolDefinition.HasSideEffect (tool : ToolDefinition) : Prop :=
  tool.writes = true ∨ tool.canRunShell = true

def KernelCall.InOpenWorkspace (call : KernelCall) : Prop :=
  ∀ workspace, call.workspace = some workspace →
    workspace.allowed = true ∧ workspace.workspaceRole ≠ .sourceReadonly ∧
      workspace.workspaceRole ≠ .protectedArea ∧ workspace.workspaceRole ≠ .forbidden

def KernelCall.IsModest (call : KernelCall) : Prop := call.risk = "low" ∨ call.risk = "medium"

def ToolDefinition.IsSandboxed (tool : ToolDefinition) : Prop :=
  tool.capability ∈ sandboxCapabilities ∧
    (tool.canRunShell = true → tool.capability = "sandbox_shell")

theorem ToolDefinition.HasSideEffect.writes {tool : ToolDefinition} (h : tool.HasSideEffect)
    (hshell : tool.canRunShell = false) : tool.writes = true := by
  rcases h with hwrites | hruns
  · exact hwrites
  · rw [hshell] at hruns
    cases hruns

namespace PolicyKernel

variable (kernel : PolicyKernel) (call : KernelCall)

/-- What is permitted with a side effect is modest, in a working mode and in an open workspace. -/
def PermitsOnlyModestEffects : Prop :=
  ∀ decision, kernel.evaluateToolInvocation call = .ok decision →
    decision.decision.permits = true → call.tool.HasSideEffect →
      kernel.executionMode call ∈ workingModes ∧ call.InOpenWorkspace ∧ call.IsModest

/-- The checks that come first: no secret in the input, a tool that is enabled and open to the
agent, an agent with access to the gateway, and no local lab that the policy has not enabled. -/
structure Admits : Prop where
  noSecret : containsSecretRisk call.inputSummary = false
  enabled : call.tool.enabled = true
  notDenied : call.agentId ∉ call.tool.agentDenylist
  listed : call.tool.agentAllowlist = [] ∨ call.agentId ∈ call.tool.agentAllowlist
  gateway : (((kernel.profile call.agentId).lookup "can_use_tool_gateway").getD
    (.bool true)).truthy = true
  lab : kernel.executionMode call = "unrestricted_local_lab" →
    kernel.flag "enable_unrestricted_local_lab" false = true

/-- The policy for writes to a system names the mode and the capability, unless it names none of
them, and it names the operation. -/
def MayWriteSystem : Prop :=
  ∃ fields modes operations capabilities,
    kernel.policy.lookup "system_mutable_write_policy" = some (.obj fields) ∧
      kernel.names fields "modes" = .ok modes ∧
      kernel.names fields "allow_operations" = .ok operations ∧
      kernel.names fields "allowed_capabilities" = .ok capabilities ∧
      (modes = [] ∨ kernel.executionMode call ∈ modes) ∧
      (capabilities = [] ∨ call.tool.capability ∈ capabilities) ∧
      (call.operationType.filter (· ≠ "")).getD call.tool.toolName ∈ operations

/-- The tool may be used in the workspace, which is neither forbidden nor protected. What writes
needs more: no source, and a system only as the policy says. -/
structure MayUse (workspace : WorkspaceResolution) : Prop where
  allowed : workspace.allowed = true
  notForbidden : workspace.workspaceRole ≠ .forbidden
  notProtected : workspace.workspaceRole ≠ .protectedArea
  notSource : call.tool.writes = true → workspace.workspaceRole ≠ .sourceReadonly
  system : call.tool.writes = true → workspace.workspaceRole = .systemMutable →
    kernel.flag "autoapprove_system_write" false = true ∨ kernel.MayWriteSystem call

/-- The call passes the first checks, and has the workspace that its tool asks for. -/
structure PassesChecks : Prop extends kernel.Admits call where
  workspace : call.tool.requiresWorkspace = true →
    ∃ workspace, call.workspace = some workspace ∧ kernel.MayUse call workspace

/-- The matrix has a true entry for a capability in a mode. -/
def Lists (mode capability : String) : Prop :=
  ∃ fields v, kernel.modePolicy mode = .obj fields ∧ fields.lookup capability = some v ∧
    v.truthy = true

/-- The entry of the matrix can be read: the mode has a mapping, or something that can be
searched and does not hold the capability. -/
def Reads (mode capability : String) : Prop :=
  match kernel.modePolicy mode with
  | .obj _ => True
  | .list items => Json.str capability ∉ items
  | .str text => containsText text capability = false
  | _ => False

def TakesLowRisk : Prop := call.risk = "low" ∧ kernel.flag "autoapprove_low_risk" true = true

def TakesMediumRisk : Prop :=
  call.risk = "medium" ∧ kernel.flag "autoapprove_medium_risk" true = true ∧
    kernel.executionMode call ∈ autorunModes

/-- A command of a safe category, in a mode that runs by itself or that lists the category. -/
structure IsApprovedCommand : Prop where
  shell : call.tool.canRunShell = true
  notSandbox : call.tool.capability ≠ "sandbox_shell"
  safe : shellCategoryOf call ∈ safeShellCategories
  approved : kernel.flag "autoapprove_medium_risk" true = true ∧
      kernel.executionMode call ∈ autorunModes ∨
    kernel.Lists (kernel.executionMode call) (shellCategoryOf call)

/-- The mode asks for no approval of the capability, or the policy takes the risk (a middling one
of a write only at its target) or else lists the capability. -/
def IsUnasked : Prop :=
  (kernel.executionMode call ∉ ["assisted_execution", "power_user", "unrestricted_local_lab"] ∨
      call.tool.capability ∉ writeCapabilities ++ ["shell"]) ∨
    kernel.TakesLowRisk call ∨
    kernel.TakesMediumRisk call ∧
      (call.tool.capability ∈ writeCapabilities → call.role = .targetMutable) ∨
    ¬kernel.TakesMediumRisk call ∧ kernel.Lists (kernel.executionMode call) call.tool.capability

/-- A tool that is neither a shell nor of the sandbox, and that no later
check stops. -/
structure IsUnstopped : Prop where
  noShell : call.tool.canRunShell = false
  notSandbox : call.tool.capability ∉ sandboxCapabilities
  notChat : kernel.executionMode call ≠ "safe_chat"
  notCritical : call.risk ≠ "critical"
  notHigh : call.risk ≠ "high"
  readable : kernel.TakesLowRisk call ∨ kernel.TakesMediumRisk call ∨
    kernel.Reads (kernel.executionMode call) call.tool.capability
  unasked : kernel.IsUnasked call

variable {kernel call}

theorem shellCategoryOf_safe_risk (hshell : call.tool.canRunShell = true)
    (hsafe : shellCategoryOf call ∈ safeShellCategories) : call.risk = "medium" := by
  rw [shellCategoryOf] at hsafe
  cases hcategory : call.shellCategory with
  | none =>
    rw [hcategory] at hsafe
    exact absurd hsafe (by decide)
  | some category =>
    rw [hcategory] at hsafe
    by_cases hempty : category = ""
    · rw [hempty] at hsafe
      exact absurd hsafe (by decide)
    · have hsame : ((some category).filter (· ≠ "")).getD "unknown_shell" = category := by
        simp [Option.filter, hempty]
      rw [hsame] at hsafe
      rw [KernelCall.risk, classifyRisk, hcategory]
      revert hsafe
      simp only [safeShellCategories, List.mem_cons, List.not_mem_nil, or_false]
      rintro (rfl | rfl | rfl | rfl | rfl) <;> simp [hshell] <;> decide

theorem permits_false_of_workspaceDecision {verdict : Verdict}
    (h : kernel.workspaceDecision call = .ok (some verdict)) :
    verdict.decision.permits = false := by
  rw [workspaceDecision] at h
  cases hworkspace : call.workspace with
  | none =>
    rw [hworkspace] at h
    cases h
    rfl
  | some workspace =>
    rw [hworkspace] at h
    dsimp only at h
    split at h
    · cases h
      rfl
    split at h
    · cases h
      rfl
    split at h
    · cases h
      rfl
    split at h
    · cases h
      rfl
    split at h
    · cases hlisted : kernel.systemMutableWriteAllowed (kernel.executionMode call)
        call.tool.capability ((call.operationType.filter (· ≠ "")).getD call.tool.toolName) with
      | error e =>
        rw [hlisted] at h
        cases h
      | ok listed =>
        rw [hlisted] at h
        cases listed <;> cases h
        rfl
    · cases h

theorem earlyDenial_eq_none_iff : kernel.earlyDenial call = none ↔ kernel.Admits call := by
  rw [earlyDenial]
  constructor
  · intro h
    split at h
    · cases h
    next hsecret =>
    split at h
    · cases h
    next henabled =>
    split at h
    · cases h
    next hagent =>
    split at h
    · cases h
    next hgateway =>
    split at h
    · cases h
    next hlab =>
    simp only [Bool.or_eq_true, not_or, Bool.and_eq_true, not_and, Bool.not_eq_true',
      List.isEmpty_eq_false_iff, List.contains_iff_mem, Bool.not_eq_false] at hagent
    refine ⟨by simpa using hsecret, by simpa using henabled, hagent.1, ?_, by simpa using hgateway,
      by simpa using hlab⟩
    exact or_iff_not_imp_left.mpr hagent.2
  · rintro ⟨hsecret, henabled, hdenied, hlisted, hgateway, hlab⟩
    have hagent : (call.tool.agentDenylist.contains call.agentId ||
        (!call.tool.agentAllowlist.isEmpty && !call.tool.agentAllowlist.contains call.agentId)) =
          false := by
      rcases hlisted with hempty | hmem
      · simp [hdenied, hempty]
      · simp [hdenied, hmem]
    rw [hsecret, henabled, hagent, hgateway]
    simpa using hlab

theorem systemMutableWriteAllowed_iff : kernel.systemMutableWriteAllowed
      (kernel.executionMode call) call.tool.capability
        ((call.operationType.filter (· ≠ "")).getD call.tool.toolName) = .ok true ↔
    kernel.MayWriteSystem call := by
  rw [systemMutableWriteAllowed, MayWriteSystem]
  cases hpolicy : kernel.policy.lookup "system_mutable_write_policy" with
  | none => simp
  | some v =>
    cases v with
    | obj fields =>
      have hleaves : ∀ (names : List String) (name : String),
          (!names.isEmpty && !names.contains name) = true ↔ ¬(names = [] ∨ name ∈ names) := by
        intro names name
        simp [not_or]
      simp only [bind, Except.bind, pure, Except.pure, hleaves, Option.some.injEq, Json.obj.injEq]
      cases hmodes : kernel.names fields "modes" <;>
        cases hoperations : kernel.names fields "allow_operations" <;>
          cases hcapabilities : kernel.names fields "allowed_capabilities" <;>
            simp [hmodes, hoperations, hcapabilities]
      split
      · simp_all
      · split <;> simp_all [or_iff_not_imp_left]
    | _ => simp

theorem workspaceDecision_eq_none_iff : kernel.workspaceDecision call = .ok none ↔
    ∃ workspace, call.workspace = some workspace ∧ kernel.MayUse call workspace := by
  rw [workspaceDecision]
  cases hworkspace : call.workspace with
  | none => simp
  | some workspace =>
    simp only [Option.some.injEq, exists_eq_left']
    constructor
    · intro h
      split at h
      · cases h
      next hallowed =>
      split at h
      · cases h
      next hreadonly =>
      split at h
      · cases h
      next hforbidden =>
      split at h
      · cases h
      next hprotected =>
      refine ⟨by simpa using hallowed, hforbidden, hprotected,
        fun hwrites hrole => hreadonly ⟨hrole, hwrites⟩, fun hwrites hrole => ?_⟩
      rw [or_iff_not_imp_left, ← systemMutableWriteAllowed_iff]
      intro hflag
      rw [if_pos ⟨hrole, hwrites, by simpa using hflag⟩] at h
      cases hlisted : kernel.systemMutableWriteAllowed (kernel.executionMode call)
          call.tool.capability
            ((call.operationType.filter (· ≠ "")).getD call.tool.toolName) with
      | error e =>
        rw [hlisted] at h
        cases h
      | ok listed =>
        rw [hlisted] at h
        cases listed with
        | true => rfl
        | false => cases h
    · rintro ⟨hallowed, hforbidden, hprotected, hsource, hsystem⟩
      rw [if_neg (by simp [hallowed]), if_neg fun h => hsource h.2 h.1, if_neg hforbidden,
        if_neg hprotected]
      split
      · next h =>
        rcases hsystem h.2.1 h.1 with hflag | hlisted
        · rw [hflag] at h
          cases h.2.2
        · rw [systemMutableWriteAllowed_iff.mpr hlisted]
          rfl
      · rfl

theorem passesChecks_iff : kernel.PassesChecks call ↔ kernel.earlyDenial call = none ∧
    (call.tool.requiresWorkspace = true → kernel.workspaceDecision call = .ok none) := by
  rw [earlyDenial_eq_none_iff, workspaceDecision_eq_none_iff]
  exact ⟨fun h => ⟨h.toAdmits, h.workspace⟩, fun h => ⟨h.1, h.2⟩⟩

theorem approvalRequired_eq_false_iff {mode capability : String} :
    approvalRequired mode capability = false ↔
      mode ∉ ["assisted_execution", "power_user", "unrestricted_local_lab"] ∨
        capability ∉ writeCapabilities ++ ["shell"] := by
  rw [approvalRequired, Bool.and_eq_false_iff, List.contains_eq_mem, List.contains_eq_mem,
    decide_eq_false_iff_not, decide_eq_false_iff_not]

theorem autoAllowed_of_safe {mode category : String} {role : WorkspaceRole}
    (hsafe : category ∈ safeShellCategories) :
    kernel.autoAllowed mode category role "medium" = .ok true ↔
      kernel.flag "autoapprove_medium_risk" true = true ∧ mode ∈ autorunModes ∨
        kernel.Lists mode category := by
  obtain ⟨hwrite, hauto, hchat⟩ : category ∉ writeCapabilities ∧
      category ∉ lowAutoCapabilities ∧ category ∉ ["artifact_create", "artifact_upload",
        "artifact_download", "validation", "report_generate"] := by
    revert hsafe
    decide +revert
  rw [autoAllowed, Lists, modeFlag, modeEntry]
  by_cases hmode : mode = "safe_chat"
  · have hlazy : mode ∉ autorunModes := by
      rw [hmode]
      decide
    rw [if_pos hmode, List.contains_eq_mem, decide_eq_false hchat]
    cases kernel.modePolicy mode with
    | obj fields =>
      cases hentry : fields.lookup category <;>
        simp [bind, Except.bind, pure, Except.pure, hlazy, hentry, Json.truthy]
    | _ => simp [bind, Except.bind, hlazy]
  rw [if_neg hmode, if_neg (by simp)]
  by_cases hmedium : kernel.flag "autoapprove_medium_risk" true = true ∧ mode ∈ autorunModes
  · rw [if_pos ⟨rfl, hmedium⟩]
    simp [hmedium, hwrite]
  rw [if_neg (by simpa using hmedium), or_iff_right hmedium]
  cases kernel.modePolicy mode with
  | obj fields =>
    cases hentry : fields.lookup category <;>
      simp [bind, Except.bind, pure, Except.pure, hauto, hentry]
  | list items => cases hany : items.any (· = .str category) <;>
      simp [bind, Except.bind, pure, Except.pure, hauto, hany]
  | str text => cases hany : containsText text category <;>
      simp [bind, Except.bind, pure, Except.pure, hauto, hany]
  | _ => simp [bind, Except.bind]

theorem PassesChecks.inOpenWorkspace (h : kernel.PassesChecks call)
    (hrequires : call.tool.requiresWorkspace = true) (hwrites : call.tool.writes = true) :
    call.InOpenWorkspace := by
  intro workspace hworkspace
  obtain ⟨given, hgiven, huse⟩ := h.workspace hrequires
  obtain rfl := Option.some.inj (hgiven.symm.trans hworkspace)
  exact ⟨huse.allowed, huse.notSource hwrites, huse.notProtected, huse.notForbidden⟩

/-- A shell outside of the sandbox is let through for approved commands only. -/
theorem permits_shellDecision_iff (hshell : call.tool.canRunShell = true)
    (hnot : call.tool.capability ≠ "sandbox_shell") :
    (∃ verdict, kernel.shellDecision call = .ok verdict ∧ verdict.decision.permits = true) ↔
      kernel.IsApprovedCommand call := by
  rw [shellDecision]
  by_cases hsafe : shellCategoryOf call ∈ safeShellCategories
  · obtain ⟨hcritical, hgoverned, hexternal⟩ :
        criticalShellCategories.contains (shellCategoryOf call) = false ∧
        governedGitShellCategories.contains (shellCategoryOf call) = false ∧
        externalOrGitShellCategories.contains (shellCategoryOf call) = false := by
      revert hsafe
      generalize shellCategoryOf call = category
      decide +revert
    have hcontains : safeShellCategories.contains (shellCategoryOf call) = true := by
      simpa using hsafe
    have happroved := @autoAllowed_of_safe kernel (kernel.executionMode call) _ call.role hsafe
    rw [hcritical, hgoverned, hexternal, hcontains, shellCategoryOf_safe_risk hshell hsafe]
    have hiff : kernel.IsApprovedCommand call ↔ kernel.autoAllowed (kernel.executionMode call)
        (shellCategoryOf call) call.role "medium" = .ok true :=
      ⟨fun h => happroved.mpr h.approved, fun h => ⟨hshell, hnot, hsafe, happroved.mp h⟩⟩
    rw [hiff]
    cases hallowed : kernel.autoAllowed (kernel.executionMode call) (shellCategoryOf call)
        call.role "medium" with
    | error e => simp [bind, Except.bind]
    | ok allowed =>
      cases allowed <;> simp [bind, Except.bind, pure, Except.pure, KernelDecision.permits]
  · have hcontains : safeShellCategories.contains (shellCategoryOf call) = false := by
      simpa using hsafe
    rw [hcontains]
    refine iff_of_false ?_ fun h => hsafe h.safe
    rintro ⟨verdict, hverdict, hpermits⟩
    split at hverdict
    · cases hverdict
      cases hpermits
    split at hverdict
    · cases hverdict
      cases hpermits
    split at hverdict
    · split at hverdict <;> cases hverdict <;> cases hpermits
    · cases hverdict
      cases hpermits

/-- What the policy does not approve is still allowed where no approval is asked for. -/
theorem unstopped_iff {mode capability : String} (hmode : kernel.executionMode call = mode)
    (hcapability : call.tool.capability = capability) (hchat : mode ≠ "safe_chat") :
    (∃ allowed, kernel.autoAllowed mode capability call.role call.risk = .ok allowed ∧
        (allowed = true ∨ approvalRequired mode capability = false)) ↔
      (kernel.TakesLowRisk call ∨ kernel.TakesMediumRisk call ∨ kernel.Reads mode capability) ∧
        kernel.IsUnasked call := by
  rw [IsUnasked, TakesLowRisk, TakesMediumRisk, hmode, hcapability,
    ← approvalRequired_eq_false_iff, autoAllowed, if_neg hchat]
  by_cases hlow : call.risk = "low" ∧ kernel.flag "autoapprove_low_risk" true = true
  · rw [if_pos hlow]
    simp [hlow]
  rw [if_neg hlow]
  by_cases hmedium : call.risk = "medium" ∧ kernel.flag "autoapprove_medium_risk" true = true ∧
      mode ∈ autorunModes
  · rw [if_pos hmedium]
    by_cases hrole : call.role = .targetMutable <;>
      by_cases hwrite : capability ∈ writeCapabilities <;> simp [hmedium, hrole, hwrite]
  have hdefault : (lowAutoCapabilities.contains capability && workingModes.contains mode) = true →
      approvalRequired mode capability = false := by
    intro h
    rw [Bool.and_eq_true, List.contains_iff_mem] at h
    refine approvalRequired_eq_false_iff.mpr (.inr ?_)
    have hauto := h.1
    clear * - hauto
    decide +revert
  simp only [hlow, hmedium, false_or, false_and, not_false_eq_true, true_and, Lists, Reads,
    modeEntry, bind, Except.bind, pure, Except.pure]
  cases kernel.modePolicy mode with
  | obj fields =>
    cases hentry : fields.lookup capability with
    | none => simpa [hentry] using hdefault
    | some v => simp [hentry, or_comm]
  | list items =>
    by_cases hmem : Json.str capability ∈ items
    · simp [hmem]
    · simpa [hmem] using hdefault
  | str text =>
    cases hcontains : containsText text capability with
    | true => simp [hcontains]
    | false => simpa [hcontains] using hdefault
  | _ => simp

/-- A writing tool without a shell is let through by the sandbox or unstopped. -/
theorem permits_capabilityDecision_iff (hshell : call.tool.canRunShell = false)
    (hwrites : call.tool.writes = true) :
    (∃ verdict, kernel.capabilityDecision call = .ok verdict ∧ verdict.decision.permits = true) ↔
      call.tool.IsSandboxed ∨ kernel.IsUnstopped call := by
  rw [capabilityDecision]
  by_cases hsandbox : call.tool.capability ∈ sandboxCapabilities
  · rw [List.contains_eq_mem, if_pos (decide_eq_true hsandbox)]
    refine iff_of_true ⟨_, rfl, rfl⟩ (.inl ⟨hsandbox, fun h => ?_⟩)
    rw [hshell] at h
    cases h
  have hstops : ∀ verdict : Verdict, verdict.decision.permits = false →
      ¬∃ v, Except.ok (ε := String) verdict = .ok v ∧ v.decision.permits = true := by
    rintro verdict hnot ⟨v, hv, hpermits⟩
    cases hv
    rw [hnot] at hpermits
    cases hpermits
  rw [List.contains_eq_mem, if_neg (by simpa using hsandbox),
    or_iff_right fun h : call.tool.IsSandboxed => hsandbox h.1]
  by_cases hchat : kernel.executionMode call = "safe_chat"
  · rw [if_pos ⟨hchat, by simp [hwrites]⟩]
    exact iff_of_false (hstops _ rfl) fun h => h.notChat hchat
  rw [if_neg fun h => hchat h.1]
  by_cases hcritical : call.risk = "critical"
  · rw [if_pos hcritical]
    exact iff_of_false (hstops _ rfl) fun h => h.notCritical hcritical
  rw [if_neg hcritical]
  by_cases hhigh : call.risk = "high"
  · rw [if_pos hhigh]
    exact iff_of_false (hstops _ rfl) fun h => h.notHigh hhigh
  rw [if_neg hhigh]
  have hiff := @unstopped_iff kernel call _ _ rfl rfl hchat
  have hrest : kernel.IsUnstopped call ↔ ∃ allowed, kernel.autoAllowed
      (kernel.executionMode call) call.tool.capability call.role call.risk = .ok allowed ∧
        (allowed = true ∨
          approvalRequired (kernel.executionMode call) call.tool.capability = false) :=
    ⟨fun h => hiff.mpr ⟨h.readable, h.unasked⟩, fun h => ⟨hshell, hsandbox, hchat, hcritical,
      hhigh, (hiff.mp h).1, (hiff.mp h).2⟩⟩
  rw [hrest]
  cases kernel.autoAllowed (kernel.executionMode call) call.tool.capability call.role
      call.risk with
  | error e => simp [bind, Except.bind]
  | ok allowed =>
    cases allowed <;> cases approvalRequired (kernel.executionMode call) call.tool.capability <;>
      simp [bind, Except.bind, pure, Except.pure, KernelDecision.permits]

theorem permits_toolDecision_iff (heffect : call.tool.HasSideEffect) :
    (∃ verdict, (if call.tool.canRunShell then
        if call.tool.capability = "sandbox_shell" then
          .ok ⟨.autoApprove, "sandbox_shell_allowed", "medium"⟩
        else kernel.shellDecision call
      else kernel.capabilityDecision call) = .ok verdict ∧ verdict.decision.permits = true) ↔
      call.tool.IsSandboxed ∨ kernel.IsApprovedCommand call ∨ kernel.IsUnstopped call := by
  cases hshell : call.tool.canRunShell with
  | false =>
    rw [if_neg Bool.false_ne_true, permits_capabilityDecision_iff hshell (heffect.writes hshell),
      or_iff_right fun h : kernel.IsApprovedCommand call => by simp [h.shell] at hshell]
  | true =>
    rw [if_pos rfl, or_iff_left fun h : kernel.IsUnstopped call => by simp [h.noShell] at hshell]
    by_cases hsandbox : call.tool.capability = "sandbox_shell"
    · rw [if_pos hsandbox]
      refine iff_of_true ⟨_, rfl, rfl⟩ (.inl ⟨?_, fun _ => hsandbox⟩)
      rw [hsandbox]
      decide
    · rw [if_neg hsandbox, permits_shellDecision_iff hshell hsandbox,
        or_iff_right fun h : call.tool.IsSandboxed => hsandbox (h.2 hshell)]

theorem permits_iff (heffect : call.tool.HasSideEffect) :
    (∃ decision, kernel.evaluateToolInvocation call = .ok decision ∧
        decision.decision.permits = true) ↔
      kernel.PassesChecks call ∧ (call.tool.IsSandboxed ∨ kernel.IsApprovedCommand call ∨
        kernel.IsUnstopped call) := by
  have hverdict : (∃ decision, kernel.evaluateToolInvocation call = .ok decision ∧
      decision.decision.permits = true) ↔
        ∃ verdict, kernel.verdict call = .ok verdict ∧ verdict.decision.permits = true := by
    rw [evaluateToolInvocation]
    cases kernel.verdict call <;> simp [Except.map, decisionOf]
  rw [hverdict, verdict, passesChecks_iff]
  cases hearly : kernel.earlyDenial call with
  | some reason => simp [KernelDecision.permits]
  | none =>
    rw [← permits_toolDecision_iff heffect]
    cases hrequires : call.tool.requiresWorkspace with
    | false => simp [bind, Except.bind, pure, Except.pure]
    | true =>
      cases hworkspace : kernel.workspaceDecision call with
      | error e => simp [bind, Except.bind]
      | ok checked =>
        cases checked with
        | none => simp [bind, Except.bind, pure, Except.pure]
        | some verdict =>
          have hpermits := permits_false_of_workspaceDecision hworkspace
          simp [bind, Except.bind, pure, Except.pure, hpermits]

variable (kernel call)

/-- The calls with a side effect that are let through although they should not be: a tool of the
sandbox; a command in a mode that lists its category, or in a workspace that is not open; another
tool in a mode, a workspace or with a risk that the kernel does not know or ask for. -/
def Leaks : Prop :=
  kernel.PassesChecks call ∧ call.tool.HasSideEffect ∧
    (call.tool.IsSandboxed ∧
        (kernel.executionMode call ∉ workingModes ∨ ¬call.InOpenWorkspace ∨ ¬call.IsModest) ∨
      kernel.IsApprovedCommand call ∧
        (kernel.executionMode call ∉ workingModes ∨ ¬call.InOpenWorkspace) ∨
      kernel.IsUnstopped call ∧
        (kernel.executionMode call ∉ workingModes ∨
          call.tool.requiresWorkspace = false ∧ ¬call.InOpenWorkspace ∨
          call.tool.canModifyFilesystem = false ∧ ¬call.IsModest))

variable {kernel call}

theorem IsUnstopped.isModest (h : kernel.IsUnstopped call)
    (hmodifies : call.tool.canModifyFilesystem = true) : call.IsModest := by
  obtain ⟨hshell, -, -, hcritical, hhigh, -, -⟩ := h
  rw [KernelCall.IsModest]
  rw [KernelCall.risk, classifyRisk, hshell] at hcritical hhigh ⊢
  split at hcritical
  · exact absurd rfl hcritical
  next hnone =>
  rw [if_neg hnone] at hhigh
  split at hhigh
  · exact absurd rfl hhigh
  next hnone' =>
  rw [if_neg hnone, if_neg hnone', if_neg Bool.false_ne_true]
  rw [if_neg Bool.false_ne_true] at hhigh
  split at hhigh
  · next hasked =>
    rw [if_pos hasked]
    split at hhigh
    · next htarget => exact .inr (if_pos htarget)
    · exact absurd rfl hhigh
  · next hasked =>
    rw [if_neg hasked, if_pos hmodifies]
    exact .inr rfl

variable (kernel call)

/-- The kernel permits side effects only in a working mode, in an open workspace and at a
modest risk, unless the call is of one of the kinds of `Leaks`. -/
theorem permits_only_modest_effects_iff :
    kernel.PermitsOnlyModestEffects call ↔ ¬kernel.Leaks call := by
  constructor
  · rintro honly ⟨hchecks, heffect, hkind⟩
    have hlets : call.tool.IsSandboxed ∨ kernel.IsApprovedCommand call ∨
        kernel.IsUnstopped call :=
      hkind.imp And.left (Or.imp And.left And.left)
    obtain ⟨decision, hdecision, hlet⟩ := (permits_iff heffect).mpr ⟨hchecks, hlets⟩
    obtain ⟨hmode, hopen, hmodest⟩ := honly decision hdecision hlet heffect
    rcases hkind with ⟨-, hfar⟩ | ⟨-, hfar⟩ | ⟨-, hfar⟩
    · rcases hfar with hfar | hfar | hfar
      · exact hfar hmode
      · exact hfar hopen
      · exact hfar hmodest
    · rcases hfar with hfar | hfar
      · exact hfar hmode
      · exact hfar hopen
    · rcases hfar with hfar | ⟨-, hfar⟩ | ⟨-, hfar⟩
      · exact hfar hmode
      · exact hfar hopen
      · exact hfar hmodest
  · intro hleaks decision hdecision hlet heffect
    obtain ⟨hchecks, hkind⟩ := (permits_iff heffect).mp ⟨decision, hdecision, hlet⟩
    by_contra hfar
    refine hleaks ⟨hchecks, heffect, ?_⟩
    rcases hkind with hkind | hkind | hkind
    · refine .inl ⟨hkind, ?_⟩
      by_contra hnear
      push Not at hnear
      exact hfar hnear
    · refine .inr (.inl ⟨hkind, ?_⟩)
      by_contra hnear
      push Not at hnear
      exact hfar ⟨hnear.1, hnear.2, .inr (shellCategoryOf_safe_risk hkind.shell hkind.safe)⟩
    · refine .inr (.inr ⟨hkind, ?_⟩)
      by_contra hnear
      push Not at hnear
      obtain ⟨hmode, hopen, hmodest⟩ := hnear
      have hwrites := heffect.writes hkind.noShell
      refine hfar ⟨hmode, ?_, ?_⟩
      · cases hrequires : call.tool.requiresWorkspace with
        | false => exact hopen hrequires
        | true => exact hchecks.inOpenWorkspace hrequires hwrites
      · cases hmodifies : call.tool.canModifyFilesystem with
        | false => exact hmodest hmodifies
        | true => exact hkind.isModest hmodifies

end PolicyKernel

def createFileTool : ToolDefinition where
  toolName := "create_file"
  capability := "workspace_write"
  riskLevel := "medium"
  requiresWorkspace := true
  requiresApproval := false
  canModifyFilesystem := true
  canRunShell := false
  enabled := true
  agentAllowlist := []
  agentDenylist := []

def targetWorkspace : WorkspaceResolution where
  workspaceId := some "dev_ai"
  workspaceRole := .targetMutable
  rootPath := some "/dev/ai"
  resolvedPath := some "/dev/ai/notes.txt"
  allowed := true
  reasonCode := "workspace_allowed"
  evidenceRefs := ["workspace:dev_ai"]

def writeCall (mode : String) : KernelCall where
  agentId := "aipinho"
  tool := createFileTool
  workspace := some targetWorkspace
  inputSummary := "write"
  shellCategory := none
  operationType := none
  executionMode := some mode

def defaultKernel : PolicyKernel := ⟨[], [], fun v => (v.text?).getD ""⟩

/-- A file is written in a mode that does not exist. -/
theorem unknown_mode_is_allowed :
    ¬defaultKernel.PermitsOnlyModestEffects (writeCall "conservative") := by
  intro honly
  have hallowed : (defaultKernel.evaluateToolInvocation (writeCall "conservative")).map
      (·.decision) = .ok .allow := by decide +kernel
  cases hdecision : defaultKernel.evaluateToolInvocation (writeCall "conservative") with
  | error e =>
    rw [hdecision] at hallowed
    cases hallowed
  | ok decision =>
    rw [hdecision] at hallowed
    have hlet : decision.decision = .allow := by simpa [Except.map] using hallowed
    have hmode := (honly decision hdecision (by rw [hlet]; rfl) (.inl rfl)).1
    revert hmode
    decide +kernel

end AIpinho.Agents
