import AIpinho.Lib.Text
import AIpinho.Mission.Contract
import AIpinho.Policy.Containment
import Mathlib.Data.List.MinMax
import Mathlib.Data.List.ReduceOption
import Mathlib.Data.Prod.Lex

/-!
# The role of a workspace

Of the workspaces around a path the one with the longest root counts, and of several with roots
of the same length the most restrictive one, or else the first. The resources of a mission
replace the registered role unless it is one of four closed ones.
-/

namespace AIpinho.Policy

open List Lib
open AIpinho.Mission (MissionResourceScope)

inductive WorkspaceRole
  | sourceReadonly | targetMutable | externalInbox | artifactOutput
  | systemMutable | protectedRole | tempStaging | forbidden
  deriving DecidableEq

/-- What a contract permits. -/
structure RolePermissions where
  readAllowed : Bool
  writeAllowed : Bool
  shellAllowed : Bool
  patchAllowed : Bool
  approvalRequired : Bool
  allowedOperations : List String
  forbiddenOperations : List String
  maxRiskWithoutApproval : String

structure WorkspaceRoleContract extends RolePermissions where
  workspaceId : String
  rootPath : String
  role : WorkspaceRole
  humanLabel : String
  reason : String
  evidence : List String
  matchedRoot : Option String
  pathWithinWorkspace : Bool

inductive RoleStatus
  | allowed | denied | needsClarification
  deriving DecidableEq

/-- `WorkspaceRoleDecision`, without its trace. -/
structure WorkspaceRoleDecision where
  status : RoleStatus
  contract : Option WorkspaceRoleContract
  reason : String

/-- An entry of the registry. -/
structure WorkspaceEntry where
  workspaceId : Option String
  rootPath : Option String
  role : Option String
  readAllowed : Option Bool
  writeAllowed : Option Bool
  shellAllowed : Option Bool
  patchAllowed : Option Bool
  approvalRequired : Option Bool
  allowedOperations : Option (List String)
  forbiddenOperations : Option (List String)
  maxRiskWithoutApproval : Option String
  humanLabel : Option String
  label : Option String
  reason : Option String
  evidence : List String

namespace WorkspaceRole

def names : List (String × WorkspaceRole) :=
  [("source_readonly", sourceReadonly), ("target_mutable", targetMutable),
    ("external_inbox", externalInbox), ("artifact_output", artifactOutput),
    ("system_mutable", systemMutable), ("protected", protectedRole),
    ("temp_staging", tempStaging), ("forbidden", forbidden)]

def ofName (name : String) : Option WorkspaceRole := names.lookup name

/-- `ROLE_RESTRICTIVENESS`. -/
def restrictiveness : WorkspaceRole → ℕ
  | forbidden => 5
  | protectedRole => 4
  | sourceReadonly | externalInbox => 3
  | targetMutable | artifactOutput | tempStaging => 2
  | systemMutable => 1

def safeDefaults : WorkspaceRole → RolePermissions
  | sourceReadonly => ⟨true, false, false, false, false,
      ["read_workspace", "inspect_files", "analyze", "run_shell_readonly"],
      ["create_directory", "create_file", "modify_file", "delete_file", "move_file",
        "apply_patch", "run_shell_write"], "low"⟩
  | targetMutable => ⟨true, true, true, true, true,
      ["read_workspace", "create_directory", "create_file", "modify_file", "apply_patch",
        "run_shell_readonly", "run_shell_test", "run_shell_build"],
      ["delete_file", "move_file", "git_write_shell", "destructive_shell"], "low"⟩
  | externalInbox => ⟨true, false, false, false, false,
      ["read_workspace", "inspect_files", "analyze", "copy_from"],
      ["create_directory", "create_file", "modify_file", "delete_file", "move_file",
        "apply_patch", "run_shell_write"], "low"⟩
  | artifactOutput => ⟨true, false, false, false, true,
      ["read_workspace", "artifact_create"],
      ["delete_file", "move_file", "apply_patch", "run_shell_write", "destructive_shell"],
      "low"⟩
  | tempStaging => ⟨true, false, false, false, true,
      ["read_workspace", "inspect_files", "analyze"],
      ["delete_file", "move_file", "git_write_shell", "destructive_shell"], "low"⟩
  | systemMutable => ⟨true, true, true, true, true,
      ["read_workspace", "create_file", "modify_file", "apply_patch", "run_shell_readonly",
        "run_shell_test", "run_shell_build", "process_control_shell"],
      ["delete_file", "move_file", "git_write_shell", "destructive_shell"], "low"⟩
  | protectedRole => ⟨true, false, false, false, true,
      ["read_workspace", "run_shell_readonly"],
      ["create_file", "modify_file", "delete_file", "move_file", "apply_patch",
        "run_shell_write", "destructive_shell"], "none"⟩
  | forbidden => ⟨false, false, false, false, true, [],
      ["read_workspace", "create_file", "modify_file", "delete_file", "move_file",
        "apply_patch", "run_shell_write", "destructive_shell"], "none"⟩

/-- The roles in which a resource of a mission changes nothing. -/
def closed : List WorkspaceRole := [forbidden, protectedRole, sourceReadonly, externalInbox]

/-- The roles a resource of a mission may give. -/
def grantable : List String :=
  ["source_readonly", "target_mutable", "system_mutable", "temp_staging"]

end WorkspaceRole

def readOnlyOperations : List String :=
  ["read_workspace", "inspect_files", "analyze", "list_files", "search_files"]

def writeOperations : List String :=
  ["create_directory", "create_file", "modify_file", "delete_file", "move_file", "apply_patch",
    "run_shell_write"]

def operationAllowed (contract : RolePermissions) (operationType : String) : Bool × String :=
  if contract.forbiddenOperations.contains operationType then
    (false, "operation_forbidden_by_workspace_role")
  else if readOnlyOperations.contains operationType then
    if contract.readAllowed then (true, "workspace_role_allows_read_operation")
    else (false, "workspace_role_denies_read")
  else if !contract.allowedOperations.isEmpty &&
      !contract.allowedOperations.contains operationType then
    (false, "operation_not_allowed_by_workspace_role")
  else if writeOperations.contains operationType && !contract.writeAllowed then
    (false, "workspace_role_denies_write")
  else if operationType = "apply_patch" && !contract.patchAllowed then
    (false, "workspace_role_denies_patch")
  else if operationType = "run_shell_readonly" && !contract.readAllowed then
    (false, "workspace_role_denies_readonly_shell")
  else if "run_shell".toList.isPrefixOf operationType.toList &&
      operationType ≠ "run_shell_readonly" && !contract.shellAllowed then
    (false, "workspace_role_denies_shell")
  else (true, "workspace_role_allows_operation")

/-- `WorkspaceRoleContractService`: its registry and what it asks of paths and characters. -/
structure RoleContracts where
  /-- The workspaces of the registry, nothing for an item that is no dictionary. -/
  workspaces : List (Option WorkspaceEntry)
  /-- `os.sep`. -/
  sep : Char
  normalize : String → List Char
  /-- `Path(value).name`. -/
  pathName : String → String
  isAlnum : Char → Bool
  lower : Char → List Char

namespace RoleContracts

variable (service : RoleContracts)

/-- `_is_under`, and `MissionLocalResourceScopeService.is_under`. -/
def isUnder (path root : String) : Bool :=
  textIsUnder service.sep (service.normalize path) (service.normalize root)

/-- `value or default`, of a text that may be missing. -/
def orElse (value : Option String) (default : String) : String :=
  (value.filter (· ≠ "")).getD default

def workspaceId (rootPath : Option String) (role : String) : String :=
  let leaf := orElse (some (service.pathName (orElse rootPath role))) role
  let safe := strip (· = '_') (String.ofList
    (leaf.toList.flatMap fun c => if service.isAlnum c then service.lower c else ['_']))
  orElse (some safe) role

/-- `_contract_from_entry`, nothing where the role is not one of the eight. -/
def contractFromEntry (entry : WorkspaceEntry) (matchedRoot : Option String) (within : Bool) :
    Option WorkspaceRoleContract :=
  let role := orElse entry.role "forbidden"
  let defaults := ((WorkspaceRole.ofName role).getD .forbidden).safeDefaults
  (WorkspaceRole.ofName role).map fun workspaceRole =>
    { readAllowed := entry.readAllowed.getD defaults.readAllowed
      writeAllowed := entry.writeAllowed.getD defaults.writeAllowed
      shellAllowed := entry.shellAllowed.getD defaults.shellAllowed
      patchAllowed := entry.patchAllowed.getD defaults.patchAllowed
      approvalRequired := entry.approvalRequired.getD defaults.approvalRequired
      allowedOperations := entry.allowedOperations.getD defaults.allowedOperations
      forbiddenOperations := entry.forbiddenOperations.getD defaults.forbiddenOperations
      maxRiskWithoutApproval :=
        entry.maxRiskWithoutApproval.getD defaults.maxRiskWithoutApproval
      workspaceId := orElse entry.workspaceId (service.workspaceId entry.rootPath role)
      rootPath := orElse entry.rootPath ""
      role := workspaceRole
      humanLabel := orElse entry.humanLabel (orElse entry.label role)
      reason := orElse entry.reason ("workspace_role_" ++ role)
      evidence := entry.evidence
      matchedRoot := matchedRoot
      pathWithinWorkspace := within }

/-- An entry that says no more than the service puts in. -/
def plainEntry (workspaceId rootPath role humanLabel reason : String) (evidence : List String) :
    WorkspaceEntry :=
  ⟨workspaceId, rootPath, role, none, none, none, none, none, none, none, none, humanLabel, none,
    reason, evidence⟩

def matching (path : String) : List WorkspaceEntry :=
  service.workspaces.reduceOption.filter fun entry =>
    orElse entry.rootPath "" ≠ "" && service.isUnder path (orElse entry.rootPath "")

def specificity (entry : WorkspaceEntry) : ℕ ×ₗ ℕ :=
  toLex ((service.normalize (orElse entry.rootPath "")).length,
    ((WorkspaceRole.ofName (orElse entry.role "forbidden")).getD .forbidden).restrictiveness)

def decisionOf (entry : WorkspaceEntry) : Option WorkspaceRoleDecision :=
  (service.contractFromEntry entry (some (orElse entry.rootPath "")) true).map fun contract =>
    { status := if contract.role = .forbidden then .denied else .allowed
      contract := some contract
      reason := contract.reason }

/-- `resolve`, nothing where a contract cannot be built. -/
def resolve (path : Option String) (required : Bool) : Option WorkspaceRoleDecision :=
  match path.filter (· ≠ "") with
  | none =>
    some
      { status := if required then .needsClarification else .allowed
        contract := none
        reason := if required then "workspace_missing" else "workspace_not_required" }
  | some path =>
    match (service.matching path).argmax service.specificity with
    | none =>
      (service.contractFromEntry
        (plainEntry "unregistered_workspace" path "forbidden" "Unregistered workspace"
          "Workspace is not registered for governed operations." []) none false).map
        fun contract => ⟨.denied, some contract, "workspace_not_registered"⟩
    | some entry => service.decisionOf entry

def scopeForPath (resources : List MissionResourceScope) (path : Option String) :
    Option MissionResourceScope :=
  (path.filter (· ≠ "")).bind fun path =>
    (resources.filter fun resource =>
      (resource.resourceType = .localWorkspace || resource.resourceType = .missionStaging) &&
        (resource.locator.filter (· ≠ "")).any (service.isUnder path)).argmax fun resource =>
          (service.normalize (resource.locator.getD "")).length

def missionRole (scope : MissionResourceScope) : String :=
  let role := orElse scope.role "source_readonly"
  if WorkspaceRole.grantable.contains role then role else "source_readonly"

def isClosed (base : WorkspaceRoleDecision) : Bool :=
  base.reason ≠ "workspace_not_registered" &&
    base.contract.any fun contract => WorkspaceRole.closed.contains contract.role

def resolveWithResources (path : Option String) (resources : List MissionResourceScope)
    (required : Bool) : Option WorkspaceRoleDecision := do
  let base ← service.resolve path required
  match service.scopeForPath resources path with
  | none => some base
  | some scope =>
    if isClosed base then some base
    else
      let role := missionRole scope
      let locator := orElse scope.locator (path.getD "")
      let contract ← service.contractFromEntry
        (plainEntry scope.resourceId locator role ("Mission-scoped " ++ role ++ " workspace")
          "workspace_role_from_mission_resource"
          (scope.provenanceRefs ++ ["mission_contract.local_resources"]))
        (some locator) true
      return ⟨.allowed, some contract, "workspace_role_from_mission_resource"⟩

/-! ### What the selection depends on -/

variable {service : RoleContracts}

def granted (decision : Option WorkspaceRoleDecision) :
    Option (Option (WorkspaceRole × RolePermissions)) :=
  decision.map fun decision =>
    decision.contract.map fun contract => (contract.role, contract.toRolePermissions)

def best (service : RoleContracts) (path : String) : List WorkspaceEntry :=
  (service.matching path).filter fun entry =>
    (service.matching path).all fun other => service.specificity other ≤ service.specificity entry

def reordered (service : RoleContracts) (workspaces : List (Option WorkspaceEntry)) :
    RoleContracts :=
  { service with workspaces := workspaces }

variable {path : String} {workspaces : List (Option WorkspaceEntry)}

theorem matching_reordered (h : service.workspaces.Perm workspaces) (path : String) :
    (service.matching path).Perm ((service.reordered workspaces).matching path) :=
  (h.filterMap id).filter _

variable {entry : WorkspaceEntry}

theorem mem_best : entry ∈ service.best path ↔ entry ∈ service.matching path ∧
      ∀ other ∈ service.matching path, service.specificity other ≤ service.specificity entry := by
  rw [best, mem_filter, all_eq_true]
  simp only [decide_eq_true_eq]

theorem mem_best_of_argmax (hmem : ∀ other, other ∈ service.matching path ↔
      other ∈ (service.reordered workspaces).matching path)
    (h : ((service.reordered workspaces).matching path).argmax service.specificity = some entry) :
    entry ∈ service.best path :=
  mem_best.mpr ⟨(hmem entry).mpr (argmax_mem h),
    fun other hother => le_of_mem_argmax ((hmem other).mp hother) h⟩

theorem exists_order_of_mem_best (h : entry ∈ service.best path) :
    ∃ workspaces, service.workspaces.Perm workspaces ∧
      ((service.reordered workspaces).matching path).argmax service.specificity = some entry := by
  obtain ⟨hmem, hmax⟩ := mem_best.mp h
  obtain ⟨hregistered, hmatch⟩ := mem_filter.mp hmem
  rw [reduceOption_mem_iff] at hregistered
  obtain ⟨before, after, hsplit⟩ := append_of_mem hregistered
  have hperm : service.workspaces.Perm (some entry :: (before ++ after)) := hsplit ▸ perm_middle
  refine ⟨_, hperm, ?_⟩
  have hcons : (service.reordered (some entry :: (before ++ after))).matching path =
      entry :: (service.reordered (before ++ after)).matching path := by
    simp only [matching, reordered, reduceOption_cons_of_some]
    exact filter_cons_of_pos hmatch
  rw [hcons, argmax_cons]
  cases hrest : ((service.reordered (before ++ after)).matching path).argmax
      service.specificity with
  | none => rfl
  | some other =>
    have hother : other ∈ service.matching path := (matching_reordered hperm path).symm.subset
        (hcons ▸ mem_cons_of_mem _ (argmax_mem hrest))
    exact if_neg (not_lt_of_ge (hmax other hother))

theorem resolve_of_argmax (hpath : path ≠ "") (required : Bool)
    (h : (service.matching path).argmax service.specificity = some entry) :
    service.resolve (some path) required = service.decisionOf entry := by
  simp [resolve, Option.filter, hpath, h]

variable (service) in
/-- The order of the registry does not matter exactly if the best entries say the same. -/
theorem resolve_orderFree_iff (hpath : path ≠ "") (required : Bool) :
    (∀ workspaces, service.workspaces.Perm workspaces →
      granted ((service.reordered workspaces).resolve (some path) required) =
        granted (service.resolve (some path) required)) ↔
      ∀ a ∈ service.best path, ∀ b ∈ service.best path,
        granted (service.decisionOf a) = granted (service.decisionOf b) := by
  constructor
  · intro h a ha b hb
    have hall : ∀ entry ∈ service.best path, granted (service.decisionOf entry) =
        granted (service.resolve (some path) required) := by
      intro entry hentry
      obtain ⟨workspaces, hperm, hargmax⟩ := exists_order_of_mem_best hentry
      rw [← h workspaces hperm, resolve_of_argmax hpath required hargmax]
      rfl
    rw [hall a ha, hall b hb]
  · intro h workspaces hperm
    have hmatching := matching_reordered hperm path
    cases hargmax : (service.matching path).argmax service.specificity with
    | none =>
      have hnil := argmax_eq_none.mp hargmax
      have hnil' := (hnil ▸ hmatching).symm.eq_nil
      simp only [resolve, Option.filter, hpath, ne_eq, not_false_eq_true, decide_true, if_true,
        hnil, hnil', argmax_nil]
      rfl
    | some entry =>
      have hself : ((service.reordered service.workspaces).matching path).argmax
          service.specificity = some entry := hargmax
      obtain ⟨other, hother⟩ : ∃ other,
          ((service.reordered workspaces).matching path).argmax service.specificity =
            some other := by
        refine Option.ne_none_iff_exists'.mp fun hnone => ?_
        have hnil := (argmax_eq_none.mp hnone ▸ hmatching).eq_nil
        rw [hnil, argmax_nil] at hargmax
        cases hargmax
      rw [resolve_of_argmax hpath required hargmax, resolve_of_argmax hpath required hother]
      exact h other (mem_best_of_argmax (fun _ => hmatching.mem_iff) hother) entry
        (mem_best_of_argmax (fun _ => Iff.rfl) hself)

/-! ### What the resources of a mission add -/

def grants (decision : WorkspaceRoleDecision) (operationType : String) : Bool :=
  decision.contract.any fun contract =>
    (operationAllowed contract.toRolePermissions operationType).1

theorem ofName_missionRole (scope : MissionResourceScope) :
    ∃ role, WorkspaceRole.ofName (missionRole scope) = some role ∧ missionRole scope ≠ "" := by
  have hmem : missionRole scope ∈ WorkspaceRole.grantable := by
    simp only [missionRole]
    split
    · rename_i h
      exact contains_iff_mem.mp h
    · decide
  have hall : ∀ name ∈ WorkspaceRole.grantable,
      (WorkspaceRole.ofName name).isSome = true ∧ name ≠ "" := by decide
  obtain ⟨hsome, hne⟩ := hall _ hmem
  obtain ⟨role, hrole⟩ := Option.isSome_iff_exists.mp hsome
  exact ⟨role, hrole, hne⟩

variable (service) in
theorem contractFromEntry_plainEntry {role : String} {workspaceRole : WorkspaceRole}
    (hrole : WorkspaceRole.ofName role = some workspaceRole) (hne : role ≠ "")
    (id root label reason : String) (evidence : List String) (matchedRoot : Option String) :
    ∃ contract, service.contractFromEntry (plainEntry id root role label reason evidence)
        matchedRoot true = some contract ∧
      contract.toRolePermissions = workspaceRole.safeDefaults := by
  have horElse : orElse (some role) "forbidden" = role := by simp [orElse, Option.filter, hne]
  simp only [contractFromEntry, plainEntry, horElse, hrole, Option.map_some]
  exact ⟨_, rfl, rfl⟩

/-- Where the registered role is not closed, the operations granted are those of the defaults
of the mission resource's role. -/
theorem resolveWithResources_mission {path : Option String}
    {resources : List MissionResourceScope} {required : Bool} {base : WorkspaceRoleDecision}
    {scope : MissionResourceScope} (hbase : service.resolve path required = some base)
    (hopen : isClosed base = false) (hscope : service.scopeForPath resources path = some scope) :
    ∃ decision role, service.resolveWithResources path resources required = some decision ∧
      WorkspaceRole.ofName (missionRole scope) = some role ∧
      ∀ operationType, grants decision operationType =
        (operationAllowed role.safeDefaults operationType).1 := by
  obtain ⟨role, hrole, hne⟩ := ofName_missionRole scope
  obtain ⟨contract, hcontract, hpermissions⟩ := contractFromEntry_plainEntry service
    hrole hne scope.resourceId (orElse scope.locator (path.getD ""))
    ("Mission-scoped " ++ missionRole scope ++ " workspace")
    "workspace_role_from_mission_resource"
    (scope.provenanceRefs ++ ["mission_contract.local_resources"])
    (some (orElse scope.locator (path.getD "")))
  refine ⟨⟨.allowed, some contract, "workspace_role_from_mission_resource"⟩, role, ?_, hrole,
    fun operationType => ?_⟩
  · simp [resolveWithResources, hbase, hscope, hopen, hcontract]
  · simp [grants, hpermissions]

/-- What decides about a path: the best entries of the registry, then its closed roles, and
only for the others the resources of the mission. -/
structure DecidesBySpecificity (service : RoleContracts) (path : Option String)
    (resources : List MissionResourceScope) (required : Bool) : Prop where
  order : (∀ workspaces, service.workspaces.Perm workspaces →
      granted ((service.reordered workspaces).resolve path required) =
        granted (service.resolve path required)) ↔
    ∀ text, path.filter (· ≠ "") = some text → ∀ a ∈ service.best text,
      ∀ b ∈ service.best text, granted (service.decisionOf a) = granted (service.decisionOf b)
  unscoped : service.scopeForPath resources path = none →
    service.resolveWithResources path resources required = service.resolve path required
  closed : ∀ base, service.resolve path required = some base → isClosed base = true →
    service.resolveWithResources path resources required = some base
  mission : ∀ base scope, service.resolve path required = some base → isClosed base = false →
    service.scopeForPath resources path = some scope →
      ∃ decision role, service.resolveWithResources path resources required = some decision ∧
        WorkspaceRole.ofName (missionRole scope) = some role ∧
        ∀ operationType, grants decision operationType =
          (operationAllowed role.safeDefaults operationType).1
  within : ∀ base decision, service.resolve path required = some base →
    service.resolveWithResources path resources required = some decision →
      ((∀ operationType, grants decision operationType = true →
          grants base operationType = true) ↔
        ∀ scope role, service.scopeForPath resources path = some scope → isClosed base = false →
          WorkspaceRole.ofName (missionRole scope) = some role → ∀ operationType,
            (operationAllowed role.safeDefaults operationType).1 = true →
              grants base operationType = true)

/-- A workspace at `/w` with a role. -/
def entryAt (role : String) : WorkspaceEntry := plainEntry role "/w" role role role []

def registry (workspaces : List (Option WorkspaceEntry)) : RoleContracts where
  workspaces := workspaces
  sep := '/'
  normalize := String.toList
  pathName := id
  isAlnum := Char.isAlphanum
  lower c := [c.toLower]

/-- A resource of a mission at `/w` that may be changed. -/
def mutableResource : MissionResourceScope :=
  ⟨"r", .localWorkspace, some "target_mutable", some "/w", none, none, [], [], [], none, [],
    .null⟩

end RoleContracts

end AIpinho.Policy
