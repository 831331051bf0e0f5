import AIpinho.Lib.Alone
import AIpinho.Lib.Table
import AIpinho.Mission.Contract
import Mathlib.Data.List.Sort

/-!
# Authority grants

`AuthorityGrantService` stores temporary grants, makes a grant from a mission contract, and
decides whether a grant covers an action. Paths, the trimming of texts and the hash are
parameters.
-/

namespace AIpinho.Grants

open Lib AIpinho.Mission

/-- `SessionGrantStatus`. -/
inductive GrantStatus
  | pending | approved | denied | expired | revoked
  deriving DecidableEq

def GrantStatus.text : GrantStatus → String
  | .pending => "pending"
  | .approved => "approved"
  | .denied => "denied"
  | .expired => "expired"
  | .revoked => "revoked"

/-- `SessionGrant`, without the identifier it is stored under. -/
structure SessionGrant where
  missionId : Option String
  sourceMessageId : Option String
  sourcePromptSha256 : Option String
  authoritySha256 : Option String
  actions : List String
  /-- The directories they are granted in. -/
  pathsScope : List String
  commandScope : List String
  localResourceIds : List String
  remoteResourceIds : List String
  repositoryScope : List String
  branchScope : Table String (List String)
  approvedBy : Option String
  status : GrantStatus
  expiresAt : Option ℤ
  maxUses : Option ℤ
  usedCount : ℕ
  updatedAt : ℤ

/-- What the service asks of texts and paths. -/
structure GrantServices where
  /-- `str.strip`. -/
  strip : String → String
  /-- The parts of `Path(text).resolve(strict=False)`; none if that fails. -/
  resolve : String → Option (List String)
  sha256 : String → String

/-- The operations of the service on the grants. -/
inductive GrantOp
  /-- `get`. -/
  | load (grantId : String)
  | save (grantId : String) (grant : SessionGrant)

def grantStore : Signature where
  Op := GrantOp
  Answer
    | .load _ => Option SessionGrant
    | .save .. => Unit

abbrev GrantTable : Type := Table String SessionGrant

def grantHandler : Handler grantStore GrantTable
  | .load grantId, grants => (grants.get? grantId, grants)
  | .save grantId grant, grants => ((), grants.insert grantId grant)

abbrev GrantProgram (α : Type) : Type := Program grantStore α

variable (grantId : String)

/-- `_path`: only identifiers of grants name a file. -/
def isGrantId : Bool := "grant_".toList.isPrefixOf grantId.toList

def get : GrantProgram (Option SessionGrant) :=
  if isGrantId grantId then Program.perform (S := grantStore) (.load grantId)
  else .raise "invalid_grant_id"

def save (grant : SessionGrant) : GrantProgram SessionGrant :=
  if isGrantId grantId then do
    Program.perform (S := grantStore) (.save grantId grant)
    pure grant
  else .raise "invalid_grant_id"

def required : GrantProgram SessionGrant := do
  match ← get grantId with
  | none => .raise "grant_not_found"
  | some grant => pure grant

section

variable {grantId : String} (hid : isGrantId grantId = true)
include hid

theorem get_eq : get grantId = .call (S := grantStore) (.load grantId) .done := if_pos hid

theorem save_eq (grant : SessionGrant) :
    save grantId grant = .call (S := grantStore) (.save grantId grant) fun _ => .done grant :=
  if_pos hid

theorem required_eq : required grantId = .call (S := grantStore) (.load grantId)
    fun grant : Option SessionGrant => grant.elim (.raise "grant_not_found") .done := by
  rw [required, get_eq hid]
  refine congrArg (Program.call (S := grantStore) (.load grantId)) ?_
  funext grant
  cases grant <;> rfl

theorem run_save (grant : SessionGrant) (grants : GrantTable) :
    (save grantId grant).run grantHandler grants = (.ok grant, grants.insert grantId grant) := by
  rw [save_eq hid]
  rfl

theorem run_required {grant : SessionGrant} {grants : GrantTable}
    (hget : grants.get? grantId = some grant) :
    (required grantId).run grantHandler grants = (.ok grant, grants) := by
  rw [required_eq hid]
  change Program.run grantHandler ((grants.get? grantId).elim _ _) grants = _
  rw [hget]
  rfl

end

/-- A question to a grant; an empty text counts as not given. -/
structure GrantQuery where
  action : String
  path : Option String
  command : Option String
  missionId : Option String
  sourceMessageId : Option String
  sourcePromptSha256 : Option String
  resourceId : Option String
  repositoryIdentity : Option String
  branch : Option String

/-- `SessionGrantDecision`. -/
structure GrantDecision where
  reasonCode : String
  grant : SessionGrant

def given (text : Option String) : Option String := text.filter (· ≠ "")

def mismatch (text other : Option String) : Bool :=
  (given text).any fun t => (given other).any fun o => t ≠ o

variable (services : GrantServices)

def isInside (path scope : String) : Bool :=
  match services.resolve path, services.resolve scope with
  | some target, some root => root.isPrefixOf target
  | _, _ => false

variable (grant : SessionGrant)

def resourceAllowed (resourceId : String) : Bool :=
  let resourceIds := grant.localResourceIds ++ grant.remoteResourceIds
  resourceIds.isEmpty || resourceIds.contains resourceId

/-- The last checks of `_scope_reason`, of the repository and the branch. -/
def repositoryReason (repository : String) (branch : Option String) : Option String :=
  if !grant.repositoryScope.isEmpty && !grant.repositoryScope.contains repository then
    some "grant_repository_out_of_scope"
  else
    match given branch with
    | none => none
    | some branch =>
      if !grant.branchScope.entries.isEmpty &&
          !((grant.branchScope.get? repository).getD []).contains branch then
        some "grant_branch_out_of_scope"
      else none

def scopeReason (query : GrantQuery) : Option String :=
  if !grant.actions.contains query.action then some "grant_action_out_of_scope"
  else if mismatch query.missionId grant.missionId then some "grant_mission_out_of_scope"
  else if mismatch query.sourceMessageId grant.sourceMessageId then
    some "grant_source_message_mismatch"
  else if mismatch query.sourcePromptSha256 grant.sourcePromptSha256 then
    some "grant_source_prompt_mismatch"
  else if (given query.path).any fun path => !grant.pathsScope.isEmpty &&
      !grant.pathsScope.any (isInside services path) then
    some "grant_path_out_of_scope"
  else if (given query.command).any fun command => !grant.commandScope.isEmpty &&
      !grant.commandScope.contains command then
    some "grant_command_out_of_scope"
  else if (given query.resourceId).any fun resourceId => !resourceAllowed grant resourceId then
    some "grant_resource_out_of_scope"
  else (given query.repositoryIdentity).bind fun repository =>
    repositoryReason grant repository query.branch

/-- The reasons of `_scope_reason`. -/
def scopeReasons : List String :=
  ["grant_action_out_of_scope", "grant_mission_out_of_scope", "grant_source_message_mismatch",
    "grant_source_prompt_mismatch", "grant_path_out_of_scope", "grant_command_out_of_scope",
    "grant_resource_out_of_scope", "grant_repository_out_of_scope", "grant_branch_out_of_scope"]

theorem mem_scopeReasons {services : GrantServices} {grant : SessionGrant} {query : GrantQuery}
    {reason : String} (h : scopeReason services grant query = some reason) :
    reason ∈ scopeReasons := by
  rw [scopeReason] at h
  repeat' split at h
  case isFalse =>
    obtain ⟨repository, -, hrepository⟩ := Option.bind_eq_some_iff.mp h
    rw [repositoryReason] at hrepository
    repeat' split at hrepository
    all_goals cases hrepository
    all_goals decide
  all_goals cases h
  all_goals decide

variable (now : ℤ)

def SessionGrant.isOver (grant : SessionGrant) : Bool :=
  (grant.status = .pending || grant.status = .approved) && grant.expiresAt.any (· ≤ now)

def SessionGrant.expire (grant : SessionGrant) : SessionGrant :=
  { grant with status := .expired, updatedAt := now }

def SessionGrant.isUsedUp : Bool :=
  grant.maxUses.any fun maxUses => maxUses ≤ (grant.usedCount : ℤ)

def expireIfNeeded (grantId : String) (grant : SessionGrant) : GrantProgram SessionGrant :=
  if grant.isOver now then save grantId (grant.expire now) else pure grant

def isEffective (grantId : String) (query : GrantQuery) : GrantProgram GrantDecision := do
  let grant ← required grantId
  let grant ← expireIfNeeded now grantId grant
  if grant.status ≠ .approved then
    pure ⟨"grant_not_approved:" ++ grant.status.text, grant⟩
  else
    match scopeReason services grant query with
    | some reason => pure ⟨reason, grant⟩
    | none =>
      if grant.isUsedUp then do
        let grant ← save grantId (grant.expire now)
        pure ⟨"grant_use_limit_reached", grant⟩
      else pure ⟨"grant_effective", grant⟩

def SessionGrant.use (grant : SessionGrant) : SessionGrant :=
  let used := { grant with usedCount := grant.usedCount + 1, updatedAt := now }
  if used.isUsedUp then { used with status := .expired } else used

def consume (grantId : String) (query : GrantQuery) : GrantProgram GrantDecision := do
  let decision ← isEffective services now grantId query
  if decision.reasonCode ≠ "grant_effective" then pure decision
  else do
    let grant ← save grantId (decision.grant.use now)
    pure ⟨"grant_consumed", grant⟩

def SessionGrant.revoke (actor : String) (grant : SessionGrant) : SessionGrant :=
  { grant with status := .revoked, approvedBy := some actor, updatedAt := now }

def revoke (now : ℤ) (grantId actor : String) : GrantProgram GrantDecision := do
  let grant ← required grantId
  if grant.status = .revoked ∨ grant.status = .expired then
    pure ⟨"grant_not_revocable:" ++ grant.status.text, grant⟩
  else do
    let grant ← save grantId (grant.revoke now actor)
    pure ⟨"grant_revoked", grant⟩

section

variable (services : GrantServices)

def unique (values : List String) : List String :=
  ((values.map services.strip).filter (· ≠ "")).dedup.insertionSort (· ≤ ·)

def authorizedResources (authorized : List String) (resources : List MissionResourceScope) :
    List MissionResourceScope :=
  resources.filter fun item => item.permissions.any authorized.contains

def branchScope (resources : List MissionResourceScope) : Table String (List String) :=
  resources.foldl (fun branches item =>
    match given item.normalizedIdentity with
    | some identity =>
      if services.strip identity = "" then branches
      else branches.insert identity (unique services item.allowedBranches)
    | none => branches) ⟨[], List.nodup_nil⟩

def missionGrant (now : ℤ) (contract : MissionContract) : SessionGrant :=
  let authorized := contract.authority.authorizedCapabilities
  let localResources := authorizedResources authorized contract.localResources
  let remoteResources := authorizedResources authorized contract.remoteResources
  { missionId := some contract.missionId
    sourceMessageId := some contract.sourceMessageId
    sourcePromptSha256 := some contract.sourcePromptSha256
    authoritySha256 := some contract.authoritySha256
    actions := unique services authorized
    pathsScope := unique services (localResources.filterMap fun item => given item.locator)
    commandScope := []
    localResourceIds := unique services (localResources.map (·.resourceId))
    remoteResourceIds := unique services (remoteResources.map (·.resourceId))
    repositoryScope := unique services
      (remoteResources.filterMap fun item => given item.normalizedIdentity)
    branchScope := branchScope services remoteResources
    approvedBy := some ("source_message:" ++ contract.sourceMessageId)
    status := .approved
    expiresAt := some (now + 24 * 60 * 60 * 1000000)
    maxUses := none
    usedCount := 0
    updatedAt := now }

def missionGrantId (contract : MissionContract) : String :=
  "grant_mission_" ++ String.ofList
    ((services.sha256 (contract.missionId ++ ":" ++ contract.authoritySha256)).toList.take 24)

/-- `_validate_existing_mission_grant`: what is wrong with a stored grant. -/
def existingGrantReason (contract : MissionContract) : Option String :=
  if grant.missionId ≠ some contract.missionId ∨
      grant.sourceMessageId ≠ some contract.sourceMessageId ∨
      grant.sourcePromptSha256 ≠ some contract.sourcePromptSha256 ∨
      grant.authoritySha256 ≠ some contract.authoritySha256 then
    some "mission_grant_binding_mismatch"
  else if ¬(grant.actions ⊆ contract.authority.authorizedCapabilities ∧
      contract.authority.authorizedCapabilities ⊆ grant.actions) then
    some "mission_grant_capability_mismatch"
  else none

def ensureMissionGrant (now : ℤ) (contract : MissionContract) :
    GrantProgram (Option SessionGrant) :=
  if contract.authority.authorizedCapabilities = [] then pure none
  else if contract.authority.explicitEvidence.isEmpty then
    .raise "mission_authority_evidence_required"
  else do
    let grantId := missionGrantId services contract
    match ← get grantId with
    | some existing =>
      match existingGrantReason existing contract with
      | some reason => .raise reason
      | none => some <$> expireIfNeeded now grantId existing
    | none => some <$> save grantId (missionGrant services now contract)

end

end AIpinho.Grants
