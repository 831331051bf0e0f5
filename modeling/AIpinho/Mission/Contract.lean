import AIpinho.Lib.Checks
import AIpinho.Lib.Json

/-!
# Mission contracts

A mission is frozen as a contract before it is planned, and a child contract is accepted only if
it stays within its parent. Contracts are compared by the hash of their text with sorted keys.
The hash, the paths of the file system and the printing of lists are parameters.
-/

namespace AIpinho.Mission

open Lib

inductive ConstraintEffect
  | require | deny | limit
  deriving DecidableEq

structure MissionConstraint where
  constraintId : String
  kind : String
  effect : ConstraintEffect
  subject : Option String
  value : Json
  sourceRef : Option String
  deriving DecidableEq

inductive MissionResourceType
  | localWorkspace | missionStaging | remoteRepository | externalResource
  deriving DecidableEq

structure MissionResourceScope where
  resourceId : String
  resourceType : MissionResourceType
  role : Option String
  locator : Option String
  provider : Option String
  normalizedIdentity : Option String
  allowedBranches : List String
  permissions : List String
  constraints : List MissionConstraint
  derivedFrom : Option String
  provenanceRefs : List String
  metadata : Json

structure MissionAuthorityEvidence where
  sourceRef : String
  clauseSha256 : String
  sourcePromptSha256 : String
  capabilities : List String

structure MissionAuthorityBinding where
  requestedCapabilities : List String
  authorizedCapabilities : List String
  sourceRefs : List String
  explicitEvidence : List MissionAuthorityEvidence

structure MissionCompletionContract where
  validationRequirements : List String
  completionRequirements : List String
  allowLimitedCompletion : Bool

inductive MissionExecutionMode
  | singleOperation | staged | endToEndGoverned
  deriving DecidableEq

structure MissionContract where
  missionId : String
  sessionId : Option String
  sourceMessageId : String
  sourcePromptSha256 : String
  objective : String
  semanticContext : Json
  strategy : MissionExecutionMode
  localResources : List MissionResourceScope
  remoteResources : List MissionResourceScope
  authority : MissionAuthorityBinding
  negativeConstraints : List MissionConstraint
  completion : MissionCompletionContract
  provenanceRefs : List String
  revision : ℤ
  parentAuthoritySha256 : Option String
  authoritySha256 : String
  frozenAt : String
  schemaVersion : String

/-- The constraint as it is printed with sorted keys (`_stable_json`). -/
def MissionConstraint.stableJson (item : MissionConstraint) : MissionConstraint :=
  { item with value := item.value.sorted }

def MissionResourceScope.stableJson (item : MissionResourceScope) : MissionResourceScope :=
  { item with
    constraints := item.constraints.map MissionConstraint.stableJson
    metadata := item.metadata.sorted }

/-- The part of a contract that is hashed, as it is printed with sorted keys. -/
def MissionContract.payload (contract : MissionContract) : MissionContract :=
  { contract with
    semanticContext := contract.semanticContext.sorted
    localResources := contract.localResources.map MissionResourceScope.stableJson
    remoteResources := contract.remoteResources.map MissionResourceScope.stableJson
    negativeConstraints := contract.negativeConstraints.map MissionConstraint.stableJson
    authoritySha256 := ""
    frozenAt := "" }

/-- The section `mission_staging` of the staging policy. -/
structure StagingConfig where
  enabled : Bool
  rootStrategy : String
  directoryName : String
  configuredRoot : String
  allowedPermissions : List String
  lifetime : String

variable (services : MissionServices)

structure MissionServices where
  /-- The SHA-256 of the text of a payload with sorted keys. -/
  sha256 : MissionContract → String
  staging : StagingConfig
  tempDirectory : String
  separator : String
  isAbsolute : String → Bool
  /-- The absolute path without links, with the user's directory put in. -/
  resolve : String → String
  normcase : String → String
  strip : String → String
  /-- The text of a list or a dictionary. -/
  repr : Json → String

/-- The text of a value. -/
def str : Json → String
  | .null => "None"
  | .bool b => if b then "True" else "False"
  | .int n => toString n
  | .float t => t
  | .str s => s
  | v => services.repr v

def metadataText (metadata : Json) (name : String) : String :=
  match metadata.field? name with
  | some v => if v.truthy then str services v else ""
  | none => ""

def metadataItems (metadata : Json) (name : String) : Except String (List Json) :=
  match metadata.field? name with
  | none => .ok []
  | some v =>
    if v.truthy then
      match v with
      | .list items => .ok items
      | .str s => .ok (s.toList.map fun c => .str (String.ofList [c]))
      | .obj fields => .ok (fields.map fun f => .str f.1)
      | _ => .error "object is not iterable"
    else .ok []

def containsText (text part : String) : Bool := text.toList.tails.any part.toList.isPrefixOf

/-- The directory that holds all staging resources (`safe_root`). -/
def safeRoot : Except String String := do
  let config := services.staging
  demand config.enabled "mission_staging_disabled"
  let strategy := if config.rootStrategy = "" then "system_temp" else config.rootStrategy
  let directoryName := services.strip
    (if config.directoryName = "" then "aipinho_mission_staging" else config.directoryName)
  demand (directoryName ≠ "" ∧ ∀ part ∈ ["/", "\\", ".."], ¬containsText directoryName part)
    "mission_staging_directory_name_invalid"
  if strategy = "system_temp" then
    return services.resolve (services.tempDirectory ++ services.separator ++ directoryName)
  else if strategy = "configured_absolute" then
    let configured := services.strip config.configuredRoot
    demand (configured ≠ "" ∧ services.isAbsolute configured)
      "mission_staging_configured_root_invalid"
    return services.resolve configured
  else throw "mission_staging_root_strategy_invalid"

def allowedPermissions (services : MissionServices) : List String :=
  (services.staging.allowedPermissions.filter (· ≠ "")).eraseDups

def normalize (path : String) : String :=
  services.normcase (services.resolve path)

def isUnder (path root : String) : Bool :=
  normalize services path = normalize services root ||
    (normalize services root ++ services.separator).toList.isPrefixOf
      (normalize services path).toList

variable (parent : MissionContract)

variable (resource : MissionResourceScope)

def sourceRemote : Option MissionResourceScope :=
  parent.remoteResources.find? fun item => some item.resourceId = resource.derivedFrom

def validateStagingSource (remote : MissionResourceScope) : Except String Unit := do
  demand (remote.resourceType = .remoteRepository) "mission_staging_source_remote_missing"
  demand (resource.permissions ⊆ allowedPermissions services)
    "mission_staging_permission_outside_policy"
  demand (metadataText services resource.metadata "lifetime" =
      if services.staging.lifetime = "" then "mission" else services.staging.lifetime)
    "mission_staging_lifetime_invalid"
  demand (metadataText services resource.metadata "source_remote_resource_id" = remote.resourceId)
    "mission_staging_source_remote_mismatch"
  demand (metadataText services resource.metadata "source_remote_identity" =
      remote.normalizedIdentity.getD "")
    "mission_staging_source_identity_mismatch"
  let branches ← metadataItems resource.metadata "source_allowed_branches"
  demand (branches == remote.allowedBranches.map Json.str)
    "mission_staging_source_branches_mismatch"
  let inherited ← metadataItems resource.metadata "authority_inherited"
  demand (inherited.isEmpty) "mission_staging_human_authority_must_not_inherit"
  let notInherited ← metadataItems resource.metadata "authority_not_inherited"
  demand (parent.authority.authorizedCapabilities.filter (· ∈ remote.permissions) ⊆
      notInherited.map (str services))
    "mission_staging_authority_noninheritance_incomplete"
  let evidence ← metadataItems resource.metadata "creation_evidence"
  demand (["mission:" ++ parent.missionId, "remote_resource:" ++ remote.resourceId,
      "mission_staging_policy:v1"] ⊆ evidence.map (str services))
    "mission_staging_creation_evidence_incomplete"

def validateDerivedResource : Except String Unit := do
  demand (resource.resourceType = .missionStaging) "mission_staging_resource_type_invalid"
  demand (resource.role = some "temp_staging") "mission_staging_role_invalid"
  let locator := resource.locator.getD ""
  demand (locator ≠ "") "mission_staging_locator_missing"
  let root ← safeRoot services
  demand (isUnder services locator root) "mission_staging_outside_safe_root"
  match sourceRemote parent resource with
  | none => throw "mission_staging_source_remote_missing"
  | some remote => validateStagingSource services parent resource remote

def authoritySha256 (contract : MissionContract) : String :=
  services.sha256 contract.payload

def verify (contract : MissionContract) : Bool :=
  contract.authoritySha256 ≠ "" ∧ contract.authoritySha256 = authoritySha256 services contract

/-- The two lists of resources of a contract; only the local one takes staging
resources, derived from the parent contract. -/
inductive Scope
  | local_ (parent : MissionContract)
  | remote

def Scope.text : Scope → String
  | .local_ _ => "local"
  | .remote => "remote"

def resourceById (resources : List MissionResourceScope) (resourceId : String) :
    Option MissionResourceScope :=
  resources.reverse.find? (·.resourceId = resourceId)

def SameResource (parent child : MissionResourceScope) : Prop :=
  parent.resourceType = child.resourceType ∧ parent.role = child.role ∧
  parent.locator = child.locator ∧ parent.provider = child.provider ∧
  parent.normalizedIdentity = child.normalizedIdentity ∧
  parent.derivedFrom = child.derivedFrom ∧ (parent.metadata == child.metadata) = true

instance (parent child : MissionResourceScope) : Decidable (SameResource parent child) :=
  inferInstanceAs (Decidable (_ ∧ _ ∧ _ ∧ _ ∧ _ ∧ _ ∧ _))

def validateKeptResource (parent child : MissionResourceScope) : Except String Unit := do
  demand (SameResource parent child) "mission_contract_child_changes_resource_identity"
  demand (child.permissions ⊆ parent.permissions)
    "mission_contract_child_expands_resource_permissions"
  demand (child.allowedBranches ⊆ parent.allowedBranches)
    "mission_contract_child_expands_resource_branches"
  demand (parent.constraints.map MissionConstraint.stableJson ⊆
      child.constraints.map MissionConstraint.stableJson)
    "mission_contract_child_weakens_resource_constraints"

def validateResource (parentResources : List MissionResourceScope) (scope : Scope)
    (child : MissionResourceScope) : Except String Unit :=
  match resourceById parentResources child.resourceId with
  | some parent => validateKeptResource parent child
  | none =>
    match scope with
    | .local_ parentContract =>
      if child.resourceType = .missionStaging then
        validateDerivedResource services parentContract child
      else .error ("mission_contract_child_adds_" ++ scope.text ++ "_resource")
    | .remote => .error ("mission_contract_child_adds_" ++ scope.text ++ "_resource")

def validateResourceNarrowing (parentResources childResources : List MissionResourceScope)
    (scope : Scope) : Except String Unit :=
  checkEach (validateResource services parentResources scope) childResources

variable (child : MissionContract)

def SameIdentity : Prop :=
  parent.missionId = child.missionId ∧ parent.sessionId = child.sessionId ∧
  parent.sourceMessageId = child.sourceMessageId ∧
  parent.sourcePromptSha256 = child.sourcePromptSha256 ∧ parent.objective = child.objective ∧
  (parent.semanticContext == child.semanticContext) = true ∧ parent.strategy = child.strategy

instance (parent child : MissionContract) : Decidable (SameIdentity parent child) :=
  inferInstanceAs (Decidable (_ ∧ _ ∧ _ ∧ _ ∧ _ ∧ _ ∧ _))

def validateChangedAuthority : Except String Unit := do
  demand (child.revision = parent.revision + 1) "mission_contract_child_revision_mismatch"
  demand (child.parentAuthoritySha256 = some parent.authoritySha256)
    "mission_contract_child_parent_authority_mismatch"
  demand (child.authority.requestedCapabilities ⊆ parent.authority.requestedCapabilities)
    "mission_contract_child_expands_requested_capabilities"
  demand (child.authority.authorizedCapabilities ⊆ parent.authority.authorizedCapabilities)
    "mission_contract_child_expands_authority"
  validateResourceNarrowing services parent.localResources child.localResources (.local_ parent)
  validateResourceNarrowing services parent.remoteResources child.remoteResources .remote
  demand (parent.negativeConstraints.map MissionConstraint.stableJson ⊆
      child.negativeConstraints.map MissionConstraint.stableJson)
    "mission_contract_child_weakens_negative_constraints"
  demand (parent.completion.validationRequirements ⊆ child.completion.validationRequirements)
    "mission_contract_child_weakens_validation_requirements"
  demand (parent.completion.completionRequirements ⊆ child.completion.completionRequirements)
    "mission_contract_child_weakens_completion_requirements"
  demand (¬(parent.completion.allowLimitedCompletion = false ∧
      child.completion.allowLimitedCompletion = true))
    "mission_contract_child_weakens_completion_policy"

def validateChildContract : Except String Unit := do
  demand (verify services parent ∧ verify services child) "mission_contract_authority_hash_invalid"
  demand (SameIdentity parent child) "mission_contract_child_identity_mismatch"
  if child.authoritySha256 = parent.authoritySha256 then
    demand (child.revision = parent.revision) "mission_contract_child_revision_mismatch"
  else
    validateChangedAuthority services parent child

end AIpinho.Mission
