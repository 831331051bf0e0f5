import AIpinho.Grants.Service

/-!
# Scopes of remote repositories

A mission names remote repositories, with the operations and branches that are allowed in
each. The gate looks at the repository that an operation names, and at the one that was
observed.
-/

namespace AIpinho.Tools

open AIpinho.Mission (MissionResourceScope)
open AIpinho.Grants (given)

/-- `RemoteRepositoryIdentity`, as far as the gate reads it. -/
structure RepositoryIdentity where
  normalizedIdentity : String
  host : String
  scheme : String
  secretMaterialDetected : Bool

/-- The status of a decision about a scope. -/
inductive ScopeStatus
  | allowed | denied | needsClarification
  deriving DecidableEq

/-- `RemoteRepositoryScopeDecision`, without its evidence. -/
structure ScopeDecision where
  status : ScopeStatus
  reasonCode : String
  repositoryIdentity : Option String
  resourceId : Option String
  branch : Option String
  deriving DecidableEq

/-- `RemoteRepositoryScopeService`. -/
structure RemoteScopes where
  /-- `RemoteRepositoryIdentityService.normalize`; nothing where it raises. -/
  normalize : String → Option RepositoryIdentity
  /-- `str.casefold`. -/
  casefold : String → String
  deniedHosts : List String
  deniedSchemes : List String

namespace RemoteScopes

variable (scopes : RemoteScopes)

def destructiveOperations : List String :=
  ["git_force_push", "git_remote_delete", "git_branch_delete", "git_history_rewrite"]

def globalDenialReason (identity : RepositoryIdentity) : Option String :=
  if identity.secretMaterialDetected then some "remote_repository_secret_material_detected"
  else if scopes.deniedHosts.contains (scopes.casefold identity.host) then
    some "remote_repository_host_denied"
  else if scopes.deniedSchemes.contains (scopes.casefold identity.scheme) then
    some "remote_repository_scheme_denied"
  else none

def isDenied (resource : MissionResourceScope) : Bool :=
  resource.role = some "remote_denied" ||
    resource.constraints.any fun item =>
      item.effect = .deny && item.kind = "repository_access"

def resourceReason (allowed : MissionResourceScope) (branch : Option String)
    (operation : String) : Option (ScopeStatus × String) :=
  if ((allowed.metadata.field? "secret_material_detected").getD .null).truthy then
    some (.denied, "remote_repository_secret_material_detected")
  else if destructiveOperations.contains operation then
    some (.denied, "remote_destructive_operation_denied")
  else if !allowed.permissions.contains operation then
    some (.denied, "remote_operation_not_declared")
  else if allowed.allowedBranches = [] then
    some (.needsClarification, "remote_branch_scope_missing")
  else
    match given branch with
    | none => some (.needsClarification, "remote_branch_required")
    | some branch =>
      if allowed.allowedBranches.contains branch then none
      else some (.denied, "remote_branch_not_allowed")

def observedReason (requested : RepositoryIdentity) (operation : String)
    (observed : Option String) (reobserved : Bool) : Option (ScopeStatus × String) :=
  match given observed with
  | none =>
    if operation = "git_push" ∧ reobserved = true then
      some (.needsClarification, "remote_identity_reobservation_required")
    else none
  | some locator =>
    match scopes.normalize locator with
    | none => some (.denied, "observed_remote_repository_identity_invalid")
    | some identity =>
      if identity.normalizedIdentity = requested.normalizedIdentity then none
      else some (.denied, "remote_identity_changed_before_execution")

def matching (resources : List MissionResourceScope) (identity : RepositoryIdentity) :
    List MissionResourceScope :=
  resources.filter fun item =>
    item.resourceType = .remoteRepository &&
      item.normalizedIdentity = some identity.normalizedIdentity

def decide (resources : List MissionResourceScope) (locator : String) (branch : Option String)
    (operation : String) (observed : Option String) (reobserved : Bool) : ScopeDecision :=
  match scopes.normalize locator with
  | none => ⟨.denied, "remote_repository_identity_invalid", none, none, branch⟩
  | some requested =>
    let identity := some requested.normalizedIdentity
    match scopes.globalDenialReason requested with
    | some reason => ⟨.denied, reason, identity, none, branch⟩
    | none =>
      match (matching resources requested).find? isDenied with
      | some resource =>
        ⟨.denied, "remote_repository_explicitly_denied", identity, some resource.resourceId,
          branch⟩
      | none =>
        match (matching resources requested).find? (·.role ≠ some "remote_denied") with
        | none => ⟨.denied, "remote_repository_not_declared", identity, none, branch⟩
        | some allowed =>
          match (resourceReason allowed branch operation).or
              (scopes.observedReason requested operation observed reobserved) with
          | some (status, reason) =>
            ⟨status, reason, identity, some allowed.resourceId,
              if reason = "remote_branch_required" then none else branch⟩
          | none =>
            ⟨.allowed, "remote_scope_allows_operation", identity, some allowed.resourceId,
              branch⟩

variable {scopes} {resources : List MissionResourceScope} {locator : String}
  {branch observed : Option String} {operation : String} {reobserved : Bool}

theorem resourceReason_none {allowed : MissionResourceScope}
    (h : resourceReason allowed branch operation = none) :
    allowed.permissions.contains operation = true ∧
      ∃ name, branch = some name ∧ allowed.allowedBranches.contains name = true := by
  unfold resourceReason at h
  split_ifs at h with hsecret hdestructive hoperation hbranches
  split at h
  · cases h
  · rename_i name hname
    split_ifs at h with hallowed
    exact ⟨by simpa using hoperation, name, (Option.filter_eq_some_iff.mp hname).1, hallowed⟩

theorem status_of_resourceReason {allowed : MissionResourceScope} {status : ScopeStatus}
    {reason : String} (h : resourceReason allowed branch operation = some (status, reason)) :
    status ≠ .allowed := by
  unfold resourceReason at h
  split_ifs at h <;> try (cases h; decide)
  split at h
  · cases h
    decide
  · split_ifs at h
    cases h
    decide

theorem status_of_observedReason {requested : RepositoryIdentity} {status : ScopeStatus}
    {reason : String}
    (h : scopes.observedReason requested operation observed reobserved = some (status, reason)) :
    status ≠ .allowed := by
  unfold observedReason at h
  split at h
  · split_ifs at h
    cases h
    decide
  · split at h
    · cases h
      decide
    · split_ifs at h
      cases h
      decide

theorem observedReason_none {requested : RepositoryIdentity}
    (h : scopes.observedReason requested operation observed reobserved = none) (text : String)
    (htext : given observed = some text) : ∃ identity, scopes.normalize text = some identity ∧
      identity.normalizedIdentity = requested.normalizedIdentity := by
  unfold observedReason at h
  rw [htext] at h
  simp only at h
  split at h
  · cases h
  · rename_i identity hidentity
    split_ifs at h with hsame
    exact ⟨identity, hidentity, hsame⟩

theorem decide_allowed
    (h : (scopes.decide resources locator branch operation observed reobserved).status = .allowed) :
    ∃ requested allowed name, scopes.normalize locator = some requested ∧
      allowed ∈ resources ∧ allowed.normalizedIdentity = some requested.normalizedIdentity ∧
      allowed.permissions.contains operation = true ∧ branch = some name ∧
      allowed.allowedBranches.contains name = true ∧
      (scopes.decide resources locator branch operation observed reobserved) =
        ⟨.allowed, "remote_scope_allows_operation", some requested.normalizedIdentity,
          some allowed.resourceId, some name⟩ ∧
      ∀ text, given observed = some text → ∃ identity, scopes.normalize text = some identity ∧
        identity.normalizedIdentity = requested.normalizedIdentity := by
  unfold decide at h ⊢
  cases hlocator : scopes.normalize locator with
  | none => simp [hlocator] at h
  | some requested =>
    cases hglobal : scopes.globalDenialReason requested with
    | some reason => simp [hlocator, hglobal] at h
    | none =>
      cases hdenied : (matching resources requested).find? isDenied with
      | some resource => simp [hlocator, hglobal, hdenied] at h
      | none =>
        cases hfound : (matching resources requested).find? (·.role ≠ some "remote_denied") with
        | none =>
          simp only [hlocator, hglobal, hdenied, hfound] at h
          cases h
        | some allowed =>
          have hmem := List.mem_filter.mp (List.mem_of_find?_eq_some hfound)
          have hidentity : allowed.normalizedIdentity = some requested.normalizedIdentity := by
            simpa using (Bool.and_eq_true_iff.mp hmem.2).2
          cases hresource : resourceReason allowed branch operation with
          | some verdict =>
            simp only [hlocator, hglobal, hdenied, hfound, hresource, Option.some_or] at h
            exact absurd h (status_of_resourceReason hresource)
          | none =>
            cases hobserved : scopes.observedReason requested operation observed reobserved with
            | some verdict =>
              simp only [hlocator, hglobal, hdenied, hfound, hresource, hobserved,
                Option.none_or] at h
              exact absurd h (status_of_observedReason hobserved)
            | none =>
              obtain ⟨hoperation, name, rfl, hbranch⟩ := resourceReason_none hresource
              exact ⟨requested, allowed, name, rfl, hmem.1, hidentity, hoperation, rfl, hbranch,
                by simp only [hglobal, hdenied, hfound, hresource, hobserved, Option.none_or],
                observedReason_none hobserved⟩

end RemoteScopes

end AIpinho.Tools
