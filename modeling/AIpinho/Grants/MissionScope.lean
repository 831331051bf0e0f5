import AIpinho.Grants.Service
import AIpinho.Lib.Guarantees
import Mathlib.Data.List.Dedup
import Mathlib.Data.List.Induction

/-!
# What the grant of a mission covers

A contract gives each resource its own permissions and branches. The grant that is made from it
keeps actions, directories, repositories and branches in separate lists, and an empty list
restricts nothing. This file says what a grant covers in terms of the contract, and when a
single resource allows it too.
-/

namespace AIpinho.Grants

open List Lib AIpinho.Mission Program

@[simp] theorem given_eq_some {text : Option String} {t : String} :
    given text = some t ↔ text = some t ∧ t ≠ "" := by
  cases text with
  | none => simp [given]
  | some s =>
    by_cases hs : s = ""
    · subst hs
      simp only [given, Option.filter_some, ne_eq, not_true_eq_false, decide_false,
        Bool.false_eq_true, if_false, Option.some.injEq]
      constructor
      · rintro ⟨⟩
      · rintro ⟨rfl, hne⟩
        exact absurd rfl hne
    · simp only [given, Option.filter_some, ne_eq, hs, not_false_eq_true, decide_true, if_true,
        Option.some.injEq]
      constructor
      · rintro rfl
        exact ⟨rfl, hs⟩
      · rintro ⟨rfl, -⟩
        rfl

theorem any_given_eq_false {text : Option String} {check : String → Bool} :
    (given text).any check = false ↔ ∀ t, given text = some t → check t = false := by
  cases given text with
  | none | some => simp

section

variable {services : GrantServices}

theorem mem_unique {values : List String} {text : String} :
    text ∈ unique services values ↔ text ≠ "" ∧ ∃ value ∈ values, services.strip value = text := by
  rw [unique, mem_insertionSort, mem_dedup, mem_filter, mem_map]
  simp [and_comm]

theorem unique_eq_nil {values : List String} :
    unique services values = [] ↔ ∀ value ∈ values, services.strip value = "" := by
  rw [eq_nil_iff_forall_not_mem]
  constructor
  · intro h value hvalue
    by_contra hne
    exact h _ (mem_unique.mpr ⟨hne, value, hvalue, rfl⟩)
  · intro h text htext
    obtain ⟨hne, value, hvalue, rfl⟩ := mem_unique.mp htext
    exact hne (h value hvalue)

end

section

variable {services : GrantServices} {grant : SessionGrant} {query : GrantQuery}

theorem refuse_eq_none {refused : Bool} {reason : String} {rest : Option String} :
    (if refused then some reason else rest) = none ↔ refused = false ∧ rest = none := by
  cases refused <;> simp

theorem outside_eq_false {α : Type} {scope : List α} {inside : Bool} :
    (!scope.isEmpty && !inside) = false ↔ scope = [] ∨ inside = true := by
  cases scope <;> simp

theorem repositoryReason_eq_none {repository : String} {branch : Option String} :
    repositoryReason grant repository branch = none ↔
      (grant.repositoryScope = [] ∨ repository ∈ grant.repositoryScope) ∧
      ∀ b, given branch = some b → grant.branchScope.entries = [] ∨
        b ∈ (grant.branchScope.get? repository).getD [] := by
  rw [repositoryReason, refuse_eq_none, outside_eq_false, contains_iff_mem]
  refine and_congr_right fun _ => ?_
  cases given branch with
  | none => simp
  | some b =>
    simp only [Option.some.injEq, forall_eq']
    rw [refuse_eq_none, outside_eq_false, contains_iff_mem]
    simp

theorem scopeReason_eq_none : scopeReason services grant query = none ↔
      query.action ∈ grant.actions ∧
      mismatch query.missionId grant.missionId = false ∧
      mismatch query.sourceMessageId grant.sourceMessageId = false ∧
      mismatch query.sourcePromptSha256 grant.sourcePromptSha256 = false ∧
      (∀ path, given query.path = some path → grant.pathsScope = [] ∨
        ∃ scope ∈ grant.pathsScope, isInside services path scope = true) ∧
      (∀ command, given query.command = some command → grant.commandScope = [] ∨
        command ∈ grant.commandScope) ∧
      (∀ resourceId, given query.resourceId = some resourceId →
        resourceAllowed grant resourceId = true) ∧
      ∀ repository, given query.repositoryIdentity = some repository →
        repositoryReason grant repository query.branch = none := by
  rw [scopeReason, refuse_eq_none, refuse_eq_none, refuse_eq_none, refuse_eq_none, refuse_eq_none,
    refuse_eq_none, refuse_eq_none, any_given_eq_false, any_given_eq_false, any_given_eq_false]
  simp only [outside_eq_false, contains_iff_mem, any_eq_true, Bool.not_eq_false']
  have hbind : ((given query.repositoryIdentity).bind fun repository =>
      repositoryReason grant repository query.branch) = none ↔
        ∀ repository, given query.repositoryIdentity = some repository →
          repositoryReason grant repository query.branch = none := by
    rw [Option.bind_eq_none_iff]
  rw [hbind]

/-- `is_effective` reports the grant as effective. -/
def ReportsEffective (services : GrantServices) (grants : GrantTable) (now : ℤ)
    (grantId : String) (query : GrantQuery) : Prop :=
  ∃ decision, ((isEffective services now grantId query).run grantHandler grants).1 =
    .ok decision ∧ decision.reasonCode = "grant_effective"

theorem reportsEffective_iff {grants : GrantTable} {now : ℤ} {grantId : String}
    (hid : isGrantId grantId = true) (hget : grants.get? grantId = some grant) :
    ReportsEffective services grants now grantId query ↔
      grant.isOver now = false ∧ grant.status = .approved ∧
        scopeReason services grant query = none ∧ grant.isUsedUp = false := by
  have hload := run_required hid hget
  rw [ReportsEffective, isEffective, run_bind_of_ok _ (congrArg Prod.fst hload), hload]
  by_cases hover : grant.isOver now = true
  · have hexpire : (expireIfNeeded now grantId grant).run grantHandler grants =
        (.ok (grant.expire now), grants.insert grantId (grant.expire now)) := by
      rw [expireIfNeeded, if_pos hover, run_save hid]
    rw [run_bind_of_ok _ (congrArg Prod.fst hexpire)]
    simp [SessionGrant.expire, hover, GrantStatus.text]
  have hexpire : (expireIfNeeded now grantId grant).run grantHandler grants =
      (.ok grant, grants) := by
    rw [expireIfNeeded, if_neg hover]
    rfl
  rw [run_bind_of_ok _ (congrArg Prod.fst hexpire)]
  by_cases hstatus : grant.status = .approved
  case neg =>
    have htext : "grant_not_approved:" ++ grant.status.text ≠ "grant_effective" := by
      cases grant.status <;> decide
    simp [hstatus, htext]
  cases hreason : scopeReason services grant query with
  | some reason =>
    have hne : reason ≠ "grant_effective" := by
      rintro rfl
      exact absurd (mem_scopeReasons hreason) (by decide)
    simp [hstatus, hne]
  | none =>
    by_cases hused : grant.isUsedUp = true
    · have hsave := run_save hid (grant.expire now) grants
      rw [hexpire]
      simp only [hstatus, hused, ne_eq, not_true_eq_false, if_false, if_true]
      rw [run_bind_of_ok _ (congrArg Prod.fst hsave)]
      simp
    · simp [hstatus, hused, hover]

end

section

variable {services : GrantServices}

def lastWith (identity : String) (resources : List MissionResourceScope) :
    Option MissionResourceScope :=
  resources.reverse.find? fun item => given item.normalizedIdentity = some identity

def HasIdentity (services : GrantServices) (item : MissionResourceScope) : Prop :=
  ∃ identity, given item.normalizedIdentity = some identity ∧ services.strip identity ≠ ""

variable (resources : List MissionResourceScope)

theorem branchScope_append (item : MissionResourceScope) :
    branchScope services (resources ++ [item]) = match given item.normalizedIdentity with
      | some identity =>
        if services.strip identity = "" then branchScope services resources
        else (branchScope services resources).insert identity
          (unique services item.allowedBranches)
      | none => branchScope services resources := by
  rw [branchScope, foldl_append]
  rfl

theorem branchScope_get? {identity : String} (hstrip : services.strip identity ≠ "") :
    (branchScope services resources).get? identity =
      (lastWith identity resources).map fun item => unique services item.allowedBranches := by
  induction resources using List.reverseRecOn with
  | nil => rfl
  | append_singleton resources item ih =>
    rw [branchScope_append, lastWith, reverse_append, reverse_singleton,
      singleton_append, find?_cons]
    cases hitem : given item.normalizedIdentity with
    | none =>
      simp only [reduceCtorEq, decide_false]
      exact ih
    | some other =>
      by_cases hsame : other = identity
      · subst hsame
        simp only [decide_true, if_neg hstrip, Table.get?_insert_self, Option.map_some]
      · simp only [Option.some.injEq, hsame, decide_false]
        by_cases hblank : services.strip other = ""
        · rw [if_pos hblank]
          exact ih
        · rw [if_neg hblank, Table.get?_insert_of_ne (Ne.symm hsame)]
          exact ih

theorem branchScope_get?_blank {identity : String} (hstrip : services.strip identity = "") :
    (branchScope services resources).get? identity = none := by
  induction resources using List.reverseRecOn with
  | nil => rfl
  | append_singleton resources item ih =>
    rw [branchScope_append]
    split
    · rename_i other hother
      split
      · exact ih
      · rename_i hblank
        have hne : identity ≠ other := by
          rintro rfl
          exact hblank hstrip
        rw [Table.get?_insert_of_ne hne]
        exact ih
    · exact ih

theorem branchScope_eq_nil : (branchScope services resources).entries = [] ↔
      ∀ item ∈ resources, ¬HasIdentity services item := by
  constructor
  · rintro hnil item hitem ⟨identity, hidentity, hstrip⟩
    have hget := branchScope_get? resources hstrip
    rw [Table.get?, hnil, lookup_nil] at hget
    have hnone : lastWith identity resources = none := by
      simpa using hget.symm
    rw [lastWith, find?_eq_none] at hnone
    have hitem' := hnone item (mem_reverse.mpr hitem)
    simp only [hidentity, decide_true, not_true_eq_false] at hitem'
  · intro hnone
    induction resources using List.reverseRecOn with
    | nil => rfl
    | append_singleton resources item ih =>
      have hitem : ¬HasIdentity services item := hnone item (by simp)
      have hrest := ih fun other hother => hnone other (mem_append_left _ hother)
      rw [branchScope_append]
      split
      · rename_i identity hidentity
        rw [if_pos]
        · exact hrest
        · by_contra hblank
          exact hitem ⟨identity, hidentity, hblank⟩
      · exact hrest

end

section

variable (services : GrantServices) (contract : MissionContract) (query : GrantQuery)

def authorizedLocal : List MissionResourceScope :=
  authorizedResources contract.authority.authorizedCapabilities contract.localResources

def authorizedRemote : List MissionResourceScope :=
  authorizedResources contract.authority.authorizedCapabilities contract.remoteResources

variable (item : MissionResourceScope)

def HasLocator : Prop :=
  ∃ locator, given item.locator = some locator ∧ services.strip locator ≠ ""

/-- A resource holds what a question is about: the path is inside its locator, or it is the
repository. A question about neither is held by every resource. -/
def HoldsTarget : Prop :=
  (∃ path locator, given query.path = some path ∧ item.locator = some locator ∧
    isInside services path locator = true) ∨
  (∃ repository, given query.repositoryIdentity = some repository ∧
    item.normalizedIdentity = some repository) ∨
  given query.path = none ∧ given query.repositoryIdentity = none

def ListsRequest : Prop :=
  query.action ∈ item.permissions ∧
    ∀ branch, given query.branch = some branch → branch ∈ item.allowedBranches

/-- A single resource of the contract holds what the question is about and lists its action
and its branch. -/
def CoveredByOne : Prop :=
  ∃ item ∈ contract.localResources ++ contract.remoteResources,
    HoldsTarget services query item ∧ ListsRequest query item

/-- A grant that was materialised from a contract. What later calls change of it is its status,
who decided on it, its uses and the time of the change. -/
def IsGrantOf (grant : SessionGrant) : Prop :=
  contract.authority.authorizedCapabilities ≠ [] ∧ contract.authority.explicitEvidence ≠ [] ∧
    ∃ created status approvedBy usedCount updatedAt,
      grant = { missionGrant services created contract with
        status := status, approvedBy := approvedBy, usedCount := usedCount
        updatedAt := updatedAt }

/-- Whenever a grant of the contract is reported as effective, a single resource covers the
question, and a path is not let through by an empty scope. -/
def StaysInside : Prop :=
  ∀ grant grants now, IsGrantOf services contract grant →
    grants.get? (missionGrantId services contract) = some grant →
    ReportsEffective services grants now (missionGrantId services contract) query →
      CoveredByOne services contract query ∧
        ∀ path, given query.path = some path → grant.pathsScope ≠ []

/-- The question passes the separate lists of the contract. -/
structure Admitted : Prop where
  evidence : contract.authority.explicitEvidence ≠ []
  action : query.action ≠ "" ∧ ∃ capability ∈ contract.authority.authorizedCapabilities,
    services.strip capability = query.action
  /-- The question names no other mission. -/
  mission : mismatch query.missionId (some contract.missionId) = false
  /-- The question names no other message. -/
  message : mismatch query.sourceMessageId (some contract.sourceMessageId) = false
  /-- The question names no other prompt. -/
  prompt : mismatch query.sourcePromptSha256 (some contract.sourcePromptSha256) = false
  /-- The path is inside some locator, or there is none. -/
  path : ∀ path, given query.path = some path →
    (∀ item ∈ authorizedLocal contract, ¬HasLocator services item) ∨
    ∃ item ∈ authorizedLocal contract, ∃ locator, given item.locator = some locator ∧
      services.strip locator ≠ "" ∧ isInside services path (services.strip locator) = true
  /-- The resource is one of those with an authorised permission, or there is none. -/
  resource : ∀ resourceId, given query.resourceId = some resourceId →
    (∀ item ∈ authorizedLocal contract ++ authorizedRemote contract,
      services.strip item.resourceId = "") ∨
    ∃ item ∈ authorizedLocal contract ++ authorizedRemote contract,
      services.strip item.resourceId = resourceId
  /-- The repository is one of those with an authorised permission, or there is none. -/
  repository : ∀ repository, given query.repositoryIdentity = some repository →
    (∀ item ∈ authorizedRemote contract, ¬HasIdentity services item) ∨
    ∃ item ∈ authorizedRemote contract, ∃ identity,
      given item.normalizedIdentity = some identity ∧ services.strip identity = repository
  /-- The branch is one of the repository's, or there is no repository. Without a repository in
  the question it is not looked at. -/
  branch : ∀ repository branch, given query.repositoryIdentity = some repository →
    given query.branch = some branch →
    (∀ item ∈ authorizedRemote contract, ¬HasIdentity services item) ∨
    services.strip repository ≠ "" ∧
      ∃ item, lastWith repository (authorizedRemote contract) = some item ∧
        branch ∈ unique services item.allowedBranches

/-- The question is about a path, and no resource with an authorised permission has a
locator. -/
def PathsUnscoped : Prop :=
  (∃ path, given query.path = some path) ∧
    ∀ item ∈ authorizedLocal contract, ¬HasLocator services item

/-- Every resource that holds what the question is about lacks the action or the branch: the
action is then taken from the capabilities that the contract authorises, and the branch from the
last remote resource of the repository. -/
def Borrowed : Prop :=
  ∀ item ∈ contract.localResources ++ contract.remoteResources,
    HoldsTarget services query item → ¬ListsRequest query item

variable {services contract query}

theorem unique_filterMap_eq_nil {f : MissionResourceScope → Option String}
    {items : List MissionResourceScope} :
    unique services (items.filterMap fun item => given (f item)) = [] ↔
      ∀ item ∈ items, ¬∃ text, given (f item) = some text ∧ services.strip text ≠ "" := by
  rw [unique_eq_nil]
  constructor
  · rintro h item hitem ⟨text, htext, hne⟩
    exact hne (h text (mem_filterMap.mpr ⟨item, hitem, htext⟩))
  · intro h text htext
    obtain ⟨item, hitem, hsome⟩ := mem_filterMap.mp htext
    by_contra hne
    exact h item hitem ⟨text, hsome, hne⟩

theorem mem_unique_filterMap {f : MissionResourceScope → Option String}
    {items : List MissionResourceScope} {text : String} :
    text ∈ unique services (items.filterMap fun item => given (f item)) ↔
      text ≠ "" ∧ ∃ item ∈ items, ∃ t, given (f item) = some t ∧ services.strip t = text := by
  rw [mem_unique]
  refine and_congr_right fun _ => ?_
  constructor
  · rintro ⟨t, ht, hstrip⟩
    obtain ⟨item, hitem, hsome⟩ := mem_filterMap.mp ht
    exact ⟨item, hitem, t, hsome, hstrip⟩
  · rintro ⟨item, hitem, t, hsome, hstrip⟩
    exact ⟨t, mem_filterMap.mpr ⟨item, hitem, hsome⟩, hstrip⟩

theorem pathsScope_iff (created : ℤ) {path : String} :
    ((missionGrant services created contract).pathsScope = [] ∨
      ∃ scope ∈ (missionGrant services created contract).pathsScope,
        isInside services path scope = true) ↔
    (∀ item ∈ authorizedLocal contract, ¬HasLocator services item) ∨
      ∃ item ∈ authorizedLocal contract, ∃ locator, given item.locator = some locator ∧
        services.strip locator ≠ "" ∧ isInside services path (services.strip locator) = true := by
  refine or_congr unique_filterMap_eq_nil ?_
  constructor
  · rintro ⟨scope, hscope, hinside⟩
    obtain ⟨hne, item, hitem, locator, hlocator, rfl⟩ := mem_unique_filterMap.mp hscope
    exact ⟨item, hitem, locator, hlocator, hne, hinside⟩
  · rintro ⟨item, hitem, locator, hlocator, hne, hinside⟩
    exact ⟨services.strip locator,
      mem_unique_filterMap.mpr ⟨hne, item, hitem, locator, hlocator, rfl⟩, hinside⟩

variable {grant : SessionGrant}

theorem resourceAllowed_iff (created : ℤ) {resourceId : String}
    (hlocal : grant.localResourceIds = (missionGrant services created contract).localResourceIds)
    (hremote : grant.remoteResourceIds =
      (missionGrant services created contract).remoteResourceIds) (hid : resourceId ≠ "") :
    resourceAllowed grant resourceId = true ↔
      (∀ item ∈ authorizedLocal contract ++ authorizedRemote contract,
        services.strip item.resourceId = "") ∨
      ∃ item ∈ authorizedLocal contract ++ authorizedRemote contract,
        services.strip item.resourceId = resourceId := by
  rw [resourceAllowed, hlocal, hremote]
  simp only [missionGrant, Bool.or_eq_true, List.isEmpty_iff, append_eq_nil_iff, unique_eq_nil,
    contains_iff_mem, mem_append, mem_unique, mem_map, or_imp, forall_and,
    forall_exists_index, and_imp, forall_apply_eq_imp_iff₂, hid, ne_eq, not_false_eq_true,
    true_and, exists_exists_and_eq_and, or_and_right, exists_or]
  rfl

theorem repositoryReason_iff (created : ℤ) {repository : String}
    (hscope : grant.repositoryScope = (missionGrant services created contract).repositoryScope)
    (hbranches : grant.branchScope = (missionGrant services created contract).branchScope)
    (hrepository : repository ≠ "") :
    repositoryReason grant repository query.branch = none ↔
      ((∀ item ∈ authorizedRemote contract, ¬HasIdentity services item) ∨
        ∃ item ∈ authorizedRemote contract, ∃ identity,
          given item.normalizedIdentity = some identity ∧ services.strip identity = repository) ∧
      ∀ branch, given query.branch = some branch →
        (∀ item ∈ authorizedRemote contract, ¬HasIdentity services item) ∨
        services.strip repository ≠ "" ∧
          ∃ item, lastWith repository (authorizedRemote contract) = some item ∧
            branch ∈ unique services item.allowedBranches := by
  rw [repositoryReason_eq_none, hscope, hbranches]
  refine and_congr (or_congr unique_filterMap_eq_nil ?_) ?_
  · rw [missionGrant, mem_unique_filterMap]
    simp only [hrepository, ne_eq, not_false_eq_true, true_and]
    rfl
  refine forall_congr' fun branch => imp_congr_right fun _ => ?_
  refine or_congr (branchScope_eq_nil _) ?_
  change branch ∈ ((branchScope services (authorizedRemote contract)).get? repository).getD [] ↔ _
  by_cases hblank : services.strip repository = ""
  · rw [branchScope_get?_blank _ hblank]
    simp [hblank]
  · rw [branchScope_get? _ hblank]
    cases lastWith repository (authorizedRemote contract) with
    | none => simp
    | some item => simp [hblank]

theorem IsGrantOf.scopeReason_iff (h : IsGrantOf services contract grant) :
    scopeReason services grant query = none ↔ Admitted services contract query := by
  obtain ⟨-, hevidence, created, status, approvedBy, usedCount, updatedAt, rfl⟩ := h
  rw [scopeReason_eq_none]
  constructor
  · rintro ⟨haction, hmission, hmessage, hprompt, hpath, -, hresource, hrepository⟩
    have hrepository' := fun repository hgiven =>
      (repositoryReason_iff created rfl rfl (given_eq_some.mp hgiven).2).mp
        (hrepository repository hgiven)
    exact
      { evidence := hevidence
        action := mem_unique.mp haction
        mission := hmission
        message := hmessage
        prompt := hprompt
        path := fun path hgiven => (pathsScope_iff created).mp (hpath path hgiven)
        resource := fun resourceId hgiven =>
          (resourceAllowed_iff created rfl rfl (given_eq_some.mp hgiven).2).mp
            (hresource resourceId hgiven)
        repository := fun repository hgiven => (hrepository' repository hgiven).1
        branch := fun repository branch hgiven hbranch =>
          (hrepository' repository hgiven).2 branch hbranch }
  · intro hadmitted
    refine ⟨mem_unique.mpr hadmitted.action, hadmitted.mission, hadmitted.message,
      hadmitted.prompt, ?_, ?_, ?_, ?_⟩
    · intro path hgiven
      exact (pathsScope_iff created).mpr (hadmitted.path path hgiven)
    · intro command _
      exact Or.inl rfl
    · intro resourceId hgiven
      exact (resourceAllowed_iff created rfl rfl (given_eq_some.mp hgiven).2).mpr
        (hadmitted.resource resourceId hgiven)
    · intro repository hgiven
      refine (repositoryReason_iff created rfl rfl (given_eq_some.mp hgiven).2).mpr
        ⟨hadmitted.repository repository hgiven, fun branch hbranch => ?_⟩
      exact hadmitted.branch repository branch hgiven hbranch

theorem isGrantId_missionGrantId (services : GrantServices) (contract : MissionContract) :
    isGrantId (missionGrantId services contract) = true := by
  rw [isGrantId, missionGrantId, String.toList_append, isPrefixOf_iff_prefix]
  have hprefix : "grant_".toList <+: "grant_mission_".toList := by decide
  exact hprefix.trans (prefix_append _ _)

theorem IsGrantOf.later (h : IsGrantOf services contract grant) (now : ℤ) (actor : String) :
    IsGrantOf services contract (grant.expire now) ∧ IsGrantOf services contract (grant.use now) ∧
      IsGrantOf services contract (grant.revoke now actor) := by
  obtain ⟨hauthorized, hevidence, created, status, approvedBy, usedCount, updatedAt, rfl⟩ := h
  refine ⟨⟨hauthorized, hevidence, created, _, _, _, _, rfl⟩, ?_,
    ⟨hauthorized, hevidence, created, _, _, _, _, rfl⟩⟩
  rw [SessionGrant.use]
  split
  · exact ⟨hauthorized, hevidence, created, _, _, _, _, rfl⟩
  · exact ⟨hauthorized, hevidence, created, _, _, _, _, rfl⟩

/-- What is stored for the mission, if anything, is a grant of its contract. -/
def HoldsGrant (services : GrantServices) (contract : MissionContract) (grants : GrantTable) :
    Prop :=
  ∀ grant, grants.get? (missionGrantId services contract) = some grant →
    IsGrantOf services contract grant

theorem respects_save (h : IsGrantOf services contract grant) :
    (save (missionGrantId services contract) grant).Respects grantHandler
      (HoldsGrant services contract) (IsGrantOf services contract) := by
  rw [save_eq (isGrantId_missionGrantId services contract)]
  refine .call (fun grants _ found hfound => ?_) fun _ _ => .done h
  cases (Table.get?_insert_self _ _ _).symm.trans hfound
  exact h

theorem respects_get : (get (missionGrantId services contract)).Respects grantHandler
    (HoldsGrant services contract) fun stored =>
      ∀ grant, stored = some grant → IsGrantOf services contract grant := by
  rw [get_eq (isGrantId_missionGrantId services contract)]
  exact .call (fun _ hgrants => hgrants) fun _ hgrants => .done hgrants

theorem respects_required : (required (missionGrantId services contract)).Respects grantHandler
    (HoldsGrant services contract) (IsGrantOf services contract) := by
  refine respects_get.bind fun stored h => ?_
  cases stored with
  | none => exact .raise _
  | some grant => exact .done (h grant rfl)

theorem respects_expireIfNeeded (now : ℤ) (h : IsGrantOf services contract grant) :
    (expireIfNeeded now (missionGrantId services contract) grant).Respects grantHandler
      (HoldsGrant services contract) (IsGrantOf services contract) := by
  unfold expireIfNeeded
  split
  · exact respects_save (h.later now "").1
  · exact .done h

theorem respects_isEffective (now : ℤ) (query : GrantQuery) :
    (isEffective services now (missionGrantId services contract) query).Respects grantHandler
      (HoldsGrant services contract) fun decision =>
        IsGrantOf services contract decision.grant := by
  refine respects_required.bind fun stored hstored =>
    (respects_expireIfNeeded now hstored).bind fun grant h => ?_
  split
  · exact .done h
  split
  · exact .done h
  split
  · exact (respects_save (h.later now "").1).bind fun _ h => .done h
  · exact .done h

/-- What services do with the grant of a mission. -/
inductive MissionCall
  | ensure (now : ℤ)
  | consume (now : ℤ) (query : GrantQuery)
  | revoke (now : ℤ) (actor : String)

def MissionCall.program (services : GrantServices) (contract : MissionContract) :
    MissionCall → GrantProgram Unit
  | .ensure now => do let _ ← ensureMissionGrant services now contract
  | .consume now query => do
    let _ ← Grants.consume services now (missionGrantId services contract) query
  | .revoke now actor => do let _ ← Grants.revoke now (missionGrantId services contract) actor

theorem MissionCall.respects (call : MissionCall) : (call.program services contract).Respects
    grantHandler (HoldsGrant services contract) fun _ => True := by
  cases call with
  | ensure now =>
    refine Program.Respects.bind (Q := fun _ => True) ?_ fun _ _ => .done trivial
    unfold ensureMissionGrant
    split
    · exact .done trivial
    rename_i hauthorized
    split
    · exact .raise _
    rename_i hevidence
    refine respects_get.bind fun stored h => ?_
    split
    · split
      · exact .raise _
      · exact (respects_expireIfNeeded now (h _ rfl)).bind fun _ _ => .done trivial
    · have hfresh : IsGrantOf services contract (missionGrant services now contract) :=
        ⟨hauthorized, by simpa using hevidence, now, _, _, _, _, rfl⟩
      exact (respects_save hfresh).bind fun _ _ => .done trivial
  | consume now query =>
    refine Program.Respects.bind (Q := fun _ => True) ?_ fun _ _ => .done trivial
    refine (respects_isEffective now query).bind fun decision h => ?_
    split
    · exact .done trivial
    · exact (respects_save (h.later now "").2.1).bind fun _ _ => .done trivial
  | revoke now actor =>
    refine Program.Respects.bind (Q := fun _ => True) ?_ fun _ _ => .done trivial
    refine respects_required.bind fun grant h => ?_
    split
    · exact .done trivial
    · exact (respects_save (h.later now actor).2.2).bind fun _ _ => .done trivial

/-- However the calls for a mission are interleaved, what is stored for it is a grant of its
contract: no use, expiry or revocation and no second grant widens what it covers. -/
theorem mission_grant_never_widens {ι : Type} [DecidableEq ι] (calls : ι → MissionCall)
    {grants : GrantTable} (hgrants : HoldsGrant services contract grants)
    {trace : List (ι × grantStore.Exchange)} {c : Pool grantStore GrantTable fun _ : ι => Unit}
    (hrun : Pool.Runs grantHandler
      ⟨fun i => (calls i).program services contract, grants⟩ trace c) :
    HoldsGrant services contract c.state :=
  hrun.keeps (fun i => (calls i).respects) hgrants

/-- A grant of a contract is reported as effective exactly if it is approved, its time is not
over and the question passes the separate lists of the contract. -/
theorem mission_grant_effective_iff {grant : SessionGrant} {grants : GrantTable}
    (hgrant : IsGrantOf services contract grant)
    (hget : grants.get? (missionGrantId services contract) = some grant) (now : ℤ) :
    ReportsEffective services grants now (missionGrantId services contract) query ↔
      grant.isOver now = false ∧ grant.status = .approved ∧ Admitted services contract query := by
  rw [reportsEffective_iff (isGrantId_missionGrantId services contract) hget,
    hgrant.scopeReason_iff]
  -- The grant of a mission may be used any number of times.
  have hunused : grant.isUsedUp = false := by
    obtain ⟨-, -, created, status, approvedBy, usedCount, updatedAt, rfl⟩ := hgrant
    rfl
  simp [hunused]

/-- The grant of a contract stays inside it exactly for the questions that do not pass the
separate lists, or for which no path is let through by an empty scope and no action or branch
is borrowed from another resource. -/
theorem mission_grant_inside_iff : StaysInside services contract query ↔
      (Admitted services contract query →
        ¬PathsUnscoped services contract query ∧ ¬Borrowed services contract query) := by
  constructor
  · intro h hadmitted
    have hauthorized : contract.authority.authorizedCapabilities ≠ [] := by
      obtain ⟨-, capability, hmem, -⟩ := hadmitted.action
      exact ne_nil_of_mem hmem
    have hgrant : IsGrantOf services contract (missionGrant services 0 contract) :=
      ⟨hauthorized, hadmitted.evidence, 0, _, _, _, _, rfl⟩
    -- The grant is asked at the time it is made.
    let grants : GrantTable :=
      ⟨[(missionGrantId services contract, missionGrant services 0 contract)], by simp⟩
    have hget : grants.get? (missionGrantId services contract) =
        some (missionGrant services 0 contract) := lookup_cons_self
    have heffective : ReportsEffective services grants 0 (missionGrantId services contract)
        query := by
      rw [reportsEffective_iff (isGrantId_missionGrantId services contract) hget,
        hgrant.scopeReason_iff]
      exact ⟨by simp [SessionGrant.isOver, missionGrant], rfl, hadmitted, rfl⟩
    obtain ⟨⟨item, hitem, hholds, hlists⟩, hscope⟩ := h _ grants 0 hgrant hget heffective
    refine ⟨?_, fun hborrowed => hborrowed item hitem hholds hlists⟩
    rintro ⟨⟨path, hpath⟩, hnone⟩
    exact hscope path hpath (unique_filterMap_eq_nil.mpr hnone)
  · intro h grant grants now hgrant hget heffective
    rw [reportsEffective_iff (isGrantId_missionGrantId services contract) hget,
      hgrant.scopeReason_iff] at heffective
    obtain ⟨hpaths, hborrowed⟩ := h heffective.2.2.1
    constructor
    · rw [Borrowed] at hborrowed
      push Not at hborrowed
      exact hborrowed
    · intro path hpath hnil
      obtain ⟨-, -, created, status, approvedBy, usedCount, updatedAt, rfl⟩ := hgrant
      exact hpaths ⟨⟨path, hpath⟩, unique_filterMap_eq_nil.mp hnil⟩

end

def directory (resourceId locator permission : String) : MissionResourceScope where
  resourceId := resourceId
  resourceType := .localWorkspace
  role := none
  locator := some locator
  provider := none
  normalizedIdentity := none
  allowedBranches := []
  permissions := [permission]
  constraints := []
  derivedFrom := none
  provenanceRefs := []
  metadata := .obj []

def readDocsEditCode : MissionContract where
  missionId := "mission_1"
  sessionId := none
  sourceMessageId := "message_1"
  sourcePromptSha256 := "prompt"
  objective := "fix the code"
  semanticContext := .obj []
  strategy := .singleOperation
  localResources := [directory "docs" "/docs" "read", directory "code" "/code" "edit"]
  remoteResources := []
  authority := ⟨["read", "edit"], ["read", "edit"], [],
    [⟨"message_1", "clause", "prompt", ["read", "edit"]⟩]⟩
  negativeConstraints := []
  completion := ⟨[], [], false⟩
  provenanceRefs := []
  revision := 1
  parentAuthoritySha256 := none
  authoritySha256 := "authority"
  frozenAt := "t0"
  schemaVersion := "mission_contract.v1"

def twoDirectories : GrantServices where
  strip := id
  resolve path :=
    if path = "/docs" then some ["/", "docs"]
    else if path = "/code" then some ["/", "code"]
    else if path = "/docs/guide" then some ["/", "docs", "guide"]
    else none
  sha256 := id

def editTheGuide : GrantQuery :=
  ⟨"edit", some "/docs/guide", none, some "mission_1", none, none, none, none, none⟩

def missionGrantStored : GrantTable :=
  ⟨[(missionGrantId twoDirectories readDocsEditCode,
    missionGrant twoDirectories 0 readDocsEditCode)], by simp⟩

theorem missionGrantStored_get? :
    missionGrantStored.get? (missionGrantId twoDirectories readDocsEditCode) =
      some (missionGrant twoDirectories 0 readDocsEditCode) := List.lookup_cons_self

theorem isGrantOf_readDocsEditCode :
    IsGrantOf twoDirectories readDocsEditCode (missionGrant twoDirectories 0 readDocsEditCode) :=
  ⟨by simp [readDocsEditCode], by simp [readDocsEditCode], 0, _, _, _, _, rfl⟩

def useAndRevoke : Bool → MissionCall
  | false => .consume 1 editTheGuide
  | true => .revoke 2 "user"

/-- The use is about to save the grant when it is revoked, and takes the revocation back. -/
theorem revoked_grant_never_widens : HoldsGrant twoDirectories readDocsEditCode
    (Pool.play grantHandler [false, true, true, false] (β := fun _ : Bool => Unit)
      ⟨fun i => (useAndRevoke i).program twoDirectories readDocsEditCode,
        missionGrantStored⟩).state := by
  refine mission_grant_never_widens useAndRevoke (fun grant hget => ?_) (Pool.runs_play _ _ _)
  cases missionGrantStored_get?.symm.trans hget
  exact isGrantOf_readDocsEditCode

theorem guide_edit_effective : ReportsEffective twoDirectories missionGrantStored 0
      (missionGrantId twoDirectories readDocsEditCode) editTheGuide := by
  rw [reportsEffective_iff (isGrantId_missionGrantId _ _) missionGrantStored_get?]
  exact ⟨by simp [SessionGrant.isOver, missionGrant], rfl, by decide, rfl⟩

/-- The edit of the documents passes each of the lists. -/
theorem guide_edit_admitted : (missionGrant twoDirectories 0 readDocsEditCode).isOver 0 = false ∧
    (missionGrant twoDirectories 0 readDocsEditCode).status = .approved ∧
    Admitted twoDirectories readDocsEditCode editTheGuide :=
  (mission_grant_effective_iff isGrantOf_readDocsEditCode missionGrantStored_get? 0).mp
    guide_edit_effective

/-- No single resource allows the edit of the documents. -/
theorem edit_borrowed_from_code : ReportsEffective twoDirectories missionGrantStored 0
      (missionGrantId twoDirectories readDocsEditCode) editTheGuide ∧
    ¬StaysInside twoDirectories readDocsEditCode editTheGuide := by
  refine ⟨guide_edit_effective, fun h => ?_⟩
  obtain ⟨item, hitem, hholds, haction, -⟩ := (h _ missionGrantStored 0 isGrantOf_readDocsEditCode
    missionGrantStored_get? guide_edit_effective).1
  have hmem : item ∈ [directory "docs" "/docs" "read", directory "code" "/code" "edit"] := hitem
  rw [mem_pair] at hmem
  rcases hmem with rfl | rfl
  · -- The documents may only be read.
    have hread : "edit" ∈ ["read"] := haction
    exact absurd hread (by decide)
  · -- The guide is not in the directory of the code.
    rcases hholds with ⟨path, locator, hpath, hlocator, hinside⟩ | ⟨repository, hrepository, -⟩ |
      ⟨hnone, -⟩
    · obtain rfl := Option.some.inj (given_eq_some.mp hpath).1
      obtain rfl := Option.some.inj hlocator
      exact absurd hinside (by decide)
    · cases hrepository
    · exact absurd hnone (by decide)

end AIpinho.Grants
