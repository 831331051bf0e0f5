import AIpinho.Mission.Contract

/-!
# Authority along a mission

Each check of a child contract composes along a chain of contracts. A resource that is not one
of the first contract's is a staging resource, or a narrower copy of one, that the staging
policy has accepted.
-/

namespace AIpinho.Mission

open List Lib

variable {services : MissionServices}

/-- A resource that is another one with no more permissions and branches and no
fewer constraints. -/
structure MissionResourceScope.Within (child parent : MissionResourceScope) : Prop where
  resourceId : child.resourceId = parent.resourceId
  same : SameResource parent child
  permissions : child.permissions ⊆ parent.permissions
  allowedBranches : child.allowedBranches ⊆ parent.allowedBranches
  constraints : parent.constraints.map MissionConstraint.stableJson ⊆
    child.constraints.map MissionConstraint.stableJson

variable {r s : MissionResourceScope} {parent child : MissionContract}
  {contracts : List MissionContract}

theorem SameResource.trans {t : MissionResourceScope} (hrs : SameResource r s)
    (hst : SameResource s t) : SameResource r t := by
  obtain ⟨h1, h2, h3, h4, h5, h6, h7⟩ := hrs
  obtain ⟨k1, k2, k3, k4, k5, k6, k7⟩ := hst
  exact ⟨h1.trans k1, h2.trans k2, h3.trans k3, h4.trans k4, h5.trans k5, h6.trans k6,
    BEq.trans h7 k7⟩

theorem MissionResourceScope.Within.trans {t : MissionResourceScope} (hrs : r.Within s)
    (hst : s.Within t) : r.Within t where
  resourceId := hrs.resourceId.trans hst.resourceId
  same := hst.same.trans hrs.same
  permissions := List.Subset.trans hrs.permissions hst.permissions
  allowedBranches := List.Subset.trans hrs.allowedBranches hst.allowedBranches
  constraints := List.Subset.trans hst.constraints hrs.constraints

theorem within_of_stableJson_eq (h : r.stableJson = s.stableJson) : r.Within s := by
  unfold MissionResourceScope.stableJson at h
  simp only [MissionResourceScope.mk.injEq] at h
  obtain ⟨hid, htype, hrole, hlocator, hprovider, hidentity, hbranches, hpermissions,
    hconstraints, hderived, -, hmetadata⟩ := h
  have hmetadata' : (s.metadata == r.metadata) = true := Json.beq_of_sorted_eq hmetadata.symm
  exact
    { resourceId := hid
      same := ⟨htype.symm, hrole.symm, hlocator.symm, hprovider.symm, hidentity.symm,
        hderived.symm, hmetadata'⟩
      permissions := by rw [hpermissions]; exact List.Subset.refl _
      allowedBranches := by rw [hbranches]; exact List.Subset.refl _
      constraints := by rw [hconstraints]; exact List.Subset.refl _ }

theorem exists_within_of_map_eq {rs ss : List MissionResourceScope}
    (h : rs.map MissionResourceScope.stableJson = ss.map MissionResourceScope.stableJson)
    (hr : r ∈ rs) : ∃ s ∈ ss, r.Within s := by
  have hmem : r.stableJson ∈ ss.map MissionResourceScope.stableJson := by
    rw [← h]
    exact mem_map_of_mem hr
  obtain ⟨s, hs, heq⟩ := mem_map.mp hmem
  exact ⟨s, hs, within_of_stableJson_eq heq.symm⟩

theorem mem_of_resourceById {resources : List MissionResourceScope} {resourceId : String}
    (h : resourceById resources resourceId = some r) :
    r ∈ resources ∧ r.resourceId = resourceId := by
  constructor
  · exact mem_reverse.mp (mem_of_find?_eq_some h)
  · simpa using find?_some h

theorem within_of_validateKeptResource {parent child : MissionResourceScope}
    (hid : parent.resourceId = child.resourceId)
    (h : validateKeptResource parent child = .ok ()) : child.Within parent := by
  unfold validateKeptResource at h
  simp only [demand_bind_ok_iff, demand_ok_iff] at h
  obtain ⟨hsame, hpermissions, hbranches, hconstraints⟩ := h
  exact ⟨hid.symm, hsame, hpermissions, hbranches, hconstraints⟩

theorem validateResource_ok {resources : List MissionResourceScope} {scope : Scope}
    {child : MissionResourceScope}
    (h : validateResource services resources scope child = .ok ()) :
    (∃ r ∈ resources, child.Within r) ∨ ∃ parent, scope = .local_ parent ∧
        validateDerivedResource services parent child = .ok () := by
  unfold validateResource at h
  cases hparent : resourceById resources child.resourceId with
  | some r =>
    obtain ⟨hmem, hid⟩ := mem_of_resourceById hparent
    rw [hparent] at h
    exact .inl ⟨r, hmem, within_of_validateKeptResource hid h⟩
  | none =>
    rw [hparent] at h
    cases scope with
    | remote => cases h
    | local_ parent =>
      dsimp only at h
      split at h
      · exact .inr ⟨parent, rfl, h⟩
      · cases h

theorem validateDerivedResource_ok {resource : MissionResourceScope}
    (h : validateDerivedResource services parent resource = .ok ()) :
    resource.resourceType = .missionStaging ∧
    (∃ root, safeRoot services = .ok root ∧
      isUnder services (resource.locator.getD "") root = true) ∧
    resource.permissions ⊆ allowedPermissions services ∧
    ∃ remote ∈ parent.remoteResources, remote.resourceType = .remoteRepository ∧
      resource.derivedFrom = some remote.resourceId := by
  unfold validateDerivedResource at h
  simp only [demand_bind_ok_iff] at h
  obtain ⟨htype, -, -, hstaged⟩ := h
  obtain ⟨root, hroot, hstaged⟩ := value_bind_ok_iff.mp hstaged
  obtain ⟨hunder, hsource⟩ := demand_bind_ok_iff.mp hstaged
  cases hremote : sourceRemote parent resource with
  | none =>
    rw [hremote] at hsource
    cases hsource
  | some remote =>
    have hmem : remote ∈ parent.remoteResources := mem_of_find?_eq_some hremote
    have hderived : some remote.resourceId = resource.derivedFrom := by
      simpa using find?_some hremote
    rw [hremote] at hsource
    unfold validateStagingSource at hsource
    simp only [demand_bind_ok_iff] at hsource
    obtain ⟨hrepository, hpermissions, -⟩ := hsource
    exact ⟨htype, ⟨root, hroot, hunder⟩, hpermissions, remote, hmem, hrepository, hderived.symm⟩

/-- A resource inside the staging policy: it is within a resource that the policy has
accepted against one of the contracts, and that is derived from a remote repository
of the first one. -/
structure InsideStagingPolicy (services : MissionServices) (contracts : List MissionContract)
    (first : MissionContract) (resource : MissionResourceScope) : Prop where
  accepted : ∃ parent ∈ contracts, ∃ origin,
    validateDerivedResource services parent origin = .ok () ∧ resource.Within origin
  resourceType : resource.resourceType = .missionStaging
  underRoot : ∃ root, safeRoot services = .ok root ∧
    isUnder services (resource.locator.getD "") root = true
  permissions : resource.permissions ⊆ allowedPermissions services
  source : ∃ remote ∈ first.remoteResources, remote.resourceType = .remoteRepository ∧
    resource.derivedFrom = some remote.resourceId

theorem InsideStagingPolicy.of_accepted {origin resource : MissionResourceScope}
    (hparent : parent ∈ contracts) (h : validateDerivedResource services parent origin = .ok ())
    (hwithin : resource.Within origin) :
    InsideStagingPolicy services contracts parent resource := by
  obtain ⟨htype, ⟨root, hroot, hunder⟩, hpermissions, remote, hmem, hrepository, hderived⟩ :=
    validateDerivedResource_ok h
  obtain ⟨stype, -, slocator, -, -, sderived, -⟩ := hwithin.same
  exact
    { accepted := ⟨parent, hparent, origin, h, hwithin⟩
      resourceType := by rw [← stype, htype]
      underRoot := ⟨root, hroot, by rw [← slocator]; exact hunder⟩
      permissions := List.Subset.trans hwithin.permissions hpermissions
      source := ⟨remote, hmem, hrepository, by rw [← sderived, hderived]⟩ }

theorem SameIdentity.refl (contract : MissionContract) : SameIdentity contract contract :=
  ⟨rfl, rfl, rfl, rfl, rfl, BEq.rfl, rfl⟩

theorem SameIdentity.trans {a b c : MissionContract} (hab : SameIdentity a b)
    (hbc : SameIdentity b c) : SameIdentity a c := by
  obtain ⟨h1, h2, h3, h4, h5, h6, h7⟩ := hab
  obtain ⟨k1, k2, k3, k4, k5, k6, k7⟩ := hbc
  exact ⟨h1.trans k1, h2.trans k2, h3.trans k3, h4.trans k4, h5.trans k5, BEq.trans h6 k6,
    h7.trans k7⟩

/-- The last of some contracts has no more authority than the first. -/
structure Narrows (services : MissionServices) (contracts : List MissionContract)
    (first last : MissionContract) : Prop where
  identity : SameIdentity first last
  requested : last.authority.requestedCapabilities ⊆ first.authority.requestedCapabilities
  authorized : last.authority.authorizedCapabilities ⊆ first.authority.authorizedCapabilities
  negative : first.negativeConstraints.map MissionConstraint.stableJson ⊆
    last.negativeConstraints.map MissionConstraint.stableJson
  validation : first.completion.validationRequirements ⊆ last.completion.validationRequirements
  completion : first.completion.completionRequirements ⊆ last.completion.completionRequirements
  limited : last.completion.allowLimitedCompletion = true →
    first.completion.allowLimitedCompletion = true
  remote : ∀ r ∈ last.remoteResources, ∃ s ∈ first.remoteResources, r.Within s
  localOrStaged : ∀ r ∈ last.localResources,
    (∃ s ∈ first.localResources, r.Within s) ∨ InsideStagingPolicy services contracts first r

/-- Contracts with one hash have one payload. -/
def NoCollision (services : MissionServices) (a b : MissionContract) : Prop :=
  services.sha256 a.payload = services.sha256 b.payload → a.payload = b.payload

theorem narrows_of_payload_eq {first last : MissionContract} (hidentity : SameIdentity first last)
    (h : last.payload = first.payload) : Narrows services contracts first last := by
  unfold MissionContract.payload at h
  simp only [MissionContract.mk.injEq] at h
  obtain ⟨-, -, -, -, -, -, -, hlocal, hremote, hauthority, hnegative, hcompletion, -⟩ := h
  exact
    { identity := hidentity
      requested := by rw [hauthority]; exact List.Subset.refl _
      authorized := by rw [hauthority]; exact List.Subset.refl _
      negative := by rw [hnegative]; exact List.Subset.refl _
      validation := by rw [hcompletion]; exact List.Subset.refl _
      completion := by rw [hcompletion]; exact List.Subset.refl _
      limited := by rw [hcompletion]; exact id
      remote := fun r hr => exists_within_of_map_eq hremote hr
      localOrStaged := fun r hr => .inl (exists_within_of_map_eq hlocal hr) }

theorem narrows_of_validateChangedAuthority (hparent : parent ∈ contracts)
    (hidentity : SameIdentity parent child)
    (h : validateChangedAuthority services parent child = .ok ()) :
    Narrows services contracts parent child ∧ child.revision = parent.revision + 1 := by
  unfold validateChangedAuthority validateResourceNarrowing at h
  simp only [demand_ok_iff, checks_bind_ok_iff, checkEach_ok_iff] at h
  obtain ⟨hrevision, -, hrequested, hauthorized, hlocal, hremote, hnegative, hvalidation,
    hcompletion, hlimited⟩ := h
  refine ⟨?_, hrevision⟩
  exact
    { identity := hidentity
      requested := hrequested
      authorized := hauthorized
      negative := hnegative
      validation := hvalidation
      completion := hcompletion
      limited := by
        intro hchild
        by_contra hnot
        exact hlimited ⟨by simpa using hnot, hchild⟩
      remote := by
        intro r hr
        rcases validateResource_ok (hremote r hr) with hwithin | ⟨_, hscope, _⟩
        · exact hwithin
        · cases hscope
      localOrStaged := by
        intro r hr
        rcases validateResource_ok (hlocal r hr) with hwithin | ⟨_, hscope, haccepted⟩
        · exact .inl hwithin
        · cases hscope
          have hself : r.Within r := within_of_stableJson_eq rfl
          exact .inr (.of_accepted hparent haccepted hself) }

def revisionStep (parent child : MissionContract) : ℕ :=
  if child.authoritySha256 = parent.authoritySha256 then 0 else 1

theorem narrows_of_validateChildContract (hparent : parent ∈ contracts)
    (hcollision : NoCollision services child parent)
    (h : validateChildContract services parent child = .ok ()) :
    Narrows services contracts parent child ∧
      child.revision = parent.revision + revisionStep parent child := by
  unfold validateChildContract at h
  simp only [demand_bind_ok_iff] at h
  obtain ⟨⟨hverify, hverify'⟩, hidentity, hrest⟩ := h
  unfold revisionStep
  split at hrest
  · rename_i hsame
    rw [if_pos hsame]
    unfold verify authoritySha256 at hverify hverify'
    rw [decide_eq_true_eq] at hverify hverify'
    have hsha : services.sha256 child.payload = services.sha256 parent.payload := by
      rw [← hverify.2, ← hverify'.2, hsame]
    have hpayload : child.payload = parent.payload := hcollision hsha
    have hrevision : child.revision = parent.revision := demand_ok_iff.mp hrest
    exact ⟨narrows_of_payload_eq hidentity hpayload, by omega⟩
  · rename_i hchanged
    rw [if_neg hchanged]
    have hnarrows := narrows_of_validateChangedAuthority hparent hidentity hrest
    exact ⟨hnarrows.1, by have := hnarrows.2; omega⟩

theorem InsideStagingPolicy.of_child
    (hnarrows : Narrows services (parent :: contracts) parent child)
    (h : InsideStagingPolicy services contracts child r) :
    InsideStagingPolicy services (parent :: contracts) parent r := by
  obtain ⟨contract, hcontract, origin, haccepted, hwithin⟩ := h.accepted
  obtain ⟨remote, hremote, hrepository, hderived⟩ := h.source
  obtain ⟨remote', hremote', hkept⟩ := hnarrows.remote remote hremote
  exact
    { accepted := ⟨contract, mem_cons_of_mem _ hcontract, origin, haccepted, hwithin⟩
      resourceType := h.resourceType
      underRoot := h.underRoot
      permissions := h.permissions
      source := ⟨remote', hremote', by rw [hkept.same.1, hrepository],
        by rw [hderived, hkept.resourceId]⟩ }

theorem Narrows.trans {last : MissionContract}
    (hfirst : Narrows services (parent :: contracts) parent child)
    (hrest : Narrows services contracts child last) :
    Narrows services (parent :: contracts) parent last where
  identity := hfirst.identity.trans hrest.identity
  requested := List.Subset.trans hrest.requested hfirst.requested
  authorized := List.Subset.trans hrest.authorized hfirst.authorized
  negative := List.Subset.trans hfirst.negative hrest.negative
  validation := List.Subset.trans hfirst.validation hrest.validation
  completion := List.Subset.trans hfirst.completion hrest.completion
  limited := fun h => hfirst.limited (hrest.limited h)
  remote := by
    intro r hr
    obtain ⟨s, hs, hrs⟩ := hrest.remote r hr
    obtain ⟨t, ht, hst⟩ := hfirst.remote s hs
    exact ⟨t, ht, hrs.trans hst⟩
  localOrStaged := by
    intro r hr
    rcases hrest.localOrStaged r hr with ⟨s, hs, hrs⟩ | hstaged
    · rcases hfirst.localOrStaged s hs with ⟨t, ht, hst⟩ | hstaged
      · exact .inl ⟨t, ht, hrs.trans hst⟩
      · -- `s` was accepted as a staging resource at an earlier child and is narrowed here.
        obtain ⟨contract, hcontract, origin, haccepted, hwithin⟩ := hstaged.accepted
        obtain ⟨stype, -, slocator, -, -, sderived, -⟩ := hrs.same
        exact .inr
          { accepted := ⟨contract, hcontract, origin, haccepted, hrs.trans hwithin⟩
            resourceType := by rw [← stype, hstaged.resourceType]
            underRoot := by rw [← slocator]; exact hstaged.underRoot
            permissions := List.Subset.trans hrs.permissions hstaged.permissions
            source := by rw [← sderived]; exact hstaged.source }
    · exact .inr (.of_child hfirst hstaged)

def authorityChanges : List MissionContract → ℕ
  | parent :: child :: rest => revisionStep parent child + authorityChanges (child :: rest)
  | _ => 0

/-- Authority never grows along a chain of accepted contracts, and the revision counts
the changes of authority. -/
theorem authority_never_grows {first : MissionContract} {rest : List MissionContract}
    (hchain : (first :: rest).IsChain fun parent child =>
      validateChildContract services parent child = .ok ())
    (hcollision : ∀ a ∈ first :: rest, ∀ b ∈ first :: rest, NoCollision services a b) :
    Narrows services (first :: rest) first ((first :: rest).getLast (List.cons_ne_nil _ _)) ∧
      ((first :: rest).getLast (List.cons_ne_nil _ _)).revision =
        first.revision + authorityChanges (first :: rest) := by
  induction rest generalizing first with
  | nil => exact ⟨narrows_of_payload_eq (.refl first) rfl, by simp [authorityChanges]⟩
  | cons child rest ih =>
    rw [isChain_cons_cons] at hchain
    obtain ⟨hchild, hrest⟩ := hchain
    have hfirst : first ∈ first :: child :: rest := mem_cons_self
    have hstep := narrows_of_validateChildContract hfirst
      (hcollision child (by simp) first (by simp)) hchild
    have hlast := ih hrest fun a ha b hb =>
      hcollision a (mem_cons_of_mem _ ha) b (mem_cons_of_mem _ hb)
    rw [getLast_cons (cons_ne_nil _ _)]
    refine ⟨hstep.1.trans hlast.1, ?_⟩
    rw [hlast.2, hstep.2, authorityChanges]
    omega

def sampleServices : MissionServices where
  sha256 contract := "sha256:" ++ toString contract.revision
  staging :=
    { enabled := true
      rootStrategy := "system_temp"
      directoryName := "aipinho_mission_staging"
      configuredRoot := ""
      allowedPermissions := ["read_file", "create_file"]
      lifetime := "mission" }
  tempDirectory := "/tmp"
  separator := "/"
  isAbsolute path := path.toList.head? = some '/'
  resolve := id
  normcase := id
  strip := id
  repr _ := ""

def sampleRemote : MissionResourceScope where
  resourceId := "remote"
  resourceType := .remoteRepository
  role := none
  locator := none
  provider := none
  normalizedIdentity := none
  allowedBranches := ["main"]
  permissions := ["git_push"]
  constraints := []
  derivedFrom := none
  provenanceRefs := []
  metadata := .obj []

def sampleStaging : MissionResourceScope where
  resourceId := "staging"
  resourceType := .missionStaging
  role := some "temp_staging"
  locator := some "/tmp/aipinho_mission_staging/mission"
  provider := none
  normalizedIdentity := none
  allowedBranches := []
  permissions := ["read_file"]
  constraints := []
  derivedFrom := some "remote"
  provenanceRefs := []
  metadata := .obj [("lifetime", .str "mission"), ("source_remote_resource_id", .str "remote"),
    ("source_allowed_branches", .list [.str "main"]),
    ("authority_not_inherited", .list [.str "git_push"]),
    ("creation_evidence", .list [.str "mission:m", .str "remote_resource:remote",
      .str "mission_staging_policy:v1"])]

def sampleContract : MissionContract where
  missionId := "m"
  sessionId := none
  sourceMessageId := "message"
  sourcePromptSha256 := "prompt"
  objective := "publish"
  semanticContext := .obj []
  strategy := .staged
  localResources := []
  remoteResources := [sampleRemote]
  authority := ⟨["git_push"], ["git_push"], [], []⟩
  negativeConstraints := []
  completion := ⟨[], [], false⟩
  provenanceRefs := []
  revision := 1
  parentAuthoritySha256 := none
  authoritySha256 := "sha256:1"
  frozenAt := ""
  schemaVersion := "mission_contract.v1"

def sampleChild : MissionContract :=
  { sampleContract with
    localResources := [sampleStaging]
    completion := ⟨["tests"], [], false⟩
    revision := 2
    parentAuthoritySha256 := some "sha256:1"
    authoritySha256 := "sha256:2" }

theorem staged_chain_narrows :
    Narrows sampleServices [sampleContract, sampleChild, sampleChild] sampleContract sampleChild ∧
      sampleChild.revision = sampleContract.revision +
          authorityChanges [sampleContract, sampleChild, sampleChild] := by
  have haccepted : validateChildContract sampleServices sampleContract sampleChild = .ok () := by
    decide
  have hinherited : validateChildContract sampleServices sampleChild sampleChild = .ok () := by
    decide
  have hchain : [sampleContract, sampleChild, sampleChild].IsChain fun parent child =>
      validateChildContract sampleServices parent child = .ok () :=
    .cons_cons haccepted (.cons_cons hinherited (.singleton _))
  apply authority_never_grows hchain
  have hcollision : ∀ a ∈ [sampleContract, sampleChild], ∀ b ∈ [sampleContract, sampleChild],
      NoCollision sampleServices a b := by
    simp only [forall_mem_cons, not_mem_nil, false_imp_iff, implies_true, and_true]
    refine ⟨⟨fun _ => rfl, fun h => ?_⟩, fun h => ?_, fun _ => rfl⟩
    · exact absurd h (by decide)
    · exact absurd h (by decide)
  intro a ha b hb
  exact hcollision a (by simpa using ha) b (by simpa using hb)

/-- A contract that is handed on unchanged is accepted and keeps its revision. -/
theorem inherited_contract_keeps_revision :
    ¬∀ (first : MissionContract) (rest : List MissionContract),
      ((first :: rest).IsChain fun parent child =>
        validateChildContract sampleServices parent child = .ok ()) →
      (∀ a ∈ first :: rest, ∀ b ∈ first :: rest, NoCollision sampleServices a b) →
      ((first :: rest).getLast (List.cons_ne_nil _ _)).revision = first.revision + rest.length := by
  intro h
  have haccepted : validateChildContract sampleServices sampleContract sampleContract = .ok () := by
    decide
  have hrevision := h sampleContract [sampleContract] (.cons_cons haccepted (.singleton _)) (by
    intro a ha b hb
    have ha' : a = sampleContract := by simpa using ha
    have hb' : b = sampleContract := by simpa using hb
    rw [ha', hb']
    exact fun _ => rfl)
  exact absurd hrevision (by decide)

end AIpinho.Mission
