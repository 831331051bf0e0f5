import AIpinho.Governance.Lifecycle

/-!
# Facets of a decision

Each part of the system says as a facet what it thinks of an operation, and the worst facet
decides. A facet that asks for a human is satisfied if another says that one has agreed.
-/

namespace AIpinho.Governance

/-- `CanonicalPolicyFacet`, without its details. -/
structure PolicyFacet where
  facet : String
  permission : CanonicalPermission
  source : String
  reasonCode : String
  capability : Option String
  resourceId : Option String
  requiresHumanAuthority : Bool := false
  deriving DecidableEq

/-- A human has allowed the capability, or any. -/
def PolicyFacet.Agrees (capability : Option String) (item : PolicyFacet) : Prop :=
  item.facet = "human_authority" ∧ item.permission = .allowed ∧
    ∀ wanted ∈ capability, ∀ given ∈ item.capability, given = wanted

instance (capability : Option String) (item : PolicyFacet) :
    Decidable (item.Agrees capability) := inferInstanceAs (Decidable (_ ∧ _))

def humanAuthoritySatisfies (facets : List PolicyFacet) (capability : Option String) : Bool :=
  facets.any fun item => item.Agrees capability

def PolicyFacet.isSatisfied (facets : List PolicyFacet) (capability : Option String)
    (item : PolicyFacet) : Bool :=
  item.requiresHumanAuthority &&
    humanAuthoritySatisfies facets ((item.capability.filter (· ≠ "")).or capability)

def unresolvedAsks (facets : List PolicyFacet) (capability : Option String) : List PolicyFacet :=
  facets.filter fun item => item.permission = .ask && !item.isSatisfied facets capability

/-- `CanonicalPolicyService.resolve_facets`. -/
def resolveFacets (requestedActions : List String) (facets : List PolicyFacet)
    (capability : Option String) : PolicyDecision :=
  let actions := requestedActions.eraseDups
  let named (permission : CanonicalPermission) : Bool := facets.any (·.permission = permission)
  if named .invalid then ⟨.denied, [], [], actions, .invalidOperation, false⟩
  else if named .expired then ⟨.denied, [], [], actions, .approvalExpired, false⟩
  else if named .stale then ⟨.denied, [], [], actions, .approvalStale, false⟩
  else if named .denied then ⟨.denied, [], [], actions, .policyDenied, false⟩
  else if named .needsClarification then
    ⟨.needsClarification, [], actions, [], .needsClarification, false⟩
  else if unresolvedAsks facets capability ≠ [] then
    ⟨.ask, [], actions, [], .approvalRequired, true⟩
  else ⟨.allowed, actions, [], [], .none, false⟩

variable {actions : List String} {facets : List PolicyFacet} {capability : Option String}

theorem resolveFacets_allowed_iff :
    (resolveFacets actions facets capability).permission = .allowed ↔
      ∀ item ∈ facets, item.permission = .allowed ∨
        (item.permission = .ask ∧ item.isSatisfied facets capability = true) := by
  unfold resolveFacets
  constructor
  · intro h item hitem
    simp only at h
    split_ifs at h with h1 h2 h3 h4 h5 h6
    simp only [List.any_eq_true, decide_eq_true_eq, not_exists, not_and] at h1 h2 h3 h4 h5
    cases hp : item.permission with
    | allowed => exact .inl rfl
    | ask =>
      refine .inr ⟨rfl, ?_⟩
      rw [not_not, unresolvedAsks, List.filter_eq_nil_iff] at h6
      simpa [hp] using h6 item hitem
    | denied => exact absurd hp (h4 item hitem)
    | needsClarification => exact absurd hp (h5 item hitem)
    | invalid => exact absurd hp (h1 item hitem)
    | expired => exact absurd hp (h2 item hitem)
    | stale => exact absurd hp (h3 item hitem)
  · intro h
    have hnone : ∀ permission : CanonicalPermission, permission ≠ .allowed →
        permission ≠ .ask → facets.any (·.permission = permission) = false := by
      intro permission hallowed hask
      rw [List.any_eq_false]
      intro item hitem
      rcases h item hitem with hp | ⟨hp, _⟩
      · simpa [hp] using hallowed.symm
      · simpa [hp] using hask.symm
    have hasks : unresolvedAsks facets capability = [] := by
      rw [unresolvedAsks, List.filter_eq_nil_iff]
      intro item hitem
      rcases h item hitem with hp | ⟨_, hsatisfied⟩
      · simp [hp]
      · simp [hsatisfied]
    simp [hnone, hasks]

def PolicyFacet.isHard (item : PolicyFacet) : Bool :=
  [.invalid, .expired, .stale, .denied].contains item.permission

theorem resolveFacets_denied_iff : (resolveFacets actions facets capability).permission = .denied ↔
      ∃ item ∈ facets, item.isHard = true := by
  unfold resolveFacets
  constructor
  · intro h
    simp only at h
    split_ifs at h with h1 h2 h3 h4
    all_goals
      obtain ⟨item, hitem, hp⟩ := List.any_eq_true.mp (by assumption)
      exact ⟨item, hitem, by simp_all [PolicyFacet.isHard]⟩
  · rintro ⟨item, hitem, hhard⟩
    have hnamed : facets.any (fun other => other.permission = item.permission) = true :=
      List.any_eq_true.mpr ⟨item, hitem, by simp⟩
    cases hp : item.permission with
    | invalid =>
      rw [hp] at hnamed
      simp only [hnamed, if_true]
    | expired | stale | denied =>
      rw [hp] at hnamed
      simp only [hnamed, if_true]
      split_ifs <;> rfl
    | allowed | ask | needsClarification => simp [PolicyFacet.isHard, hp] at hhard

end AIpinho.Governance
