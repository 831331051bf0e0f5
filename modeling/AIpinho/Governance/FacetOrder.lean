import AIpinho.Governance.Facets
import Mathlib.Data.List.Perm.Basic

/-!
# The order of facets

The decision is the greatest permission that no facet is below. So the order of the facets does
not matter, and a facet that is added takes permission away, unless it says that a human has
agreed.
-/

namespace AIpinho.Governance

/-- The stricter permission has the higher rank. -/
def CanonicalPermission.rank : CanonicalPermission → ℕ
  | .invalid | .expired | .stale | .denied => 0
  | .needsClarification => 1
  | .ask => 2
  | .allowed => 3

/-- How much a facet permits among others: where a human has agreed, it does not ask. -/
def PolicyFacet.rank (facets : List PolicyFacet) (capability : Option String)
    (item : PolicyFacet) : ℕ :=
  if item.permission = .ask ∧ item.isSatisfied facets capability = true then
    CanonicalPermission.allowed.rank
  else item.permission.rank

variable {actions : List String} {facets others : List PolicyFacet} {capability : Option String}
  {item : PolicyFacet}

theorem resolveFacets_cases (actions : List String) (facets : List PolicyFacet)
    (capability : Option String) :
    ((resolveFacets actions facets capability).permission = .denied ∧
      ∃ item ∈ facets, item.isHard = true) ∨
    ((resolveFacets actions facets capability).permission = .needsClarification ∧
      (∀ item ∈ facets, item.isHard = false) ∧
      ∃ item ∈ facets, item.permission = .needsClarification) ∨
    ((resolveFacets actions facets capability).permission = .ask ∧
      (∀ item ∈ facets, item.isHard = false ∧ item.permission ≠ .needsClarification) ∧
      ∃ item ∈ facets, item.permission = .ask ∧ item.isSatisfied facets capability = false) ∨
    (resolveFacets actions facets capability).permission = .allowed := by
  by_cases hdenied : (resolveFacets actions facets capability).permission = .denied
  · exact .inl ⟨hdenied, resolveFacets_denied_iff.mp hdenied⟩
  have hsoft : ∀ item ∈ facets, item.isHard = false := by
    intro item hitem
    by_contra hhard
    exact hdenied (resolveFacets_denied_iff.mpr ⟨item, hitem, by simpa using hhard⟩)
  unfold resolveFacets at hdenied ⊢
  dsimp only at hdenied ⊢
  split_ifs at hdenied ⊢ with h1 h2 h3 h4 hclarification hasks
  · exact absurd rfl hdenied
  · exact absurd rfl hdenied
  · exact absurd rfl hdenied
  · exact absurd rfl hdenied
  · obtain ⟨item, hitem, hpermission⟩ := List.any_eq_true.mp hclarification
    exact .inr (.inl ⟨rfl, hsoft, item, hitem, of_decide_eq_true hpermission⟩)
  · refine .inr (.inr (.inl ⟨rfl, fun item hitem => ⟨hsoft item hitem, fun hpermission => ?_⟩, ?_⟩))
    · exact hclarification (List.any_eq_true.mpr ⟨item, hitem, by simp [hpermission]⟩)
    · obtain ⟨item, hmem⟩ := List.exists_mem_of_ne_nil _ hasks
      obtain ⟨hitem, hopen⟩ := List.mem_filter.mp hmem
      exact ⟨item, hitem, by simpa using hopen⟩
  · exact .inr (.inr (.inr rfl))

theorem permission_eq_of_rank_eq
    (h : (resolveFacets actions facets capability).permission.rank =
      (resolveFacets actions others capability).permission.rank) :
    (resolveFacets actions facets capability).permission =
      (resolveFacets actions others capability).permission := by
  rcases resolveFacets_cases actions facets capability with ⟨hp, -⟩ | ⟨hp, -⟩ | ⟨hp, -⟩ | hp <;>
  rcases resolveFacets_cases actions others capability with ⟨hq, -⟩ | ⟨hq, -⟩ | ⟨hq, -⟩ | hq <;>
  simp_all [CanonicalPermission.rank]

theorem rank_of_hard (hhard : item.isHard = true) : item.rank facets capability = 0 := by
  unfold PolicyFacet.rank
  cases hpermission : item.permission with
  | invalid | expired | stale | denied => simp [CanonicalPermission.rank]
  | allowed | ask | needsClarification => simp [PolicyFacet.isHard, hpermission] at hhard

theorem rank_of_soft (hsoft : item.isHard = false) :
    CanonicalPermission.needsClarification.rank ≤ item.rank facets capability ∧
      (item.permission ≠ .needsClarification →
        CanonicalPermission.ask.rank ≤ item.rank facets capability) := by
  unfold PolicyFacet.rank
  split
  · exact ⟨by decide, fun _ => by decide⟩
  · cases hpermission : item.permission with
    | invalid | expired | stale | denied => simp [PolicyFacet.isHard, hpermission] at hsoft
    | allowed | ask | needsClarification => simp [CanonicalPermission.rank]

theorem rank_resolveFacets_le (hitem : item ∈ facets) :
    (resolveFacets actions facets capability).permission.rank ≤ item.rank facets capability := by
  rcases resolveFacets_cases actions facets capability with
    ⟨hp, -⟩ | ⟨hp, hsoft, -⟩ | ⟨hp, hsoft, -⟩ | hp
  · rw [hp]
    exact Nat.zero_le _
  · rw [hp]
    exact (rank_of_soft (hsoft item hitem)).1
  · rw [hp]
    exact (rank_of_soft (hsoft item hitem).1).2 (hsoft item hitem).2
  · rw [hp, PolicyFacet.rank]
    rcases resolveFacets_allowed_iff.mp hp item hitem with hpermission | hsatisfied
    · rw [if_neg (by simp [hpermission]), hpermission]
    · rw [if_pos hsatisfied]

theorem le_rank_resolveFacets {n : ℕ} (hn : n ≤ CanonicalPermission.allowed.rank)
    (h : ∀ item ∈ facets, n ≤ item.rank facets capability) :
    n ≤ (resolveFacets actions facets capability).permission.rank := by
  rcases resolveFacets_cases actions facets capability with ⟨hp, item, hitem, hhard⟩ |
    ⟨hp, -, item, hitem, hasks⟩ | ⟨hp, -, item, hitem, hasks, hopen⟩ | hp
  · have hbelow := h item hitem
    rw [rank_of_hard hhard] at hbelow
    omega
  · have hbelow := h item hitem
    rw [PolicyFacet.rank, if_neg (by simp [hasks]), hasks] at hbelow
    rw [hp]
    exact hbelow
  · have hbelow := h item hitem
    rw [PolicyFacet.rank, if_neg (by simp [hopen]), hasks] at hbelow
    rw [hp]
    exact hbelow
  · rw [hp]
    exact hn

theorem rank_congr (h : ∀ wanted, humanAuthoritySatisfies facets wanted =
    humanAuthoritySatisfies others wanted) :
    item.rank facets capability = item.rank others capability := by
  unfold PolicyFacet.rank PolicyFacet.isSatisfied
  rw [h]

theorem rank_resolveFacets_anti (hsub : facets ⊆ others)
    (h : ∀ wanted, humanAuthoritySatisfies facets wanted = humanAuthoritySatisfies others wanted) :
    (resolveFacets actions others capability).permission.rank ≤
      (resolveFacets actions facets capability).permission.rank := by
  refine le_rank_resolveFacets ?_ fun item hitem => ?_
  · cases (resolveFacets actions others capability).permission <;> decide
  · rw [rank_congr h]
    exact rank_resolveFacets_le (hsub hitem)

theorem permission_of_perm (h : facets.Perm others) :
    (resolveFacets actions facets capability).permission =
      (resolveFacets actions others capability).permission := by
  have hagree : ∀ wanted, humanAuthoritySatisfies facets wanted =
      humanAuthoritySatisfies others wanted := fun wanted => h.any_eq
  refine permission_eq_of_rank_eq (le_antisymm ?_ ?_)
  · exact rank_resolveFacets_anti h.symm.subset fun wanted => (hagree wanted).symm
  · exact rank_resolveFacets_anti h.subset hagree

theorem humanAuthoritySatisfies_insert {before after : List PolicyFacet}
    (hitem : item.facet ≠ "human_authority") (wanted : Option String) :
    humanAuthoritySatisfies (before ++ after) wanted =
      humanAuthoritySatisfies (before ++ item :: after) wanted := by
  have hnot : ¬item.Agrees wanted := fun hagrees => hitem hagrees.1
  simp [humanAuthoritySatisfies, hnot]

/-- Facets combine as a meet. -/
theorem facets_combine_as_meet (actions : List String) (facets : List PolicyFacet)
    (capability : Option String) :
    (∀ others, facets.Perm others → (resolveFacets actions others capability).permission =
        (resolveFacets actions facets capability).permission) ∧
    ((∃ item ∈ facets, item.permission ∈ [.invalid, .expired, .stale, .denied]) →
      (resolveFacets actions facets capability).permission = .denied) ∧
    (∀ before after item, facets = before ++ after → item.facet ≠ "human_authority" →
      (resolveFacets actions (before ++ item :: after) capability).permission.rank ≤
        (resolveFacets actions facets capability).permission.rank) ∧
    ((resolveFacets actions facets capability).permission = .allowed →
      ∀ item ∈ facets, item.permission = .ask → item.requiresHumanAuthority = true ∧
        ∃ authority ∈ facets, authority.facet = "human_authority" ∧
          authority.permission = .allowed ∧
          ∀ wanted, (item.capability.filter (· ≠ "")).or capability = some wanted →
            authority.capability = none ∨ authority.capability = some wanted) := by
  refine ⟨fun others h => (permission_of_perm h).symm, ?_, ?_, ?_⟩
  · rintro ⟨item, hitem, hpermission⟩
    refine resolveFacets_denied_iff.mpr ⟨item, hitem, ?_⟩
    unfold PolicyFacet.isHard
    simpa using hpermission
  · rintro before after item rfl hitem
    refine rank_resolveFacets_anti ?_ (humanAuthoritySatisfies_insert hitem)
    intro other hother
    rcases List.mem_append.mp hother with hbefore | hafter
    · exact List.mem_append_left _ hbefore
    · exact List.mem_append_right _ (List.mem_cons_of_mem _ hafter)
  · intro hallowed item hitem hasks
    rcases resolveFacets_allowed_iff.mp hallowed item hitem with hpermission | ⟨-, hsatisfied⟩
    · rw [hasks] at hpermission
      cases hpermission
    · obtain ⟨hrequires, hauthority⟩ := Bool.and_eq_true_iff.mp hsatisfied
      obtain ⟨authority, hmem, hagrees⟩ := List.any_eq_true.mp hauthority
      obtain ⟨hname, hpermission, hcapability⟩ := of_decide_eq_true hagrees
      refine ⟨hrequires, authority, hmem, hname, hpermission, fun wanted hwanted => ?_⟩
      cases hgiven : authority.capability with
      | none => exact .inl rfl
      | some given => exact .inr (congrArg some (hcapability wanted hwanted given hgiven))

end AIpinho.Governance
