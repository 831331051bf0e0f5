import AIpinho.Lib.Listing
import AIpinho.Tools.RemoteScopes

/-!
# The order of remote resources

The gate of remote repositories looks at all resources of the repository for a denial, but at
the first one alone for the operation and the branch. So their order can matter.
-/

namespace AIpinho.Tools.RemoteScopes

open List Lib Option
open AIpinho.Mission (MissionResourceScope)
open AIpinho.Grants (given)

section Order

variable {scopes : RemoteScopes} {resources : List MissionResourceScope} {locator : String}
  {branch observed : Option String} {operation : String} {reobserved : Bool}
  {requested : RepositoryIdentity}

def resourceStatus (scopes : RemoteScopes) (requested : RepositoryIdentity)
    (branch : Option String) (operation : String) (observed : Option String) (reobserved : Bool)
    (allowed : MissionResourceScope) : ScopeStatus :=
  (((resourceReason allowed branch operation).or
    (scopes.observedReason requested operation observed reobserved)).map Prod.fst).getD .allowed

def RefusesRequest (scopes : RemoteScopes) (locator : String) : Prop :=
  ∀ requested, scopes.normalize locator = some requested →
    (scopes.globalDenialReason requested).isSome = true

def DeniesRepository (resources : List MissionResourceScope) (requested : RepositoryIdentity) :
    Prop :=
  ∃ resource ∈ matching resources requested, isDenied resource = true

def Disagree (scopes : RemoteScopes) (resources : List MissionResourceScope) (locator : String)
    (branch : Option String) (operation : String) (observed : Option String)
    (reobserved : Bool) : Prop :=
  ∃ requested, scopes.normalize locator = some requested ∧
    scopes.globalDenialReason requested = none ∧ ¬DeniesRepository resources requested ∧
      ∃ a ∈ matching resources requested, ∃ b ∈ matching resources requested,
        resourceStatus scopes requested branch operation observed reobserved a ≠
          resourceStatus scopes requested branch operation observed reobserved b

theorem status_of_refuses (h : scopes.RefusesRequest locator) :
    (scopes.decide resources locator branch operation observed reobserved).status = .denied := by
  unfold decide
  cases hlocator : scopes.normalize locator with
  | none => rfl
  | some requested =>
    obtain ⟨reason, hreason⟩ := isSome_iff_exists.mp (h requested hlocator)
    simp only [hreason]

theorem exists_requested (h : ¬scopes.RefusesRequest locator) :
    ∃ requested, scopes.normalize locator = some requested ∧
      scopes.globalDenialReason requested = none := by
  obtain ⟨requested, hlocator, hglobal⟩ := not_forall₂.mp h
  rw [Bool.not_eq_true, isSome_eq_false_iff, isNone_iff_eq_none] at hglobal
  exact ⟨requested, hlocator, hglobal⟩

theorem deniesRepository_perm {resources' : List MissionResourceScope}
    (h : resources'.Perm resources) :
    DeniesRepository resources' requested ↔ DeniesRepository resources requested :=
  exists_congr fun _ => and_congr_left fun _ => (h.filter _).mem_iff

section Accepted

variable (hlocator : scopes.normalize locator = some requested)
  (hglobal : scopes.globalDenialReason requested = none)
include hlocator hglobal

theorem status_of_denies (h : DeniesRepository resources requested) :
    (scopes.decide resources locator branch operation observed reobserved).status = .denied := by
  obtain ⟨resource, hresource, hdenied⟩ := h
  have hfound : ((matching resources requested).find? isDenied).isSome = true :=
    find?_isSome.mpr ⟨resource, hresource, hdenied⟩
  obtain ⟨found, hfound⟩ := isSome_iff_exists.mp hfound
  unfold decide
  simp only [hlocator, hglobal, hfound]

theorem status_of_not_denies (h : ¬DeniesRepository resources requested) :
    (scopes.decide resources locator branch operation observed reobserved).status =
      (((matching resources requested).head?).map
        (resourceStatus scopes requested branch operation observed reobserved)).getD .denied := by
  have hnone : (matching resources requested).find? isDenied = none :=
    find?_eq_none.mpr fun resource hresource hdenied => h ⟨resource, hresource, hdenied⟩
  have hfirst : (matching resources requested).find? (·.role ≠ some "remote_denied") =
      (matching resources requested).head? := by
    cases hmatching : matching resources requested with
    | nil => rfl
    | cons first rest =>
      refine find?_cons_of_pos (decide_eq_true fun hrole => h ⟨first, ?_, ?_⟩)
      · rw [hmatching]
        exact mem_cons_self
      · rw [isDenied, hrole]
        rfl
  unfold decide resourceStatus
  simp only [hlocator, hglobal, hnone, hfirst]
  cases (matching resources requested).head? with
  | none => rfl
  | some allowed =>
    dsimp only [map_some, getD_some]
    cases (resourceReason allowed branch operation).or
      (scopes.observedReason requested operation observed reobserved) <;> rfl

end Accepted

/-- The status is the same for every order exactly if the resources do not disagree. -/
theorem status_perm_iff : (∀ resources', resources'.Perm resources →
      (scopes.decide resources' locator branch operation observed reobserved).status =
        (scopes.decide resources locator branch operation observed reobserved).status) ↔
      ¬scopes.Disagree resources locator branch operation observed reobserved := by
  constructor
  · rintro hsame ⟨requested, hlocator, hglobal, hnot, a, ha, b, hb, hne⟩
    have hfirst : ∀ a ∈ matching resources requested, ∃ resources' : List MissionResourceScope,
        resources'.Perm resources ∧ (matching resources' requested).head? = some a := by
      intro a ha
      obtain ⟨hmem, hmatches⟩ := mem_filter.mp ha
      obtain ⟨s, t, rfl⟩ := append_of_mem hmem
      have hcons : matching (a :: (s ++ t)) requested = a :: matching (s ++ t) requested :=
        filter_cons_of_pos hmatches
      exact ⟨a :: (s ++ t), perm_middle.symm, congrArg List.head? hcons⟩
    have hstatus : ∀ a ∈ matching resources requested,
        resourceStatus scopes requested branch operation observed reobserved a =
          (scopes.decide resources locator branch operation observed reobserved).status := by
      intro a ha
      obtain ⟨resources', hperm, hhead⟩ := hfirst a ha
      rw [← hsame resources' hperm, status_of_not_denies hlocator hglobal
        (mt (deniesRepository_perm hperm).mp hnot), hhead]
      rfl
    exact hne ((hstatus a ha).trans (hstatus b hb).symm)
  · intro hagree resources' hperm
    by_cases hrefuses : scopes.RefusesRequest locator
    · rw [status_of_refuses hrefuses, status_of_refuses hrefuses]
    · obtain ⟨requested, hlocator, hglobal⟩ := exists_requested hrefuses
      by_cases hdenies : DeniesRepository resources requested
      · rw [status_of_denies hlocator hglobal hdenies, status_of_denies hlocator hglobal
          ((deniesRepository_perm hperm).mpr hdenies)]
      · rw [status_of_not_denies hlocator hglobal hdenies, status_of_not_denies hlocator hglobal
          (mt (deniesRepository_perm hperm).mp hdenies)]
        have hmatching : (matching resources' requested).Perm (matching resources requested) :=
          hperm.filter _
        cases hfirst : (matching resources requested).head? with
        | none =>
          rw [head?_eq_none_iff] at hfirst
          rw [hfirst] at hmatching
          rw [hmatching.eq_nil]
          rfl
        | some a =>
          have ha := mem_of_mem_head? hfirst
          cases hfirst' : (matching resources' requested).head? with
          | none =>
            rw [head?_eq_none_iff.mp hfirst'] at hmatching
            rw [hmatching.symm.eq_nil] at ha
            cases ha
          | some b =>
            have hb := hmatching.subset (mem_of_mem_head? hfirst')
            by_contra hne
            exact hagree ⟨requested, hlocator, hglobal, hdenies, b, hb, a, ha, hne⟩

/-- What holds of the decisions about a list of resources. -/
structure DecidesInOrder (scopes : RemoteScopes) (resources : List MissionResourceScope)
    (locator : String) (branch : Option String) (operation : String) (observed : Option String)
    (reobserved : Bool) : Prop where
  order : (∀ resources', resources'.Perm resources →
      (scopes.decide resources' locator branch operation observed reobserved).status =
        (scopes.decide resources locator branch operation observed reobserved).status) ↔
    ¬scopes.Disagree resources locator branch operation observed reobserved
  denial : ∀ requested, scopes.normalize locator = some requested →
    DeniesRepository resources requested →
      (scopes.decide resources locator branch operation observed reobserved).status = .denied
  single : (scopes.decide resources locator branch operation observed reobserved).status =
      .allowed →
    ∃ requested, scopes.normalize locator = some requested ∧
      ∃ resource ∈ matching resources requested, resource.permissions.contains operation = true ∧
        ∃ name, branch = some name ∧ resource.allowedBranches.contains name = true

/-- The order of the resources matters only where two of them disagree; a denial wins, and what
is allowed is allowed by one resource. -/
theorem decidesInOrder (scopes : RemoteScopes) (resources : List MissionResourceScope)
    (locator : String) (branch : Option String) (operation : String) (observed : Option String)
    (reobserved : Bool) :
    scopes.DecidesInOrder resources locator branch operation observed reobserved where
  order := status_perm_iff
  denial := by
    intro requested hlocator hdenies
    cases hglobal : scopes.globalDenialReason requested with
    | none => exact status_of_denies hlocator hglobal hdenies
    | some reason =>
      refine status_of_refuses fun requested' hlocator' => ?_
      rw [hlocator] at hlocator'
      cases hlocator'
      rw [hglobal]
      rfl
  single := by
    intro hallowed
    by_cases hrefuses : scopes.RefusesRequest locator
    · rw [status_of_refuses hrefuses] at hallowed
      cases hallowed
    obtain ⟨requested, hlocator, hglobal⟩ := exists_requested hrefuses
    by_cases hdenies : DeniesRepository resources requested
    · rw [status_of_denies hlocator hglobal hdenies] at hallowed
      cases hallowed
    rw [status_of_not_denies hlocator hglobal hdenies] at hallowed
    cases hfirst : (matching resources requested).head? with
    | none =>
      rw [hfirst] at hallowed
      cases hallowed
    | some allowed =>
      rw [hfirst, map_some, getD_some, resourceStatus] at hallowed
      refine ⟨requested, hlocator, allowed, mem_of_mem_head? hfirst, ?_⟩
      cases hreason : resourceReason allowed branch operation with
      | none => exact resourceReason_none hreason
      | some verdict =>
        rw [hreason] at hallowed
        exact absurd hallowed (status_of_resourceReason hreason)

end Order

def oneRepository : RemoteScopes :=
  ⟨fun _ => some ⟨"host/project", "host", "https", false⟩, id, [], []⟩

/-- A resource of the repository for one operation on its branch `main`. -/
def forOperation (operation : String) : MissionResourceScope where
  resourceId := operation
  resourceType := .remoteRepository
  role := some "remote_allowed"
  locator := some "https://host/project.git"
  provider := none
  normalizedIdentity := some "host/project"
  allowedBranches := ["main"]
  permissions := [operation]
  constraints := []
  derivedFrom := none
  provenanceRefs := []
  metadata := .obj []

/-- The second resource, which allows the operation, is not looked at. -/
theorem first_resource_decides : [forOperation "git_commit", forOperation "git_fetch"].Perm
      [forOperation "git_fetch", forOperation "git_commit"] ∧
    (oneRepository.decide [forOperation "git_fetch", forOperation "git_commit"] "host/project"
      (some "main") "git_fetch" none true).status = .allowed ∧
    (oneRepository.decide [forOperation "git_commit", forOperation "git_fetch"] "host/project"
      (some "main") "git_fetch" none true).status = .denied :=
  ⟨List.Perm.swap _ _ _, by decide +kernel, by decide +kernel⟩

end AIpinho.Tools.RemoteScopes
