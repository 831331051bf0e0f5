import AIpinho.Tools.GovernedExecution

/-!
# What is carried out

A command, a directory or a request to the web is carried out only at the end of an execution
that has passed the decision, the check of the command, and the use of a grant.
-/

namespace AIpinho.Tools

open List Lib

def GovernedOp.carriesOut : GovernedOp → Bool
  | .run .. | .openUrl .. | .makeDirectory _ => true
  | .gitRead .. | .useGrant .. => false

abbrev Prepares (o : GovernedOp) : Prop := o.carriesOut = false

def GovernedResult.isRefused (result : GovernedResult) : Bool :=
  result.status = .blocked || result.status = .invalid

namespace GovernedToolExecution

variable {service : GovernedToolExecution} {found refound : GovernedFindings}
  {request : GovernedRequest} {xs : List governedStore.Exchange}
  {r : Except String GovernedResult}

def CarriesOut (xs : List governedStore.Exchange) : Prop := ∃ x ∈ xs, x.1.carriesOut = true

def Refuses (xs : List governedStore.Exchange) (r : Except String GovernedResult) : Prop :=
  ¬CarriesOut xs ∧ ∀ result, r = .ok result → result.isRefused = true

theorem isRefused_resultFromDecision (violations : List String) :
    (resultFromDecision violations).isRefused = true := by
  unfold resultFromDecision GovernedResult.isRefused
  split <;> rfl

variable {violations : List String} {ys zs : List governedStore.Exchange} {tool : GovernedTool}
  {assessment : Assessment}

theorem refuses_of_refusal
    (h : (pure (resultFromDecision violations) : GovernedProgram GovernedResult).Ends xs r) :
    Refuses xs r := by
  obtain ⟨rfl, rfl⟩ := h
  refine ⟨fun ⟨_, hmem, _⟩ => absurd hmem not_mem_nil, fun result hresult => ?_⟩
  cases hresult
  exact isRefused_resultFromDecision violations

theorem refuses_of_raise {e : String}
    (h : (.raise e : GovernedProgram GovernedResult).Ends xs r) : Refuses xs r := by
  obtain ⟨rfl, rfl⟩ := h
  exact ⟨fun ⟨_, hmem, _⟩ => absurd hmem not_mem_nil, nofun⟩

theorem not_carriesOut_of_prepares {α : Type} {p : GovernedProgram α} {q : Except String α}
    (hprepares : p.Issues Prepares) (h : p.Ends xs q) : ¬CarriesOut xs := by
  rintro ⟨x, hmem, hcarries⟩
  have hprepared : x.1.carriesOut = false := hprepares.of_mem h hmem
  rw [hprepared] at hcarries
  cases hcarries

theorem Refuses.after (hys : ¬CarriesOut ys) (hzs : Refuses zs r) : Refuses (ys ++ zs) r := by
  refine ⟨fun ⟨x, hmem, hcarries⟩ => ?_, hzs.2⟩
  rcases mem_append.mp hmem with hmem | hmem
  · exact hys ⟨x, hmem, hcarries⟩
  · exact hzs.1 ⟨x, hmem, hcarries⟩

theorem not_denied_of_allowed {actions : List String} {facets : List Governance.PolicyFacet}
    {capability : Option String}
    (h : (Governance.resolveFacets actions facets capability).permission = .allowed)
    {item : Governance.PolicyFacet} (hitem : item ∈ facets) : item.isHard = false := by
  rcases Governance.resolveFacets_allowed_iff.mp h item hitem with hp | ⟨hp, -⟩
  · simp [Governance.PolicyFacet.isHard, hp]
  · simp [Governance.PolicyFacet.isHard, hp]

/-- What a decision that allows was made of. -/
structure Allows (service : GovernedToolExecution) (found : GovernedFindings)
    (request : GovernedRequest) (observation : Option GitObservation)
    (decision : GovernedDecision) (tool : GovernedTool) (assessment : Assessment) : Prop where
  isTool : service.registry request.toolId = some tool
  isAssessed : service.assess found request tool observation = .ok assessment
  isKept : decision.assessment = some assessment
  permission : (Governance.resolveFacets [tool.action] (service.facets found request assessment)
    (some assessment.capability)).permission = .allowed
  violations : decision.violations = (service.recordedViolations found request assessment).eraseDups

variable {decision : GovernedDecision}

theorem exists_allows {observation : Option GitObservation}
    (h : service.decision found request observation = .ok decision)
    (hallowed : decision.canonical.any (·.permission = .allowed) = true) :
    ∃ tool assessment, Allows service found request observation decision tool assessment := by
  unfold GovernedToolExecution.decision at h
  split at h
  · cases h
    cases hallowed
  · rename_i tool htool
    obtain ⟨assessment, hassess, h⟩ := value_bind_ok_iff.mp h
    have heq := Except.ok.inj h
    subst heq
    have hpermission : (Governance.resolveFacets [tool.action]
        (service.facets found request assessment)
        (some assessment.capability)).permission = .allowed := by simpa using hallowed
    refine ⟨tool, assessment, htool, hassess, rfl, hpermission, ?_⟩
    dsimp only
    rw [if_neg (fun hdenied => ?_)]
    rw [hpermission] at hdenied
    cases hdenied.1

theorem assess_ok {observation : Option GitObservation}
    (h : service.assess found request tool observation = .ok assessment) :
    ∃ shell error grant, service.shellOf request tool = .ok shell ∧
      service.approvalError found request tool = .ok error ∧
      assessment = service.assessmentOf found request tool observation shell error grant := by
  obtain ⟨shell, hshell, h⟩ := value_bind_ok_iff.mp h
  obtain ⟨error, herror, h⟩ := value_bind_ok_iff.mp h
  obtain ⟨grant, -, h⟩ := value_bind_ok_iff.mp h
  exact ⟨shell, error, grant, hshell, herror, (Except.ok.inj h).symm⟩

theorem gitRead_prepares (workspace : String) (argv : List String) :
    (service.gitRead workspace argv).Issues Prepares := by
  refine ⟨rfl, fun answer => ?_⟩
  change Except String GitRead at answer
  cases answer <;> trivial

theorem observeRemote_prepares (workspace remoteName : String) :
    (service.observeRemote workspace remoteName).Issues Prepares := by
  unfold observeRemote
  split
  · trivial
  · exact (gitRead_prepares ..).bind fun _ => trivial

theorem observeBranch_prepares (workspace : String) (git : GitClassification)
    (observation : GitObservation) :
    (service.observeBranch workspace git observation).Issues Prepares := by
  unfold observeBranch
  split
  · exact (gitRead_prepares ..).bind fun _ => trivial
  · trivial

theorem observeGitRuntime_prepares (git : GitClassification) :
    (service.observeGitRuntime request git).Issues Prepares := by
  unfold observeGitRuntime
  dsimp only
  split
  · refine (observeRemote_prepares ..).bind fun observed => ?_
    cases observed with
    | error e => trivial
    | ok locator => exact observeBranch_prepares ..
  · exact observeBranch_prepares ..

theorem consumeMissionAuthority_prepares (assessment : Assessment) :
    (service.consumeMissionAuthority request assessment).Issues Prepares := by
  unfold consumeMissionAuthority
  split
  · trivial
  · refine ⟨rfl, fun answer => ?_⟩
    change Except String (Option String) at answer
    match answer with
    | .error e => trivial
    | .ok none => trivial
    | .ok (some reason) => trivial

theorem postValidate_prepares (assessment : Assessment) (git : GitClassification)
    (result : GovernedResult) :
    (service.postValidate request assessment git result).Issues Prepares := by
  have hheads : ∀ workspace remoteName branch,
      (service.headsAgree workspace remoteName branch).Issues Prepares := fun _ _ _ =>
    (gitRead_prepares ..).bind fun _ => (gitRead_prepares ..).bind fun _ => trivial
  unfold postValidate
  dsimp only
  split
  · exact (hheads ..).bind fun _ => trivial
  · split
    · exact (hheads ..).bind fun _ => trivial
    · split
      · have hclone : (service.cloneAgrees request assessment git).Issues Prepares :=
          (gitRead_prepares ..).bind fun _ => (gitRead_prepares ..).bind fun _ => trivial
        exact hclone.bind fun _ => trivial
      · trivial

/-- What an adapter carries out is what its own checks let pass. -/
def Adapts (service : GovernedToolExecution) (request : GovernedRequest) (tool : GovernedTool) :
    GovernedOp → Prop
  | .run argv cwd _ => tool.runsCommands = true ∧ service.commandArgv request = .ok argv ∧
      service.executableError argv = none ∧ cwd = service.inputText request "workspace"
  | .makeDirectory target => tool.createsDirectories = true ∧
      target = service.directoryTarget request ∧
      service.isWithin target (service.inputText request "workspace") = true
  | .openUrl url method _ => tool.requestsWeb = true ∧
      url = service.inputText request "url" ∧ method = service.webMethod request ∧
      ∃ parts, service.urlparse url = some parts ∧ service.networkError parts method = none
  | .gitRead .. | .useGrant .. => True

theorem executeShell_adapts {timeout : ℤ} (htool : assessment.tool.runsCommands = true) :
    (service.executeShell request assessment violations timeout).Issues
      (service.Adapts request assessment.tool) := by
  have hprepared : ∀ o, Prepares o → service.Adapts request assessment.tool o := by
    intro o ho
    cases o with
    | gitRead | useGrant => trivial
    | run | openUrl | makeDirectory => cases ho
  unfold executeShell
  split
  · trivial
  · rename_i argv hargv
    split
    · trivial
    · rename_i hexecutable
      refine ⟨⟨htool, hargv, hexecutable, rfl⟩, fun outcome => ?_⟩
      dsimp only [Program.bind]
      split
      · split
        · exact (postValidate_prepares ..).mono hprepared
        · trivial
      · trivial

theorem executeCreateDirectory_adapts (htool : tool.createsDirectories = true) :
    (service.executeCreateDirectory request violations).Issues
      (service.Adapts request tool) := by
  unfold executeCreateDirectory
  dsimp only
  split
  · rename_i hwithin
    refine ⟨⟨htool, rfl, hwithin⟩, fun answer => ?_⟩
    change Except String Unit at answer
    cases answer <;> trivial
  · trivial

theorem executeWeb_adapts {timeout : ℤ} (htool : tool.requestsWeb = true) :
    (service.executeWeb request violations timeout).Issues (service.Adapts request tool) := by
  unfold executeWeb
  dsimp only
  split
  · trivial
  · rename_i parts hparts
    split
    · trivial
    · rename_i hnetwork
      refine ⟨⟨htool, rfl, rfl, parts, hparts, hnetwork⟩, fun answer => ?_⟩
      change WebOutcome at answer
      cases answer <;> trivial

theorem adapt_adapts (assessment : Assessment) (violations : List String) :
    (service.adapt request assessment violations).Issues
      (service.Adapts request assessment.tool) := by
  unfold adapt
  cases service.timeoutSeconds request with
  | error e => trivial
  | ok timeout =>
    change (if _ then _ else _ : GovernedProgram GovernedResult).Issues _
    split
    · rename_i htool
      exact executeShell_adapts htool
    · split
      · rename_i htool
        exact executeCreateDirectory_adapts htool
      · split
        · rename_i htool
          exact executeWeb_adapts htool
        · trivial

theorem refusal_eq_none_iff {unanswered : String} : refusal decision unanswered = none ↔
      decision.canonical.any (·.permission = .allowed) = true := by
  unfold refusal isHardBlocked
  cases decision.canonical with
  | none => simp
  | some policy => cases hpermission : policy.permission <;> simp [hpermission]

theorem refuses_of_not_allowed {unanswered : String} {p : GovernedProgram GovernedResult}
    (hallowed : decision.canonical.any (·.permission = .allowed) ≠ true)
    (h : (match refusal decision unanswered with
      | some result => pure result
      | none => p).Ends xs r) : Refuses xs r := by
  cases hrefusal : refusal decision unanswered with
  | none => exact absurd (refusal_eq_none_iff.mp hrefusal) hallowed
  | some result =>
    rw [hrefusal] at h
    unfold refusal at hrefusal
    split at hrefusal
    · cases hrefusal
      exact refuses_of_refusal h
    · split at hrefusal
      · cases hrefusal
        exact refuses_of_refusal h
      · cases hrefusal

theorem executeDecided_atOnce (hallowed : decision.canonical.any (·.permission = .allowed) = true)
    (hgit : observedGit decision = none) :
    service.executeDecided refound request decision = service.proceed request decision := by
  unfold executeDecided
  rw [refusal_eq_none_iff.mpr hallowed, hgit]

theorem executeDecided_observed {git : GitClassification}
    (hallowed : decision.canonical.any (·.permission = .allowed) = true)
    (hgit : observedGit decision = some git) :
    service.executeDecided refound request decision =
      service.observeGitRuntime request git >>= service.executeObserved refound request := by
  unfold executeDecided
  rw [refusal_eq_none_iff.mpr hallowed, hgit]

theorem execute_of_decision (hdecision : service.decision found request none = .ok decision) :
    service.execute found refound request = service.executeDecided refound request decision := by
  unfold execute
  rw [hdecision]
  rfl

theorem executeObserved_of_decision {observation : GitObservation}
    (hdecision : service.decision refound request (some observation) = .ok decision)
    (hallowed : decision.canonical.any (·.permission = .allowed) = true) :
    service.executeObserved refound request observation = service.proceed request decision := by
  unfold executeObserved
  rw [hdecision]
  change (match refusal decision "approval_id_required" with
    | some result => pure result
    | none => service.proceed request decision) = _
  rw [refusal_eq_none_iff.mpr hallowed]

/-- The decision an execution acts on: the first, or the one after the observation. -/
inductive Settles (service : GovernedToolExecution) (found refound : GovernedFindings)
    (request : GovernedRequest) : List governedStore.Exchange → GovernedDecision → Prop
  | atOnce (decision : GovernedDecision) (hdecision : service.decision found request none =
      .ok decision) (hgit : observedGit decision = none) :
      Settles service found refound request [] decision
  | observed (first decision : GovernedDecision) (git : GitClassification)
      (observation : GitObservation) (ys : List governedStore.Exchange)
      (hfirst : service.decision found request none = .ok first)
      (hallowed : first.canonical.any (·.permission = .allowed) = true)
      (hgit : observedGit first = some git)
      (hobserved : (service.observeGitRuntime request git).Ends ys (.ok observation))
      (hdecision : service.decision refound request (some observation) = .ok decision) :
      Settles service found refound request ys decision

/-- An execution refuses, or settles on an allowed decision before it proceeds. -/
theorem execute_cases (h : (service.execute found refound request).Ends xs r) :
    Refuses xs r ∨ ∃ ys zs decision, xs = ys ++ zs ∧ ¬CarriesOut ys ∧
      Settles service found refound request ys decision ∧
      decision.canonical.any (·.permission = .allowed) = true ∧
      (service.proceed request decision).Ends zs r := by
  cases hfirst : service.decision found request none with
  | error e =>
    unfold execute at h
    rw [hfirst] at h
    exact .inl (refuses_of_raise h)
  | ok first =>
    rw [execute_of_decision hfirst] at h
    by_cases hallowed : first.canonical.any (·.permission = .allowed) = true
    · cases hgit : observedGit first with
      | none =>
        rw [executeDecided_atOnce hallowed hgit] at h
        exact .inr ⟨[], xs, first, rfl, fun ⟨_, hmem, _⟩ => absurd hmem not_mem_nil,
          .atOnce first hfirst hgit, hallowed, h⟩
      | some git =>
        rw [executeDecided_observed hallowed hgit] at h
        rcases Program.ends_bind.mp h with ⟨ys, zs, observation, rfl, hys, hzs⟩ | ⟨e, hys, rfl⟩
        · have hprepared : ¬CarriesOut ys :=
            not_carriesOut_of_prepares (observeGitRuntime_prepares git) hys
          cases hdecision : service.decision refound request (some observation) with
          | error e =>
            unfold executeObserved at hzs
            rw [hdecision] at hzs
            exact .inl (.after hprepared (refuses_of_raise hzs))
          | ok decision =>
            by_cases hallows : decision.canonical.any (·.permission = .allowed) = true
            · rw [executeObserved_of_decision hdecision hallows] at hzs
              exact .inr ⟨ys, zs, decision, rfl, hprepared,
                .observed first decision git observation ys hfirst hallowed hgit hys hdecision,
                hallows, hzs⟩
            · unfold executeObserved at hzs
              rw [hdecision] at hzs
              exact .inl (.after hprepared (refuses_of_not_allowed hallows hzs))
        · exact .inl ⟨not_carriesOut_of_prepares (observeGitRuntime_prepares git) hys, nofun⟩
    · unfold executeDecided at h
      exact .inl (refuses_of_not_allowed hallowed h)

/-- What an execution that carries something out has passed. -/
structure Carried (service : GovernedToolExecution) (found refound : GovernedFindings)
    (request : GovernedRequest) (xs : List governedStore.Exchange) (o : GovernedOp)
    (decision : GovernedDecision) (assessment : Assessment) : Prop where
  isSettled : ∃ ys, Settles service found refound request ys decision ∧ ys ⊆ xs
  isAssessed : decision.assessment = some assessment
  isAllowed : decision.canonical.any (·.permission = .allowed) = true
  isChecked : assessment.tool.runsCommands = true → service.preflightError request = none
  /-- A grant that stands for the human was used. -/
  isUsed : usesMissionAuthority request assessment = true →
    ∃ ys, (service.consumeMissionAuthority request assessment).Ends ys (.ok none) ∧ ys ⊆ xs
  isAdapted : service.Adapts request assessment.tool o

variable {x : governedStore.Exchange}

/-- Once the command is one that may be run, the grant is used and the adapter works. -/
theorem carryOut_of_checked
    (hchecked : assessment.tool.runsCommands = true → service.preflightError request = none) :
    service.carryOut request decision assessment = (if usesMissionAuthority request assessment then
        service.consumeMissionAuthority request assessment else pure none) >>= fun refused =>
      refused.elim (service.adapt request assessment decision.violations) fun reason =>
        pure (resultFromDecision (decision.violations ++ [reason])) := by
  have hnone : (if assessment.tool.runsCommands then service.preflightError request else none) =
      none := by
    split
    · rename_i hruns
      exact hchecked hruns
    · rfl
  unfold carryOut
  rw [hnone]
  dsimp only
  split <;>
  · apply congrArg (Bind.bind _)
    funext refused
    cases refused <;> rfl

theorem uses_prepares (assessment : Assessment) : (if usesMissionAuthority request assessment then
      service.consumeMissionAuthority request assessment else pure none).Issues Prepares := by
  split
  · exact consumeMissionAuthority_prepares assessment
  · trivial

theorem mem_adapt_of_carryOut (h : (service.carryOut request decision assessment).Ends xs r)
    (hmem : x ∈ xs) (hcarries : x.1.carriesOut = true) :
    (assessment.tool.runsCommands = true → service.preflightError request = none) ∧
      (usesMissionAuthority request assessment = true → ∃ ys,
        (service.consumeMissionAuthority request assessment).Ends ys (.ok none) ∧ ys ⊆ xs) ∧
      service.Adapts request assessment.tool x.1 := by
  have hx : ¬Prepares x.1 := by simp [Prepares, hcarries]
  have hchecked : assessment.tool.runsCommands = true → service.preflightError request = none := by
    intro hruns
    unfold carryOut at h
    rw [if_pos hruns] at h
    split at h
    · obtain ⟨rfl, -⟩ := h
      exact absurd hmem not_mem_nil
    · assumption
  rw [carryOut_of_checked hchecked] at h
  obtain ⟨ys, zs, refused, rfl, hys, hzs, hmem⟩ := (uses_prepares assessment).mem_of_bind hx h hmem
  cases refused with
  | some reason =>
    obtain ⟨rfl, -⟩ := hzs
    exact absurd hmem not_mem_nil
  | none =>
    refine ⟨hchecked, fun huses => ?_, ?_⟩
    · exact ⟨ys, by rwa [if_pos huses] at hys, subset_append_left ..⟩
    · exact (adapt_adapts assessment decision.violations).of_mem hzs hmem

theorem carried_of_proceed (hsettles : Settles service found refound request ys decision)
    (hallowed : decision.canonical.any (·.permission = .allowed) = true)
    (h : (service.proceed request decision).Ends zs r) (hmem : x ∈ zs)
    (hcarries : x.1.carriesOut = true) :
    ∃ assessment, Carried service found refound request (ys ++ zs) x.1 decision assessment := by
  unfold proceed at h
  split at h
  · obtain ⟨rfl, -⟩ := h
    exact absurd hmem not_mem_nil
  · rename_i assessment hassessment
    obtain ⟨hchecked, hused, hadapted⟩ := mem_adapt_of_carryOut h hmem hcarries
    refine ⟨assessment, ⟨ys, hsettles, subset_append_left ..⟩, hassessment, hallowed,
      hchecked, fun huses => ?_, hadapted⟩
    obtain ⟨us, hus, hsub⟩ := hused huses
    exact ⟨us, hus, fun _ hu => mem_append_right _ (hsub hu)⟩

theorem carried_of_mem (h : (service.execute found refound request).Ends xs r) (hmem : x ∈ xs)
    (hcarries : x.1.carriesOut = true) :
    ∃ decision assessment, Carried service found refound request xs x.1 decision assessment := by
  rcases execute_cases h with hrefuses | ⟨ys, zs, decision, rfl, hys, hsettles, hallowed, hzs⟩
  · exact absurd ⟨x, hmem, hcarries⟩ hrefuses.1
  · have hlate : x ∈ zs := by
      rcases mem_append.mp hmem with hearly | hlate
      · exact absurd ⟨x, hearly, hcarries⟩ hys
      · exact hlate
    obtain ⟨assessment, hcarried⟩ := carried_of_proceed hsettles hallowed hzs hlate hcarries
    exact ⟨decision, assessment, hcarried⟩

theorem ends_of_settles {ys zs : List governedStore.Exchange}
    (h : (service.execute found refound request).Ends (ys ++ zs) r)
    (hsettles : Settles service found refound request ys decision) :
    Refuses (ys ++ zs) r ∧ decision.canonical.any (·.permission = .allowed) ≠ true ∨
      decision.canonical.any (·.permission = .allowed) = true ∧
        (service.proceed request decision).Ends zs r := by
  cases hsettles with
  | atOnce decision hdecision hgit =>
    rw [execute_of_decision hdecision] at h
    by_cases hallowed : decision.canonical.any (·.permission = .allowed) = true
    · rw [executeDecided_atOnce hallowed hgit] at h
      exact .inr ⟨hallowed, h⟩
    · unfold executeDecided at h
      exact .inl ⟨refuses_of_not_allowed hallowed h, hallowed⟩
  | observed first decision git observation ys hfirst hallowed hgit hobserved hdecision =>
    rw [execute_of_decision hfirst, executeDecided_observed hallowed hgit] at h
    have hzs : (service.executeObserved refound request observation).Ends zs r :=
      Program.ends_of_ends_bind hobserved h
    by_cases hallows : decision.canonical.any (·.permission = .allowed) = true
    · rw [executeObserved_of_decision hdecision hallows] at hzs
      exact .inr ⟨hallows, hzs⟩
    · unfold executeObserved at hzs
      rw [hdecision] at hzs
      have hprepared : ¬CarriesOut ys :=
        not_carriesOut_of_prepares (observeGitRuntime_prepares git) hobserved
      exact .inl ⟨.after hprepared (refuses_of_not_allowed hallows hzs), hallows⟩

def Decides (service : GovernedToolExecution) (found refound : GovernedFindings)
    (request : GovernedRequest) (xs : List governedStore.Exchange)
    (decision : GovernedDecision) : Prop :=
  service.decision found request none = .ok decision ∨
    ∃ ys zs, xs = ys ++ zs ∧ Settles service found refound request ys decision

theorem exists_decision_of_carries (h : (service.execute found refound request).Ends xs r)
    (hcarries : CarriesOut xs) :
    ∃ decision, service.decision found request none = .ok decision := by
  cases hdecision : service.decision found request none with
  | ok decision => exact ⟨decision, rfl⟩
  | error e =>
    unfold execute at h
    rw [hdecision] at h
    exact absurd hcarries (refuses_of_raise h).1

theorem allowed_of_decides (h : (service.execute found refound request).Ends xs r)
    (hcarries : CarriesOut xs) (hdecides : Decides service found refound request xs decision) :
    decision.canonical.any (·.permission = .allowed) = true := by
  rcases hdecides with hfirst | ⟨ys, zs, rfl, hsettles⟩
  · by_contra hallowed
    rw [execute_of_decision hfirst] at h
    unfold executeDecided at h
    exact (refuses_of_not_allowed hallowed h).1 hcarries
  · rcases ends_of_settles h hsettles with ⟨hrefuses, -⟩ | ⟨hallowed, -⟩
    · exact absurd hcarries hrefuses.1
    · exact hallowed

end GovernedToolExecution

end AIpinho.Tools
