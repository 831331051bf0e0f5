import AIpinho.Tools.CommandAgreement
import AIpinho.Tools.GitObservation

/-!
# What the authority for a command of Git covers

The scope of a remote repository and the grant are decided for one remote and one branch. A
command works on nothing else exactly if it selects no other repository, names the remote that
was observed, and pushes only the branch of the scope.
-/

namespace AIpinho.Tools

open List Lib
open AIpinho.Grants (GrantQuery given)
open AIpinho.Mission (MissionContract MissionResourceScope)

namespace GovernedToolExecution

variable {service : GovernedToolExecution} {found refound : GovernedFindings}
  {request : GovernedRequest} {git : GitClassification} {observation : GitObservation}
  {tool : GovernedTool} {assessment : Assessment} {scope : ScopeDecision} {locator : String}

def onlyBranch (taskRun : Option GovernedTaskRun) (git : GitClassification) : Option String :=
  let resources := ((taskRun.bind (·.missionContract)).map (·.remoteResources)).getD []
  let candidates := resources.filter fun item =>
    item.role ≠ some "remote_denied" && item.permissions.contains git.operation
  match candidates with
  | [resource] =>
    match resource.allowedBranches with
    | [only] => some only
    | _ => none
  | _ => none

/-- The branch that a scope is decided for: the one that is checked out, where the operation
works on it, and otherwise the one that is named. -/
def branchInScope (service : GovernedToolExecution) (request : GovernedRequest)
    (taskRun : Option GovernedTaskRun) (git : GitClassification)
    (observation : GitObservation) : Option String :=
  if branchOperations.contains git.operation then observation.currentBranch
  else
    let named := (given (some (service.commands.strip
      (service.inputText request "branch")))).or git.branch
    (given named).or ((onlyBranch taskRun git).or named)

theorem scope_of_allowed
    (hallowed : (Governance.resolveFacets [tool.action] (service.facets found request assessment)
      (some assessment.capability)).permission = .allowed)
    (hgit : remoteGit assessment.shell = some git) :
    given (assessment.observation.bind (·.error)) = none ∧
      ∃ scope, assessment.gitScope = some scope ∧ scope.status = .allowed := by
  have hfacets : ∀ item ∈ assessment.remoteFacets, item.permission = .allowed ∨
      item.permission = .ask := by
    intro item hitem
    have hmem : item ∈ service.facets found request assessment := by simp [facets, hitem]
    exact (Governance.resolveFacets_allowed_iff.mp hallowed item hmem).imp id And.left
  unfold Assessment.remoteFacets at hfacets
  rw [hgit] at hfacets
  cases herror : given (assessment.observation.bind (·.error)) with
  | some error => simp [herror] at hfacets
  | none =>
    cases hscope : assessment.gitScope with
    | none => simp [herror, hscope] at hfacets
    | some scope =>
      refine ⟨rfl, scope, rfl, ?_⟩
      cases hstatus : scope.status with
      | allowed => rfl
      | denied | needsClarification => simp [herror, hscope, hstatus] at hfacets

theorem exists_decide {taskRun : Option GovernedTaskRun}
    (hscope : service.gitScopeDecision request taskRun git (some observation) = some scope)
    (hbranch : branchOperations.contains git.operation = true →
      ∃ branch, observation.currentBranch = some branch ∧ branch ≠ "") :
    ∃ resources named, scope = service.remoteScopes.decide resources named
      (service.branchInScope request taskRun git observation) git.operation
      observation.remoteLocator true := by
  unfold gitScopeDecision at hscope
  cases hcontract : taskRun.bind (·.missionContract) with
  | none =>
    rw [hcontract] at hscope
    cases hscope
  | some contract =>
    rw [hcontract] at hscope
    dsimp only at hscope
    split at hscope
    · cases hscope
    · rename_i named hnamed
      refine ⟨contract.remoteResources, named, ?_⟩
      rw [← Option.some.inj hscope]
      unfold branchInScope onlyBranch
      rw [hcontract]
      dsimp only [Option.map_some, Option.getD_some, Option.bind_some]
      congr 1
      by_cases hgit : branchOperations.contains git.operation = true
      · obtain ⟨branch, hcurrent, hne⟩ := hbranch hgit
        have hgiven : given (some branch) = some branch := by simp [given, hne]
        rw [if_pos hgit, if_pos hgit, hcurrent, hgiven, Option.some_or, hgiven, Option.some_or]
      · rw [if_neg hgit, if_neg hgit]
        congr 1
        -- The resources for the operation are none, one, or more.
        rcases contract.remoteResources.filter _ with _ | ⟨resource, _ | _⟩
        · rfl
        · dsimp only
          rcases resource.allowedBranches with _ | ⟨only, _ | _⟩ <;> rfl
        · rfl

theorem scope_of_observed {taskRun : Option GovernedTaskRun}
    (hscope : service.gitScopeDecision request taskRun git (some observation) = some scope)
    (hallowed : scope.status = .allowed) (hlocator : observation.remoteLocator = some locator)
    (hne : locator ≠ "")
    (hbranch : branchOperations.contains git.operation = true →
      ∃ branch, observation.currentBranch = some branch ∧ branch ≠ "") :
    (service.remoteScopes.normalize locator).map (·.normalizedIdentity) = scope.repositoryIdentity ∧
      scope.branch = service.branchInScope request taskRun git observation ∧
      ∃ name, scope.branch = some name := by
  obtain ⟨resources, named, rfl⟩ := exists_decide hscope hbranch
  obtain ⟨requested, allowed, name, -, -, -, -, hname, -, hdecided, hobserved⟩ :=
    RemoteScopes.decide_allowed hallowed
  obtain ⟨identity, hidentity, hsame⟩ := hobserved locator (by simp [given, hlocator, hne])
  rw [hdecided, hidentity, hname]
  exact ⟨congrArg some hsame, rfl, name, rfl⟩

def grantAsked (service : GovernedToolExecution) (request : GovernedRequest)
    (assessment : Assessment) (contract : MissionContract) : GrantQuery :=
  service.grantQuery request contract assessment.capability
    (authorityResourceId assessment.gitScope assessment.resourceId)
    (assessment.gitScope.bind (·.repositoryIdentity)) (assessment.gitScope.bind (·.branch))

/-- What a command works on, in a state of the repositories, is what was checked. -/
structure WorksAsChecked (service : GovernedToolExecution) (request : GovernedRequest)
    (manual : GitManual) (invocation : GitInvocation) (assessment : Assessment)
    (observation : GitObservation) (scope : ScopeDecision) (world : GitWorld) : Prop where
  isHere : world.worksIn (service.inputText request "workspace") invocation =
    world.repository (service.inputText request "workspace") []
  isObserved : ∀ remote ∈ world.worksOn manual (service.inputText request "workspace") invocation,
    observation.remoteLocator = some remote ∧
      (service.remoteScopes.normalize remote).map (·.normalizedIdentity) =
        scope.repositoryIdentity
  isScoped : ∀ ref ∈ world.updates manual (service.inputText request "workspace") invocation,
    scope.branch = some ref ∧
      ∀ contract, assessment.taskRun.bind (·.missionContract) = some contract →
        (service.grantAsked request assessment contract).branch = some ref

def IsInScope (service : GovernedToolExecution) (request : GovernedRequest)
    (taskRun : Option GovernedTaskRun) (git : GitClassification)
    (observation : GitObservation) : PushTarget → Prop
  | .branch name => service.branchInScope request taskRun git observation = some name
  | .current => branchOperations.contains git.operation = true
  | .several => False
  | .nothing => True

/-- A command names what was observed, and pushes what is in scope. -/
structure IsConfined (service : GovernedToolExecution) (request : GovernedRequest)
    (taskRun : Option GovernedTaskRun) (manual : GitManual) (git : GitClassification)
    (observation : GitObservation) (invocation : GitInvocation) : Prop where
  /-- No option selects another repository. -/
  isHere : invocation.redirects = []
  isObserved : invocation.subcommand ≠ "commit" →
    manual.severalRemotes invocation.subcommand invocation.options = false ∧
      (invocation.remoteWord = none → invocation.subcommand = "clone") ∧
      ∀ word, invocation.remoteWord = some word → word = observedRemote git ∨
        (service.remoteScopes.normalize word).isSome = true ∧
          observation.remoteLocator = some word
  isScoped : invocation.subcommand = "push" → manual.updatesNothing invocation.options = false →
    manual.severalRefs invocation.options = false ∧ invocation.targets ≠ [] ∧
      ∀ target ∈ invocation.targets,
        IsInScope service request taskRun git observation target

variable {manual : GitManual} {invocation : GitInvocation} {taskRun : Option GovernedTaskRun}
  {ys : List governedStore.Exchange} {world : GitWorld} {directory : String}

theorem locators_of_named (hplain : world.IsPlain service.remoteScopes directory)
    (hobserved : world.IsObserved directory git observation) (hhere : invocation.redirects = [])
    {word remote : String}
    (hword : word = observedRemote git ∨ (service.remoteScopes.normalize word).isSome = true ∧
      observation.remoteLocator = some word)
    (hmem : remote ∈ world.locators directory invocation word) :
    observation.remoteLocator = some remote := by
  have hlocator : world.locator directory [] word = remote := by
    unfold GitWorld.locators at hmem
    rw [hhere] at hmem
    split at hmem
    · rw [hplain.ofPush word] at hmem
      exact (mem_singleton.mp hmem).symm
    · exact (mem_singleton.mp hmem).symm
  rcases hword with rfl | ⟨hname, hword⟩
  · rw [hobserved.locator, hlocator]
  · rw [hword, ← hlocator, hplain.ofLocator word hname]

theorem IsConfined.worksOn (hplain : world.IsPlain service.remoteScopes directory)
    (hobserved : world.IsObserved directory git observation)
    (hconfined : IsConfined service request taskRun manual git observation invocation)
    {remote : String} (hmem : remote ∈ world.worksOn manual directory invocation) :
    observation.remoteLocator = some remote := by
  unfold GitWorld.worksOn at hmem
  split at hmem
  · exact absurd hmem not_mem_nil
  · rename_i hcommit
    obtain ⟨hone, hclone, hword⟩ := hconfined.isObserved hcommit
    rw [hone, if_neg (by decide)] at hmem
    cases hnamed : invocation.remoteWord with
    | none =>
      rw [hnamed] at hmem
      dsimp only at hmem
      rw [if_pos (hclone hnamed)] at hmem
      exact absurd hmem not_mem_nil
    | some word =>
      rw [hnamed] at hmem
      exact locators_of_named hplain hobserved hconfined.isHere (hword word hnamed) hmem

theorem IsConfined.updates (hobserved : world.IsObserved directory git observation)
    (hconfined : IsConfined service request taskRun manual git observation invocation)
    {ref : String} (hmem : ref ∈ world.updates manual directory invocation) :
    service.branchInScope request taskRun git observation = some ref := by
  unfold GitWorld.updates at hmem
  split at hmem
  · exact absurd hmem not_mem_nil
  · rename_i hpushes
    simp only [ne_eq, Bool.or_eq_true, decide_eq_true_eq, not_or, not_not, Bool.not_eq_true]
      at hpushes
    obtain ⟨hone, hsome, htargets⟩ := hconfined.isScoped hpushes.1 hpushes.2
    rw [hone, if_neg (by decide), if_neg hsome] at hmem
    obtain ⟨target, htarget, href⟩ := mem_flatMap.mp hmem
    have hscoped := htargets target htarget
    cases target with
    | branch name =>
      rw [mem_singleton.mp href]
      exact hscoped
    | current =>
      have hcurrent : ref = world.currentBranch directory [] := by
        rw [← hconfined.isHere]
        exact mem_singleton.mp href
      have hbranch : branchOperations.contains git.operation = true := hscoped
      unfold branchInScope
      rw [if_pos hbranch, hobserved.branch hbranch, hcurrent]
    | several => exact hscoped.elim
    | nothing => exact absurd href not_mem_nil

def otherwise (service : GovernedToolExecution) (git : GitClassification)
    (locator branch : String) : GitWorld where
  repository _ options := if options = [] then "here" else "elsewhere"
  locator _ _ word := elsewhereOf word
  pushLocators _ _ word := [elsewhereOf word]
  defaultRemote _ _ := observedRemote git ++ locator ++ "'"
  severalLocators _ _ := [locator ++ "'"]
  currentBranch _ _ :=
    if branchOperations.contains git.operation then branch else branch ++ "'"
  defaultRefs _ _ := [branch ++ "'"]
  severalRefs _ _ := [branch ++ "'"]
where
  elsewhereOf (word : String) : String :=
    if (service.remoteScopes.normalize word).isSome then word
    else if word = observedRemote git then locator else locator ++ "'"

variable {branch : String}

theorem mark_ne (text : String) : text ++ "'" ≠ text := by
  intro h
  have hlength := congrArg String.length h
  have hmark : "'".length = 1 := rfl
  rw [String.length_append, hmark] at hlength
  omega

theorem otherwise_isPlain :
    (service.otherwise git locator branch).IsPlain service.remoteScopes directory where
  ofLocator _ hword := if_pos hword
  ofPush _ := rfl

theorem otherwise_isObserved (hobserves : Observes service directory git ys observation locator)
    (hbranch : service.branchInScope request taskRun git observation = some branch) :
    (service.otherwise git locator branch).IsObserved directory git observation where
  locator := by
    have hremote : otherwise.elsewhereOf service git locator (observedRemote git) = locator := by
      unfold otherwise.elsewhereOf
      split
      · rename_i hname
        exact (hobserves.isNamed hname).symm
      · exact if_pos rfl
    rw [hobserves.isLocator]
    exact congrArg some hremote.symm
  branch hgit := by
    have hcurrent : (service.otherwise git locator branch).currentBranch directory [] = branch :=
      if_pos hgit
    unfold branchInScope at hbranch
    rw [if_pos hgit] at hbranch
    rw [hcurrent, hbranch]

theorem named_of_elsewhereOf {word : String}
    (h : otherwise.elsewhereOf service git locator word = locator) :
    word = observedRemote git ∨
      (service.remoteScopes.normalize word).isSome = true ∧ locator = word := by
  unfold otherwise.elsewhereOf at h
  split at h
  · rename_i hname
    exact .inr ⟨hname, h.symm⟩
  · split at h
    · rename_i hremote
      exact .inl hremote
    · exact absurd h (mark_ne locator)

theorem mem_locators_otherwise (word : String) : otherwise.elsewhereOf service git locator word ∈
      (service.otherwise git locator branch).locators directory invocation word := by
  unfold GitWorld.locators
  split <;> exact mem_singleton_self _

theorem elsewhereOf_default_ne :
    otherwise.elsewhereOf service git locator (observedRemote git ++ locator ++ "'") ≠
      locator := by
  intro h
  have hmark : "'".length = 1 := rfl
  rcases named_of_elsewhereOf h with hremote | ⟨-, hlocator⟩
  · have hlength := congrArg String.length hremote
    rw [String.length_append, String.length_append, hmark] at hlength
    omega
  · have hlength := congrArg String.length hlocator
    rw [String.length_append, String.length_append, hmark] at hlength
    omega

theorem named_of_worksOn
    (hworks : ∀ remote ∈ (service.otherwise git locator branch).worksOn manual directory invocation,
      remote = locator) (hcommit : invocation.subcommand ≠ "commit") :
    manual.severalRemotes invocation.subcommand invocation.options = false ∧
      (invocation.remoteWord = none → invocation.subcommand = "clone") ∧
      ∀ word, invocation.remoteWord = some word → word = observedRemote git ∨
        (service.remoteScopes.normalize word).isSome = true ∧ locator = word := by
  unfold GitWorld.worksOn at hworks
  rw [if_neg hcommit] at hworks
  split at hworks
  · exact absurd (hworks _ (mem_singleton_self _)) (mark_ne locator)
  · rename_i hone
    refine ⟨by simpa using hone, fun hnone => ?_, fun word hword => ?_⟩
    · by_contra hclone
      rw [hnone] at hworks
      dsimp only at hworks
      rw [if_neg hclone] at hworks
      exact elsewhereOf_default_ne (hworks _ (mem_locators_otherwise _))
    · rw [hword] at hworks
      exact named_of_elsewhereOf (hworks _ (mem_locators_otherwise word))

theorem scoped_of_updates
    (hupdates : ∀ ref ∈ (service.otherwise git locator branch).updates manual directory invocation,
      ref = branch) (hbranch : service.branchInScope request taskRun git observation = some branch)
    (hpush : invocation.subcommand = "push")
    (hwrites : manual.updatesNothing invocation.options = false) :
    manual.severalRefs invocation.options = false ∧ invocation.targets ≠ [] ∧
      ∀ target ∈ invocation.targets, IsInScope service request taskRun git observation target := by
  unfold GitWorld.updates at hupdates
  rw [if_neg (by simp [hpush, hwrites])] at hupdates
  split at hupdates
  · exact absurd (hupdates _ (mem_singleton_self _)) (mark_ne branch)
  · rename_i hone
    split at hupdates
    · exact absurd (hupdates _ (mem_singleton_self _)) (mark_ne branch)
    · rename_i hsome
      refine ⟨by simpa using hone, hsome, fun target htarget => ?_⟩
      have hrefs : ∀ ref ∈
          (service.otherwise git locator branch).refsOf directory invocation target,
          ref = branch := fun ref href =>
        hupdates ref (mem_flatMap.mpr ⟨target, htarget, href⟩)
      cases target with
      | branch name =>
        change service.branchInScope request taskRun git observation = some name
        rw [hbranch, hrefs name (mem_singleton_self name)]
      | current =>
        change branchOperations.contains git.operation = true
        by_contra hgit
        have hcurrent := hrefs _ (mem_singleton_self _)
        have hother : (service.otherwise git locator branch).currentBranch directory
            invocation.redirects = branch ++ "'" := if_neg hgit
        rw [hother] at hcurrent
        exact mark_ne branch hcurrent
      | several => exact absurd (hrefs _ (mem_singleton_self _)) (mark_ne branch)
      | nothing => trivial

theorem isConfined_of_worksAsChecked
    (hlocator : observation.remoteLocator = some locator)
    (hbranch : service.branchInScope request taskRun git observation = some branch)
    (hscope : scope.branch = some branch)
    (hworks : WorksAsChecked service request manual invocation assessment observation scope
      (service.otherwise git locator branch)) :
    IsConfined service request taskRun manual git observation invocation where
  isHere := by
    have hsame : (if invocation.redirects = [] then "here" else "elsewhere") = "here" :=
      hworks.isHere
    by_contra hother
    rw [if_neg hother] at hsame
    exact absurd hsame (by decide)
  isObserved hcommit := by
    rw [hlocator]
    have hremote := named_of_worksOn (fun remote hmem => Option.some.inj
      ((hworks.isObserved remote hmem).1.symm.trans hlocator)) hcommit
    simpa using hremote
  isScoped hpush hwrites := by
    have hupdates := fun ref hmem => Option.some.inj
      ((hworks.isScoped ref hmem).1.symm.trans hscope)
    exact scoped_of_updates hupdates hbranch hpush hwrites

variable {xs zs : List governedStore.Exchange} {r : Except String GovernedResult}
  {argv : List String} {cwd : String} {timeout : ℤ} {answer : CommandOutcome}
  {decision : GovernedDecision}

def JudgedGit (service : GovernedToolExecution) (request : GovernedRequest)
    (git : GitClassification) : Prop :=
  ∃ judged, service.shellClassification request = .ok judged ∧
    judged.gitClassification = some git ∧ git.requiresRemoteScope = true ∧
    git.safeForGovernedExecution = true ∧ git.operationClass ≠ .localRead

/-- What an execution decides once it has observed a repository. -/
structure Scoped (service : GovernedToolExecution) (found : GovernedFindings)
    (request : GovernedRequest) (git : GitClassification) (ys : List governedStore.Exchange)
    (observation : GitObservation) (assessment : Assessment) (scope : ScopeDecision)
    (locator branch : String) : Prop where
  isObserved : assessment.observation = some observation
  isScoped : assessment.gitScope = some scope
  isAllowed : scope.status = .allowed
  observes : Observes service (service.inputText request "workspace") git ys observation locator
  ofLocator : (service.remoteScopes.normalize locator).map (·.normalizedIdentity) =
    scope.repositoryIdentity
  ofBranch : scope.branch = some branch
  inScope : service.branchInScope request (taskRunOf found request) git observation = some branch

theorem exists_scoped (hgit : JudgedGit service request git)
    (hends : (service.observeGitRuntime request git).Ends ys (.ok observation))
    (hdecision : service.decision found request (some observation) = .ok decision)
    (hallowed : decision.canonical.any (·.permission = .allowed) = true)
    (hshell : ∃ judged, decision.assessment.bind (·.shell) = some judged ∧
      service.shellClassification request = .ok judged) :
    ∃ assessment scope locator branch, decision.assessment = some assessment ∧
      Scoped service found request git ys observation assessment scope locator branch := by
  obtain ⟨judged, hclassified, hof, hremote, -, -⟩ := hgit
  obtain ⟨judged', hjudged, hclassified'⟩ := hshell
  cases hclassified.symm.trans hclassified'
  obtain ⟨tool, assessment, hallows⟩ := exists_allows hdecision hallowed
  obtain ⟨shell, error, grant, -, -, rfl⟩ := assess_ok hallows.isAssessed
  rw [hallows.isKept] at hjudged
  have hshell : shell = some judged := hjudged
  have hremoteGit : remoteGit shell = some git := by
    unfold remoteGit
    simp [hshell, hof, hremote]
  obtain ⟨herror, scope, hscope, hstatus⟩ := scope_of_allowed hallows.permission hremoteGit
  obtain ⟨locator, hobserves⟩ := observes_of_ends hremote hends herror
  have hscoped : service.gitScopeDecision request (taskRunOf found request) git
      (some observation) = some scope := by
    have hbind : (remoteGit shell).bind (fun git => service.gitScopeDecision request
        (taskRunOf found request) git (some observation)) = some scope := hscope
    rwa [hremoteGit] at hbind
  obtain ⟨hidentity, hbranch, branch, hname⟩ := scope_of_observed hscoped hstatus
    hobserves.isLocator hobserves.ne_empty hobserves.hasBranch
  exact ⟨_, scope, locator, branch, hallows.isKept, rfl, hscope, hstatus, hobserves, hidentity,
    hname, hbranch ▸ hname⟩

/-- What a command works on, in every state of the repositories in which what was read is true,
is what the decision of the execution was made for. -/
def Covers (service : GovernedToolExecution) (found refound : GovernedFindings)
    (request : GovernedRequest) (manual : GitManual) (xs : List governedStore.Exchange)
    (invocation : GitInvocation) : Prop :=
  ∃ ys zs decision assessment observation scope, xs = ys ++ zs ∧
    Settles service found refound request ys decision ∧
    decision.assessment = some assessment ∧ assessment.observation = some observation ∧
    assessment.gitScope = some scope ∧ scope.status = .allowed ∧
    ∀ world : GitWorld,
      world.IsPlain service.remoteScopes (service.inputText request "workspace") →
        world.IsReadIn service.commands ys →
          WorksAsChecked service request manual invocation assessment observation scope world

/-- A command is confined to what is read of the workspace. -/
def StaysConfined (service : GovernedToolExecution) (refound : GovernedFindings)
    (request : GovernedRequest) (manual : GitManual) (xs : List governedStore.Exchange)
    (invocation : GitInvocation) : Prop :=
  ∃ git ys zs observation, JudgedGit service request git ∧ xs = ys ++ zs ∧
    (service.observeGitRuntime request git).Ends ys (.ok observation) ∧
    IsConfined service request (taskRunOf refound request) manual git observation invocation

theorem observation_of_decision {seen : Option GitObservation}
    (hdecision : service.decision found request seen = .ok decision)
    (hallowed : decision.canonical.any (·.permission = .allowed) = true)
    (hassessment : decision.assessment = some assessment) : assessment.observation = seen := by
  obtain ⟨tool, assessment', hallows⟩ := exists_allows hdecision hallowed
  obtain ⟨shell, error, grant, -, -, rfl⟩ := assess_ok hallows.isAssessed
  rw [hallows.isKept] at hassessment
  have heq := Option.some.inj hassessment
  subst heq
  rfl

variable {first : GovernedDecision}

theorem judgedGit_of_observed (hgit : observedGit first = some git)
    (hfirst : ∃ judged, first.assessment.bind (·.shell) = some judged ∧
      service.shellClassification request = .ok judged) (hremote :
    git.requiresRemoteScope = true) : JudgedGit service request git := by
  obtain ⟨judged, hjudged, hclassified⟩ := hfirst
  unfold observedGit at hgit
  rw [hjudged] at hgit
  obtain ⟨hof, hobserved⟩ := Option.filter_eq_some_iff.mp hgit
  simp only [ne_eq, Bool.and_eq_true, decide_eq_true_eq] at hobserved
  exact ⟨judged, hclassified, hof, hremote, hobserved.1, hobserved.2⟩

theorem observedGit_of_judged (hgit : JudgedGit service request git)
    (hfirst : ∃ judged, first.assessment.bind (·.shell) = some judged ∧
      service.shellClassification request = .ok judged) : observedGit first = some git := by
  obtain ⟨judged, hclassified, hof, -, hsafe, hclass⟩ := hgit
  obtain ⟨judged', hjudged, hclassified'⟩ := hfirst
  cases hclassified.symm.trans hclassified'
  unfold observedGit
  rw [hjudged]
  exact Option.filter_eq_some_iff.mpr ⟨hof, by simp [hsafe, hclass]⟩

theorem requiresRemoteScope_of_scope {seen : Option GitObservation}
    (hdecision : service.decision found request seen = .ok decision)
    (hallowed : decision.canonical.any (·.permission = .allowed) = true)
    (hassessment : decision.assessment = some assessment)
    (hscope : assessment.gitScope = some scope) (hobserved : observedGit first = some git)
    (hshell : ∃ judged, decision.assessment.bind (·.shell) = some judged ∧
      service.shellClassification request = .ok judged)
    (hfirst : ∃ judged, first.assessment.bind (·.shell) = some judged ∧
      service.shellClassification request = .ok judged) : git.requiresRemoteScope = true := by
  obtain ⟨tool, assessment', hallows⟩ := exists_allows hdecision hallowed
  obtain ⟨shell, error, grant, -, -, rfl⟩ := assess_ok hallows.isAssessed
  obtain ⟨judged, hjudged, hclassified⟩ := hshell
  obtain ⟨judged', hjudged', hclassified'⟩ := hfirst
  cases hclassified.symm.trans hclassified'
  rw [hallows.isKept] at hassessment hjudged
  have heq := Option.some.inj hassessment
  subst heq
  have hsame : shell = some judged := hjudged
  have hbind : (remoteGit shell).bind (fun git => service.gitScopeDecision request
      (taskRunOf found request) git seen) = some scope := hscope
  obtain ⟨remote, hremote, -⟩ := Option.bind_eq_some_iff.mp hbind
  rw [hsame] at hremote
  obtain ⟨hof, hrequires⟩ := Option.filter_eq_some_iff.mp hremote
  unfold observedGit at hobserved
  rw [hjudged'] at hobserved
  have hgit : remote = git :=
    Option.some.inj (hof.symm.trans (Option.filter_eq_some_iff.mp hobserved).1)
  rwa [hgit] at hrequires

theorem exists_settled (h : (service.execute found refound request).Ends (ys ++ zs) r)
    (hmem : ran argv cwd timeout answer ∈ ys ++ zs) (hgit : JudgedGit service request git)
    (hends : (service.observeGitRuntime request git).Ends ys (.ok observation)) :
    ∃ decision, Settles service found refound request ys decision ∧
      service.decision refound request (some observation) = .ok decision := by
  have hcarries : CarriesOut (ys ++ zs) := ⟨_, hmem, rfl⟩
  obtain ⟨first, hfirst⟩ := exists_decision_of_carries h hcarries
  have hallowed := allowed_of_decides h hcarries (.inl hfirst)
  have hobserved := observedGit_of_judged hgit (judged_of_decides h hmem (.inl hfirst))
  cases hdecision : service.decision refound request (some observation) with
  | ok decision =>
    exact ⟨decision, .observed first decision git observation ys hfirst hallowed hobserved hends
      hdecision, rfl⟩
  | error e =>
    rw [execute_of_decision hfirst, executeDecided_observed hallowed hobserved] at h
    have hzs : (service.executeObserved refound request observation).Ends zs r :=
      Program.ends_of_ends_bind hends h
    unfold executeObserved at hzs
    rw [hdecision] at hzs
    have hprepared : ¬CarriesOut ys :=
      not_carriesOut_of_prepares (observeGitRuntime_prepares git) hends
    exact absurd hcarries (Refuses.after hprepared (refuses_of_raise hzs)).1

theorem StaysConfined.covers (h : (service.execute found refound request).Ends xs r)
    (hmem : ran argv cwd timeout answer ∈ xs)
    (hconfined : StaysConfined service refound request manual xs invocation) :
    Covers service found refound request manual xs invocation := by
  obtain ⟨git, ys, zs, observation, hgit, rfl, hends, hconfined⟩ := hconfined
  obtain ⟨decision, hsettles, hdecision⟩ := exists_settled h hmem hgit hends
  have hdecides : Decides service found refound request (ys ++ zs) decision :=
    .inr ⟨ys, zs, rfl, hsettles⟩
  have hallowed := allowed_of_decides h ⟨_, hmem, rfl⟩ hdecides
  obtain ⟨assessment, scope, locator, branch, hassessment, hscoped⟩ :=
    exists_scoped hgit hends hdecision hallowed (judged_of_decides h hmem hdecides)
  refine ⟨ys, zs, decision, assessment, observation, scope, rfl, hsettles, hassessment,
    hscoped.isObserved, hscoped.isScoped, hscoped.isAllowed, fun world hplain hread => ?_⟩
  have hobserved := (hscoped.observes.isReadIn_iff world hplain).mp hread
  refine ⟨?_, fun remote hremote => ?_, fun ref href => ?_⟩
  · unfold GitWorld.worksIn
    rw [hconfined.isHere]
  · have hlocator := hconfined.worksOn hplain hobserved hremote
    have hsame : locator = remote :=
      Option.some.inj (hscoped.observes.isLocator.symm.trans hlocator)
    exact ⟨hlocator, hsame ▸ hscoped.ofLocator⟩
  · have hbranch : branch = ref :=
      Option.some.inj (hscoped.inScope.symm.trans (hconfined.updates hobserved href))
    rw [← hbranch]
    refine ⟨hscoped.ofBranch, fun contract _ => ?_⟩
    change assessment.gitScope.bind (·.branch) = some branch
    rw [hscoped.isScoped]
    exact hscoped.ofBranch

theorem Covers.staysConfined (h : (service.execute found refound request).Ends xs r)
    (hmem : ran argv cwd timeout answer ∈ xs)
    (hcovers : Covers service found refound request manual xs invocation) :
    StaysConfined service refound request manual xs invocation := by
  obtain ⟨ys, zs, decision, assessment, observation, scope, rfl, hsettles, hassessment,
    hobservation, hscope, hallows, hworks⟩ := hcovers
  have hdecides : Decides service found refound request (ys ++ zs) decision :=
    .inr ⟨ys, zs, rfl, hsettles⟩
  have hallowed := allowed_of_decides h ⟨_, hmem, rfl⟩ hdecides
  have hjudged := judged_of_decides h hmem hdecides
  cases hsettles with
  | atOnce decision hdecision hgit =>
    rw [observation_of_decision hdecision hallowed hassessment] at hobservation
    cases hobservation
  | observed first decision git observation' ys hfirst hfirstAllowed hobserved hends hdecision =>
    have hseen := observation_of_decision hdecision hallowed hassessment
    cases hseen.symm.trans hobservation
    have hjudgedFirst := judged_of_decides h hmem (.inl hfirst)
    have hremote := requiresRemoteScope_of_scope hdecision hallowed hassessment hscope hobserved
      hjudged hjudgedFirst
    have hgit := judgedGit_of_observed hobserved hjudgedFirst hremote
    obtain ⟨assessment', scope', locator, branch, hassessment', hscoped⟩ :=
      exists_scoped hgit hends hdecision hallowed hjudged
    cases hassessment.symm.trans hassessment'
    cases hscope.symm.trans hscoped.isScoped
    refine ⟨git, ys, zs, observation, hgit, rfl, hends, ?_⟩
    have hread := (hscoped.observes.isReadIn_iff _ otherwise_isPlain).mpr
      (otherwise_isObserved hscoped.observes hscoped.inScope)
    exact isConfined_of_worksAsChecked hscoped.observes.isLocator hscoped.inScope hscoped.ofBranch
      (hworks _ otherwise_isPlain hread)

def pushedRemote : MissionResourceScope where
  resourceId := "remote"
  resourceType := .remoteRepository
  role := none
  locator := some "https://host/project"
  provider := none
  normalizedIdentity := some "https://host/project"
  allowedBranches := ["main"]
  permissions := ["git_push"]
  constraints := []
  derivedFrom := none
  provenanceRefs := []
  metadata := .obj []

def publishing : MissionContract where
  missionId := "mission"
  sessionId := none
  sourceMessageId := "message"
  sourcePromptSha256 := "prompt"
  objective := "publish"
  semanticContext := .obj []
  strategy := .singleOperation
  localResources := []
  remoteResources := [pushedRemote]
  authority := ⟨["git_push"], ["git_push"], [], []⟩
  negativeConstraints := []
  completion := ⟨[], [], false⟩
  provenanceRefs := []
  revision := 1
  parentAuthoritySha256 := none
  authoritySha256 := "sha256:1"
  frozenAt := ""
  schemaVersion := "mission_contract.v1"

def publishingRequest (argv : List String) : GovernedRequest := commandRequest argv (some "run")

def publishingFindings (argv : List String) : GovernedFindings :=
  { findApproval (approvedCommand (publishingRequest argv)) with
    taskRun _ := some ⟨some publishing, .running, none⟩ }

/-- A workspace of the repository. -/
def publishingRunner : Handler governedStore Unit
  | .gitRead _ argv, _ =>
    (.ok ⟨true, if argv.contains "get-url" then "https://host/project" else "main"⟩, ())
  | .useGrant _ _, _ => (.ok none, ())
  | .run _ _ _, _ => (.finished 0, ())
  | .openUrl _ _ _, _ => (.answered 200, ())
  | .makeDirectory _, _ => (.ok (), ())

def publishingExecution (argv : List String) : GovernedProgram GovernedResult :=
  projectExecution.execute (publishingFindings argv) (publishingFindings argv)
    (publishingRequest argv)

def publishingExchanges (argv : List String) : List governedStore.Exchange :=
  (publishingExecution argv).exchanges publishingRunner ()

theorem publishingExecution_ends (argv : List String) :
    (projectExecution.execute (publishingFindings argv) (publishingFindings argv)
      (publishingRequest argv)).Ends (publishingExchanges argv)
        ((publishingExecution argv).run publishingRunner ()).1 := by
  have heq : projectExecution.execute (publishingFindings argv) (publishingFindings argv)
      (publishingRequest argv) = publishingExecution argv := by
    unfold publishingExecution
    rfl
  rw [heq]
  exact Program.ends_exchanges publishingRunner (publishingExecution argv) ()

def gitManual : GitManual where
  globalValues := ["-C", "-c", "--git-dir", "--work-tree", "--namespace", "--config-env"]
  informs := ["--version", "-v", "--help", "-h", "--exec-path", "--html-path", "--man-path",
    "--info-path"]
  redirects _ given :=
    ["-C", "-c", "--git-dir", "--work-tree", "--namespace", "--config-env"].contains given.1
  options _ :=
    [("--repo", true), ("--push-option", true), ("-o", true), ("--receive-pack", true),
      ("--upload-pack", true), ("--depth", true), ("--jobs", true), ("-j", true),
      ("--branch", true), ("-b", true), ("--message", true), ("-m", true), ("--all", false),
      ("--branches", false), ("--mirror", false), ("--tags", false), ("--follow-tags", false),
      ("--multiple", false), ("--recurse-submodules", false), ("--dry-run", false),
      ("--ff-only", false)]
  severalRemotes subcommand options :=
    options.any fun given =>
      given.1 = "--recurse-submodules" ||
        (subcommand ≠ "push" && ["--all", "--multiple"].contains given.1)
  severalRefs options :=
    options.any fun given =>
      ["--all", "--branches", "--mirror", "--tags", "--follow-tags"].contains given.1
  updatesNothing options := options.any fun given => ["--dry-run", "-n"].contains given.1

def pushMain : List String := ["git", "push", "origin", "main"]

def pushElsewhere : List String := ["git", "-C", "/other", "push", "origin", "main"]

end GovernedToolExecution

end AIpinho.Tools
