import AIpinho.Tools.GitManual
import AIpinho.Tools.GovernedRuns

/-!
# What is observed of a repository

Before a command of Git the runner reads, in the workspace, the locator of a remote and the
branch that is checked out.
-/

namespace AIpinho.Tools

open Lib
open AIpinho.Grants (given)

def readOf (directory : String) (argv : List String) (read : GitRead) : governedStore.Exchange :=
  ⟨.gitRead directory argv, .ok read⟩

def GovernedToolExecution.observedRemote (git : GitClassification) : String :=
  (given git.remoteName).getD "origin"

namespace GitWorld

variable (world : GitWorld)

def confirms (services : CommandServices) : governedStore.Exchange → Bool
  | ⟨.gitRead directory ["git", "remote", "get-url", name], .ok read⟩ =>
    !read.succeeded || services.strip read.stdout = world.locator directory [] name
  | ⟨.gitRead directory ["git", "branch", "--show-current"], .ok read⟩ =>
    !read.succeeded || services.strip read.stdout = world.currentBranch directory []
  | _ => true

def IsReadIn (services : CommandServices) (xs : List governedStore.Exchange) : Prop :=
  ∀ x ∈ xs, world.confirms services x = true

/-- In a directory a locator is worked on as it is, and a remote is pushed to where it is
fetched from. -/
structure IsPlain (scopes : RemoteScopes) (directory : String) : Prop where
  ofLocator : ∀ word, (scopes.normalize word).isSome = true →
    world.locator directory [] word = word
  /-- A remote is pushed to where it is fetched from. -/
  ofPush : ∀ word, world.pushLocators directory [] word = [world.locator directory [] word]

/-- What is observed is true. -/
structure IsObserved (directory : String) (git : GitClassification)
    (observation : GitObservation) : Prop where
  locator : observation.remoteLocator =
    some (world.locator directory [] (GovernedToolExecution.observedRemote git))
  branch : GovernedToolExecution.branchOperations.contains git.operation = true →
    observation.currentBranch = some (world.currentBranch directory [])

end GitWorld

namespace GovernedToolExecution

variable {service : GovernedToolExecution} {request : GovernedRequest} {git : GitClassification}
  {ys : List governedStore.Exchange} {directory : String} {observation : GitObservation}
  {world : GitWorld}

theorem gitRead_ends {argv : List String} {answer : GitRead}
    (h : (service.gitRead directory argv).Ends ys (.ok answer)) :
    ∃ read, ys = [readOf directory argv read] ∧
      answer = { read with stdout := service.commands.strip read.stdout } := by
  obtain ⟨reply, zs, rfl, hzs⟩ := h
  change Except String GitRead at reply
  cases reply with
  | error e => cases hzs.2
  | ok read =>
    obtain ⟨rfl, heq⟩ := hzs
    exact ⟨read, rfl, Except.ok.inj heq⟩

/-- What the locator of a remote was taken from. -/
inductive RemoteRead (service : GovernedToolExecution) (directory name : String) :
    List governedStore.Exchange → String → Prop
  | named (hname : (service.remoteScopes.normalize name).isSome = true) :
      RemoteRead service directory name [] name
  | read (read : GitRead) (hname : (service.remoteScopes.normalize name).isSome = false)
      (hsucceeded : read.succeeded = true) (hlocator : service.commands.strip read.stdout ≠ "") :
      RemoteRead service directory name
        [readOf directory ["git", "remote", "get-url", name] read]
        (service.commands.strip read.stdout)

theorem remoteRead_of_ends {name locator : String}
    (h : (service.observeRemote directory name).Ends ys (.ok (.ok locator))) :
    RemoteRead service directory name ys locator := by
  unfold observeRemote at h
  split at h
  · rename_i hname
    obtain ⟨rfl, heq⟩ := h
    cases heq
    exact .named hname
  · rename_i hname
    obtain ⟨zs, us, read, rfl, hread, hus⟩ := Program.ends_bind_ok.mp h
    obtain ⟨reply, rfl, rfl⟩ := gitRead_ends hread
    obtain ⟨rfl, heq⟩ := hus
    have hanswer := Except.ok.inj heq
    split at hanswer
    · cases hanswer
    · rename_i hgood
      cases hanswer
      rw [not_or] at hgood
      exact .read reply (by simpa using hname) (by simpa using hgood.1) hgood.2

theorem error_of_ends {name error : String}
    (h : (service.observeRemote directory name).Ends ys (.ok (.error error))) :
    error = "git_remote_reobservation_failed" := by
  unfold observeRemote at h
  split at h
  · obtain ⟨-, heq⟩ := h
    cases heq
  · obtain ⟨zs, us, read, rfl, -, hus⟩ := Program.ends_bind_ok.mp h
    have hanswer := Except.ok.inj hus.2
    split at hanswer
    · cases hanswer
      rfl
    · cases hanswer

theorem RemoteRead.ne_empty {name locator : String}
    (h : RemoteRead service directory name ys locator) (hname : name ≠ "") : locator ≠ "" := by
  cases h with
  | named _ => exact hname
  | read _ _ _ hlocator => exact hlocator

theorem RemoteRead.isReadIn_iff {name locator : String}
    (h : RemoteRead service directory name ys locator)
    (hplain : world.IsPlain service.remoteScopes directory) :
    world.IsReadIn service.commands ys ↔ locator = world.locator directory [] name := by
  unfold GitWorld.IsReadIn
  cases h with
  | named hname => simp [hplain.ofLocator name hname]
  | read read hname hsucceeded hlocator => simp [GitWorld.confirms, readOf, hsucceeded]

/-- What the branch of an observation was taken from. -/
inductive BranchRead (service : GovernedToolExecution) (directory : String)
    (git : GitClassification) (before : GitObservation) :
    List governedStore.Exchange → GitObservation → Prop
  | kept (hgit : branchOperations.contains git.operation = false) :
      BranchRead service directory git before [] before
  | read (read : GitRead) (hgit : branchOperations.contains git.operation = true)
      (hsucceeded : read.succeeded = true) (hbranch : service.commands.strip read.stdout ≠ "") :
      BranchRead service directory git before
        [readOf directory ["git", "branch", "--show-current"] read]
        { before with currentBranch := some (service.commands.strip read.stdout) }

theorem branchRead_of_ends {before : GitObservation}
    (h : (service.observeBranch directory git before).Ends ys (.ok observation))
    (herror : given observation.error = none) :
    BranchRead service directory git before ys observation := by
  unfold observeBranch at h
  split at h
  · rename_i hgit
    obtain ⟨zs, us, read, rfl, hread, hus⟩ := Program.ends_bind_ok.mp h
    obtain ⟨reply, rfl, rfl⟩ := gitRead_ends hread
    obtain ⟨rfl, heq⟩ := hus
    have hanswer := Except.ok.inj heq
    split at hanswer
    · subst hanswer
      exact absurd herror (by decide)
    · rename_i hgood
      split at hanswer
      · subst hanswer
        change given (some "git_push_current_branch_mismatch") = none at herror
        exact absurd herror (by decide)
      · split at hanswer
        · subst hanswer
          change given (some "git_pull_ff_current_branch_mismatch") = none at herror
          exact absurd herror (by decide)
        · subst hanswer
          rw [not_or] at hgood
          exact .read reply hgit (by simpa using hgood.1) hgood.2
  · rename_i hgit
    obtain ⟨rfl, heq⟩ := h
    have hanswer := Except.ok.inj heq
    subst hanswer
    exact .kept (by simpa using hgit)

/-- An observation of a remote and of the branch that is checked out. -/
structure Observes (service : GovernedToolExecution) (directory : String)
    (git : GitClassification) (ys : List governedStore.Exchange) (observation : GitObservation)
    (locator : String) : Prop where
  isLocator : observation.remoteLocator = some locator
  ne_empty : locator ≠ ""
  isNamed : (service.remoteScopes.normalize (observedRemote git)).isSome = true →
    locator = observedRemote git
  hasBranch : branchOperations.contains git.operation = true →
    ∃ branch, observation.currentBranch = some branch ∧ branch ≠ ""
  /-- A state agrees with what was read exactly if it agrees with the observation. -/
  isReadIn_iff : ∀ world : GitWorld, world.IsPlain service.remoteScopes directory →
    (world.IsReadIn service.commands ys ↔ world.IsObserved directory git observation)

theorem observedRemote_ne_empty : observedRemote git ≠ "" := by
  unfold observedRemote
  cases hname : given git.remoteName with
  | none => decide
  | some name => simpa using (Option.filter_eq_some_iff.mp hname).2

theorem Observes.of_reads {locator : String} {zs : List governedStore.Exchange}
    (hremote : RemoteRead service directory (observedRemote git) ys locator)
    (hbranch : BranchRead service directory git { remoteLocator := some locator } zs
      observation) : Observes service directory git (ys ++ zs) observation locator := by
  have hnamed : (service.remoteScopes.normalize (observedRemote git)).isSome = true →
      locator = observedRemote git := by
    intro hname
    cases hremote with
    | named _ => rfl
    | read _ hnot => simp [hname] at hnot
  have happend : ∀ world : GitWorld, world.IsPlain service.remoteScopes directory →
      (world.IsReadIn service.commands (ys ++ zs) ↔
        locator = world.locator directory [] (observedRemote git) ∧
          world.IsReadIn service.commands zs) := fun world hplain => by
    rw [← hremote.isReadIn_iff hplain]
    exact List.forall_mem_append
  cases hbranch with
  | kept hgit =>
    have hnot : ¬branchOperations.contains git.operation = true := by rw [hgit]; decide
    refine ⟨rfl, hremote.ne_empty observedRemote_ne_empty, hnamed, fun h => absurd h hnot,
      fun world hplain => ?_⟩
    rw [happend world hplain]
    constructor
    · rintro ⟨hlocator, -⟩
      exact ⟨congrArg some hlocator, fun h => absurd h hnot⟩
    · intro hobserved
      exact ⟨Option.some.inj hobserved.locator, fun _ hmem => absurd hmem List.not_mem_nil⟩
  | read read hgit hsucceeded hgood =>
    refine ⟨rfl, hremote.ne_empty observedRemote_ne_empty, hnamed, fun _ => ⟨_, rfl, hgood⟩,
      fun world hplain => ?_⟩
    have hread : world.IsReadIn service.commands
        [readOf directory ["git", "branch", "--show-current"] read] ↔
        service.commands.strip read.stdout = world.currentBranch directory [] := by
      simp [GitWorld.IsReadIn, GitWorld.confirms, readOf, hsucceeded]
    rw [happend world hplain, hread]
    constructor
    · rintro ⟨hlocator, hcurrent⟩
      exact ⟨congrArg some hlocator, fun _ => congrArg some hcurrent⟩
    · intro hobserved
      exact ⟨Option.some.inj hobserved.locator, Option.some.inj (hobserved.branch hgit)⟩

theorem observes_of_ends (hgit : git.requiresRemoteScope = true)
    (h : (service.observeGitRuntime request git).Ends ys (.ok observation))
    (herror : given observation.error = none) :
    ∃ locator, Observes service (service.inputText request "workspace") git ys observation
      locator := by
  unfold observeGitRuntime at h
  dsimp only at h
  rw [if_pos hgit] at h
  obtain ⟨zs, us, found, rfl, hzs, hus⟩ := Program.ends_bind_ok.mp h
  cases found with
  | error error =>
    obtain ⟨-, heq⟩ := hus
    have hanswer := Except.ok.inj heq
    subst hanswer
    rw [error_of_ends hzs] at herror
    exact absurd herror (by decide)
  | ok locator =>
    exact ⟨locator, .of_reads (remoteRead_of_ends hzs) (branchRead_of_ends hus herror)⟩

end GovernedToolExecution

end AIpinho.Tools
