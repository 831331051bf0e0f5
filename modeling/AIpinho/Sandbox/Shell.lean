import AIpinho.Lib.ShellWords
import AIpinho.Mission.Contract
import AIpinho.Sandbox.Isolation

/-!
# Shell commands in a sandbox

A command is admitted by its text: no blocked pattern may be found in it, and its category,
which the caller may give, is to be allowed. What is run is the list of words that the text is
split into.
-/

namespace AIpinho.Sandbox

open Lib Option
open AIpinho.Events (redactText)
open AIpinho.Mission (containsText)
open AIpinho.Runtime (isSpace)

variable {env : SandboxEnv} {s : SandboxState}

/-- What the policy says of shells. -/
structure SandboxShellPolicy where
  /-- `allowed_shell_categories`. -/
  allowedCategories : List String
  /-- `blocked_shell_patterns`. -/
  blockedPatterns : List String
  maxOutputKb : ℕ := 512

def sandboxPolicyFile : SandboxShellPolicy where
  allowedCategories := ["readonly_shell", "test_shell", "build_shell", "package_shell"]
  blockedPatterns :=
    ["\\bdel\\b|\\brm\\b|\\bformat\\b|\\bshutdown\\b|\\brestart-computer\\b",
      "\\bgit\\s+push\\b|\\bgit\\s+commit\\b",
      "\\bcurl\\b|\\bwget\\b|\\binvoke-webrequest\\b|\\birm\\b|\\biwr\\b"]

/-- What the service uses of the system and of the standard library. -/
structure ShellServices where
  /-- Whether the system is not Windows. -/
  posix : Bool
  /-- `re.search`: whether a pattern is found in a text. -/
  search : String → String → Bool
  decode : Bytes → String

/-- `SandboxShellRequest`. -/
structure ShellRequest where
  workspaceId : String
  taskId : Option String := none
  command : String
  cwdRelative : String := "."
  category : Option String := none

def classifyShell (env : SandboxEnv) (command : String) : String :=
  let lowered := strip isSpace (env.casefold command)
  if ["pytest", "python -m pytest", "gradlew", "npm test", "cargo test"].any
      (containsText lowered) then "test_shell"
  else if ["python -m py_compile", "tsc", "npm run build", "gradlew assemble"].any
      (containsText lowered) then "build_shell"
  else if ["dir", "ls", "pwd", "type ", "get-content", "python --version", "node --version"].any
      (fun start => start.toList.isPrefixOf lowered.toList) then "readonly_shell"
  else "unknown_shell"

def shellCategory (env : SandboxEnv) (request : ShellRequest) : String :=
  (request.category.filter (· ≠ "")).getD (classifyShell env request.command)

/-- The directory of a request, with that of the root for none. -/
def ShellRequest.cwd (request : ShellRequest) : String :=
  if request.cwdRelative = "" then "." else request.cwdRelative

def blockedPattern? (services : ShellServices) (policy : SandboxShellPolicy) (text : String) :
    Option String :=
  policy.blockedPatterns.find? fun pattern => services.search pattern text

def patternReason (env : SandboxEnv) (pattern : String) : String :=
  if ["curl", "wget", "invoke-webrequest", "irm", "iwr"].any (containsText (env.casefold pattern))
  then "sandbox_network_blocked" else "sandbox_destructive_command_blocked"

/-- `allow_shell`: the reason not to run a command, if there is one. -/
def allowShell (env : SandboxEnv) (services : ShellServices) (policy : SandboxShellPolicy)
    (root : FilePath) (request : ShellRequest) : Option String :=
  match allowPath env root request.cwd "shell" with
  | some reason => some reason
  | none =>
    match blockedPattern? services policy (env.casefold request.command) with
    | some pattern => some (patternReason env pattern)
    | none =>
      if shellCategory env request ∉ policy.allowedCategories then
        some "sandbox_destructive_command_blocked"
      else none

/-- The decision of `run` about a request: the reason not to run it, if there is one. -/
def shellDecision (env : SandboxEnv) (services : ShellServices) (policy : SandboxShellPolicy)
    (s : SandboxState) (request : ShellRequest) : Except String (Option String) := do
  let workspace ← getWorkspace s request.workspaceId
  let root ← operationRoot s request.workspaceId request.taskId
  if workspace.role = .readonly then pure (some "source_readonly_write_denied")
  else pure (allowShell env services policy root request)

/-- What comes of a process. -/
inductive ProcessOutcome
  | completed (exitCode : ℤ) (stdout stderr : String)
  | timeout (text : String)
  /-- It could not be started. -/
  | raised (error : String)

/-- The status of a command. -/
inductive CommandStatus
  | blocked | succeeded | failed
  deriving DecidableEq

/-- `SandboxShellCommand`. -/
structure ShellCommand where
  commandId : String
  command : String
  normalizedCommand : List String := []
  cwdRelative : String
  category : String
  status : CommandStatus
  reasonCode : String
  exitCode : Option ℤ := none
  stdout : String := ""
  /-- What it has written about errors. -/
  stderr : String := ""

def boundedOutput (env : SandboxEnv) (services : ShellServices) (output : String) (limit : ℕ) :
    String :=
  let encoded := env.encode output
  if encoded.length ≤ limit then output
  else services.decode (encoded.take limit) ++
    "\n...[sandbox output truncated by configured limit]"

def SandboxTask.afterCommand (task : SandboxTask) (command : ShellCommand) : SandboxTask :=
  { task with
    shellCommandIds := addMissing task.shellCommandIds command.commandId
    status := if command.status = .succeeded then .running else .failed
    evidenceRefs := addMissing task.evidenceRefs ("sandbox_shell_command:" ++ command.commandId) }

def recordCommand (s : SandboxState) (request : ShellRequest) (command : ShellCommand) :
    Except String ShellCommand × SandboxState :=
  match request.taskId.filter (· ≠ "") with
  | none => (.ok command, s)
  | some taskId =>
    match s.tasks taskId with
    | none => (.ok command, s)
    | some task =>
      let updated := task.afterCommand command
      (.ok command, { s with tasks := Function.update s.tasks taskId (some updated) })

/-- The record of a process that has ended or was stopped. -/
def commandOf (env : SandboxEnv) (services : ShellServices) (policy : SandboxShellPolicy)
    (request : ShellRequest) (commandId : String) (argv : List String) :
    ProcessOutcome → Except String ShellCommand
  | .completed exitCode stdout stderr => .ok
    { commandId := commandId
      command := request.command
      normalizedCommand := argv
      cwdRelative := request.cwdRelative
      category := shellCategory env request
      status := if exitCode = 0 then .succeeded else .failed
      reasonCode := "sandbox_shell_allowed"
      exitCode := some exitCode
      stdout := redactText (boundedOutput env services stdout (policy.maxOutputKb * 1024))
      stderr := redactText (boundedOutput env services stderr (policy.maxOutputKb * 1024)) }
  | .timeout text => .ok
    { commandId := commandId
      command := request.command
      normalizedCommand := argv
      cwdRelative := request.cwdRelative
      category := shellCategory env request
      status := .failed
      reasonCode := "sandbox_shell_timeout"
      stderr := redactText text }
  | .raised error => .error error

/-- `run`, for a system that tells what comes of a process and what files it leaves. -/
def runShell (env : SandboxEnv) (services : ShellServices) (policy : SandboxShellPolicy)
    (process : FileTree Bytes → List String → ProcessOutcome × FileTree Bytes) (s : SandboxState)
    (request : ShellRequest) (commandId : String) : Except String ShellCommand × SandboxState :=
  match shellDecision env services policy s request with
  | .error e => (.error e, s)
  | .ok (some reason) =>
    (.ok
      { commandId := commandId
        command := request.command
        cwdRelative := request.cwdRelative
        category := shellCategory env request
        status := .blocked
        reasonCode := reason }, s)
  | .ok none =>
    match shellWords services.posix request.command with
    | none => (.error "ValueError", s)
    | some argv =>
      if argv = [] then (.error "IndexError", s)
      else
        let ran := process s.files argv
        let s := { s with files := ran.2 }
        match commandOf env services policy request commandId argv ran.1 with
        | .error e => (.error e, s)
        | .ok command => recordCommand s request command

/-- The words of the process that `run` starts, if it starts one. -/
def startedProcess (env : SandboxEnv) (services : ShellServices) (policy : SandboxShellPolicy)
    (s : SandboxState) (request : ShellRequest) : Option (List String) :=
  match shellDecision env services policy s request with
  | .ok none => (shellWords services.posix request.command).filter (· ≠ [])
  | _ => none

theorem runShell_of_not_started
    (process : FileTree Bytes → List String → ProcessOutcome × FileTree Bytes)
    (request : ShellRequest) (commandId : String) {services : ShellServices}
    {policy : SandboxShellPolicy} (h : startedProcess env services policy s request = none) :
    (runShell env services policy process s request commandId).2 = s := by
  unfold startedProcess at h
  unfold runShell
  cases hdecision : shellDecision env services policy s request with
  | error e => rfl
  | ok decision =>
    rw [hdecision] at h
    cases decision with
    | some reason => rfl
    | none =>
      dsimp only at h ⊢
      cases hwords : shellWords services.posix request.command with
      | none => rfl
      | some argv =>
        rw [hwords] at h
        dsimp only
        by_cases hnil : argv = []
        · rw [if_pos hnil]
        · simp [hnil] at h

/-- What is run, as a text in which patterns can be found. -/
def joinedWords (env : SandboxEnv) (argv : List String) : String :=
  env.casefold (" ".intercalate argv)

def ShellRequest.withoutCategory (request : ShellRequest) : ShellRequest :=
  { request with category := none }

/-- A command is judged by what it runs: a process is started only if the class of the command is
allowed and no blocked pattern is found in the words that are run, whatever the caller says. -/
structure JudgesCommand (env : SandboxEnv) (services : ShellServices)
    (policy : SandboxShellPolicy) (s : SandboxState) (request : ShellRequest) : Prop where
  /-- The class of the command is allowed. -/
  classified : startedProcess env services policy s request ≠ none →
    classifyShell env request.command ∈ policy.allowedCategories
  /-- No blocked pattern is found in what is run. -/
  unblocked : ∀ argv, startedProcess env services policy s request = some argv →
    ∀ pattern ∈ policy.blockedPatterns, services.search pattern (joinedWords env argv) = false
  stricter : shellDecision env services policy s request = .ok none →
    shellDecision env services policy s request.withoutCategory = .ok none

/-- A request gets as far as its category: its workspace may be written, its directory is in the
root, and no blocked pattern is found in its text. -/
structure ReachesCategory (env : SandboxEnv) (services : ShellServices)
    (policy : SandboxShellPolicy) (s : SandboxState) (request : ShellRequest) : Prop where
  place : ∃ workspace root, getWorkspace s request.workspaceId = .ok workspace ∧
    operationRoot s request.workspaceId request.taskId = .ok root ∧
    workspace.role ≠ .readonly ∧ allowPath env root request.cwd "shell" = none
  text : blockedPattern? services policy (env.casefold request.command) = none

/-- The request names an allowed category for a command whose own class is not allowed. -/
def OverridesClass (env : SandboxEnv) (policy : SandboxShellPolicy) (request : ShellRequest) :
    Prop :=
  ∃ category, request.category = some category ∧ category ≠ "" ∧
    category ∈ policy.allowedCategories ∧
    classifyShell env request.command ∉ policy.allowedCategories

/-- The words that are run are not those of the text, and a blocked pattern is found in them. -/
def HidesByQuotes (env : SandboxEnv) (services : ShellServices) (policy : SandboxShellPolicy)
    (request : ShellRequest) : Prop :=
  ∃ argv, shellWords services.posix request.command = some argv ∧ argv ≠ [] ∧
    " ".intercalate argv ≠ request.command ∧
    ∃ pattern ∈ policy.blockedPatterns, services.search pattern (joinedWords env argv) = true

variable {services : ShellServices} {policy : SandboxShellPolicy} {request : ShellRequest}

theorem blockedPattern?_eq_none_iff {text : String} : blockedPattern? services policy text = none ↔
      ∀ pattern ∈ policy.blockedPatterns, services.search pattern text = false := by
  simp [blockedPattern?, List.find?_eq_none]

theorem shellDecision_eq_none_iff : shellDecision env services policy s request = .ok none ↔
      ReachesCategory env services policy s request ∧
        shellCategory env request ∈ policy.allowedCategories := by
  constructor
  · intro h
    unfold shellDecision at h
    obtain ⟨workspace, hworkspace, h⟩ := value_bind_ok_iff.mp h
    obtain ⟨root, hroot, h⟩ := value_bind_ok_iff.mp h
    split at h
    · cases h
    · rename_i hrole
      have hallow : allowShell env services policy root request = none := Except.ok.inj h
      unfold allowShell at hallow
      split at hallow
      · cases hallow
      · rename_i hpath
        split at hallow
        · cases hallow
        · rename_i htext
          split at hallow
          · cases hallow
          · rename_i hcategory
            exact ⟨⟨⟨workspace, root, hworkspace, hroot, hrole, hpath⟩, htext⟩,
              not_not.mp hcategory⟩
  · rintro ⟨⟨⟨workspace, root, hworkspace, hroot, hrole, hpath⟩, htext⟩, hcategory⟩
    have hallow : allowShell env services policy root request = none := by
      unfold allowShell
      rw [hpath, htext]
      dsimp only
      rw [if_neg (not_not.mpr hcategory)]
    unfold shellDecision
    rw [hworkspace, hroot]
    change (if workspace.role = .readonly then _ else _) = _
    rw [if_neg hrole, hallow]
    rfl

theorem startedProcess_eq_some_iff {argv : List String} :
    startedProcess env services policy s request = some argv ↔
      shellDecision env services policy s request = .ok none ∧
        shellWords services.posix request.command = some argv ∧ argv ≠ [] := by
  unfold startedProcess
  constructor
  · intro h
    split at h
    · rename_i hdecision
      obtain ⟨hwords, hne⟩ := filter_eq_some_iff.mp h
      exact ⟨hdecision, hwords, by simpa using hne⟩
    · cases h
  · rintro ⟨hdecision, hwords, hne⟩
    rw [hdecision]
    dsimp only
    rw [filter_eq_some_iff]
    exact ⟨hwords, by simpa using hne⟩

theorem shellCategory_cases (env : SandboxEnv) (request : ShellRequest) :
    shellCategory env request = classifyShell env request.command ∨
      ∃ category, request.category = some category ∧ category ≠ "" ∧
        shellCategory env request = category := by
  unfold shellCategory
  generalize classifyShell env request.command = classified
  cases hgiven : request.category with
  | none => exact Or.inl rfl
  | some category =>
    by_cases hne : category = ""
    · left
      simp [hne, filter_some]
    · right
      exact ⟨category, rfl, hne, by simp [hne, filter_some]⟩

theorem shellCategory_of_given {category : String} (hgiven : request.category = some category)
    (hne : category ≠ "") : shellCategory env request = category := by
  unfold shellCategory
  generalize classifyShell env request.command = classified
  rw [hgiven]
  simp [hne, filter_some]

theorem shellCategory_withoutCategory (env : SandboxEnv) (request : ShellRequest) :
    shellCategory env request.withoutCategory = classifyShell env request.command := by
  unfold shellCategory ShellRequest.withoutCategory
  dsimp only
  generalize classifyShell env request.command = classified
  rfl

theorem reachesCategory_withoutCategory :
    ReachesCategory env services policy s request.withoutCategory ↔
      ReachesCategory env services policy s request :=
  ⟨fun h => ⟨h.place, h.text⟩, fun h => ⟨h.place, h.text⟩⟩

/-- A command is judged by what it runs exactly if the request does not get to its category, or
its caller overrides no class that is not allowed and its quotes hide no blocked pattern. -/
theorem judges_command_iff : JudgesCommand env services policy s request ↔
      (ReachesCategory env services policy s request → ¬OverridesClass env policy request ∧
          (shellCategory env request ∈ policy.allowedCategories →
            ¬HidesByQuotes env services policy request)) := by
  constructor
  · intro h hreaches
    constructor
    · rintro ⟨category, hgiven, hne, hallowed, hclass⟩
      rw [← shellCategory_of_given hgiven hne] at hallowed
      have hadmitted := h.stricter (shellDecision_eq_none_iff.mpr ⟨hreaches, hallowed⟩)
      have hplain := (shellDecision_eq_none_iff.mp hadmitted).2
      rw [shellCategory_withoutCategory] at hplain
      exact hclass hplain
    · rintro hallowed ⟨argv, hwords, hne, -, pattern, hpattern, hfound⟩
      have hstarted := startedProcess_eq_some_iff.mpr
        ⟨shellDecision_eq_none_iff.mpr ⟨hreaches, hallowed⟩, hwords, hne⟩
      rw [h.unblocked argv hstarted pattern hpattern] at hfound
      cases hfound
  · intro h
    have hclass : shellDecision env services policy s request = .ok none →
        ReachesCategory env services policy s request ∧
          classifyShell env request.command ∈ policy.allowedCategories := by
      intro hdecision
      obtain ⟨hreaches, hallowed⟩ := shellDecision_eq_none_iff.mp hdecision
      refine ⟨hreaches, ?_⟩
      rcases shellCategory_cases env request with hsame | ⟨category, hgiven, hne, hsame⟩
      · rwa [hsame] at hallowed
      · by_contra hnot
        rw [hsame] at hallowed
        exact (h hreaches).1 ⟨category, hgiven, hne, hallowed, hnot⟩
    refine ⟨?_, ?_, ?_⟩
    · intro hstarted
      obtain ⟨argv, hargv⟩ := ne_none_iff_exists'.mp hstarted
      exact (hclass (startedProcess_eq_some_iff.mp hargv).1).2
    · intro argv hstarted pattern hpattern
      obtain ⟨hdecision, hwords, hne⟩ := startedProcess_eq_some_iff.mp hstarted
      obtain ⟨hreaches, hallowed⟩ := shellDecision_eq_none_iff.mp hdecision
      by_cases hsame : " ".intercalate argv = request.command
      · have htext := blockedPattern?_eq_none_iff.mp hreaches.text pattern hpattern
        rwa [joinedWords, hsame]
      · by_contra hfound
        rw [Bool.not_eq_false] at hfound
        exact (h hreaches).2 hallowed ⟨argv, hwords, hne, hsame, pattern, hpattern, hfound⟩
    · intro hdecision
      obtain ⟨hreaches, hallowed⟩ := hclass hdecision
      rw [shellDecision_eq_none_iff, reachesCategory_withoutCategory, shellCategory_withoutCategory]
      exact ⟨hreaches, hallowed⟩

/-- A search that finds the word `rm` in the texts below as the first pattern does. -/
def rmServices : ShellServices where
  posix := true
  search pattern text :=
    decide (pattern = "\\bdel\\b|\\brm\\b|\\bformat\\b|\\bshutdown\\b|\\brestart-computer\\b") &&
      "rm ".toList.isPrefixOf text.toList
  decode _ := ""

/-- A command of no known class, with the word of its caller. -/
def overriddenRequest : ShellRequest where
  workspaceId := "sandbox_ws_default"
  command := "make install"
  category := some "test_shell"

def quotedRequest : ShellRequest where
  workspaceId := "sandbox_ws_default"
  command := "r'm' -rf pytest"

/-- The word of a caller admits a command of no known class, and a quoted letter hides the
program that is run. -/
theorem commands_misjudged :
    ¬JudgesCommand plainEnv rmServices sandboxPolicyFile plainStart overriddenRequest ∧
      ¬JudgesCommand plainEnv rmServices sandboxPolicyFile plainStart quotedRequest := by
  constructor
  · intro h
    have hclass := h.classified (by decide +kernel)
    exact absurd hclass (by decide +kernel)
  · intro h
    have hstarted : startedProcess plainEnv rmServices sandboxPolicyFile plainStart quotedRequest =
        some ["rm", "-rf", "pytest"] := by decide +kernel
    have hfound := h.unblocked _ hstarted
      "\\bdel\\b|\\brm\\b|\\bformat\\b|\\bshutdown\\b|\\brestart-computer\\b" (by decide +kernel)
    exact absurd hfound (by decide +kernel)

end AIpinho.Sandbox
