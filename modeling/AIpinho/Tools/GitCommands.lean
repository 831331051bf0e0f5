import Mathlib.Data.List.DropRight
import Mathlib.Data.String.Basic

/-!
# Git commands

The classifier reads the arguments of a Git command: it skips the options before the
subcommand, looks for what is destructive, and takes the first words that are no options for
the remote and the branch.
-/

namespace AIpinho.Tools

/-- What Python answers about texts and paths. -/
structure CommandServices where
  /-- `str.casefold`. -/
  casefold : String → String
  /-- `str.lower`. -/
  lower : String → String
  /-- `str.strip`. -/
  strip : String → String
  /-- `Path(text).name`. -/
  baseName : String → String

inductive GitOperationClass
  | localRead | networkRead | worktreeWrite | commit | push | destructive | unknown
  deriving DecidableEq

/-- `GitCommandClassification`. -/
structure GitClassification where
  operationClass : GitOperationClass
  operation : String
  capability : String
  capabilitiesRequired : List String := [capability]
  networkRequired : Bool := false
  requiresRemoteScope : Bool := false
  worktreeMutation : Bool := false
  destructive : Bool := false
  safeForGovernedExecution : Bool := false
  remoteName : Option String := none
  branch : Option String := none
  reasonCode : String
  deriving DecidableEq

/-- `str.startswith`. -/
def startsWith (text start : String) : Bool := start.toList.isPrefixOf text.toList

/-- `text.strip('"')`. -/
def stripDoubleQuotes (text : String) : String :=
  String.ofList ((text.toList.dropWhile (· == '"')).rdropWhile (· == '"'))

namespace GitCommands

/-- The options before the subcommand that take the next word. -/
def globalOptionsWithValue : List String := ["-C", "-c", "--git-dir", "--work-tree", "--namespace"]

/-- `_subcommand`: the first word that is no option, with what comes after it. -/
def subcommand (services : CommandServices) : List String → Option (String × List String)
  | [] => none
  | [token] =>
    if globalOptionsWithValue.contains token || startsWith token "-" then none
    else some (services.casefold token, [])
  | token :: value :: args =>
    if globalOptionsWithValue.contains token then subcommand services args
    else if startsWith token "-" then subcommand services (value :: args)
    else some (services.casefold token, value :: args)

/-- The options after the subcommand that take the next word. -/
def optionsWithValue : List String :=
  ["-b", "--branch", "--depth", "--filter", "--upload-pack", "--receive-pack"]

def positionals : List String → List String
  | [] => []
  | [token] =>
    if optionsWithValue.contains token || startsWith token "-" then [] else [token]
  | token :: next :: args =>
    if optionsWithValue.contains token then positionals args
    else if startsWith token "-" then positionals (next :: args)
    else token :: positionals (next :: args)

/-- A text before and after its first `:`. -/
def splitColon (text : String) : Option (String × String) :=
  let chars := text.toList
  if ':' ∈ chars then
    some (String.ofList (chars.takeWhile (· ≠ ':')),
      String.ofList ((chars.dropWhile (· ≠ ':')).drop 1))
  else none

def branchOf (refspec : String) : Option String :=
  match splitColon refspec with
  | none => some refspec
  | some (source, destination) =>
    if destination ≠ "" then some destination else if source ≠ "" then some source else none

def remoteAndBranch (args : List String) : Option String × Option String :=
  let positional := positionals args
  (positional[0]?, positional[1]?.bind branchOf)

def optionValue (names : List String) : List String → Option String
  | [] => none
  | token :: args =>
    match (if names.contains token then args.head? else none) with
    | some value => some value
    | none =>
      match names.find? fun name => startsWith token (name ++ "=") with
      | some name => some (String.ofList (token.toList.drop (name ++ "=").length))
      | none => optionValue names args

def networkTarget (subcommand : String) (args : List String) : Option String × Option String :=
  let positional := positionals args
  if subcommand = "clone" then (positional[0]?, optionValue ["-b", "--branch"] args)
  else if subcommand = "ls-remote" then (positional[0]?, positional[1]?)
  else remoteAndBranch args

/-- `_destructive_reason`, of the folded arguments. -/
def destructiveReason (subcommand : String) (lowered : List String) : Option String :=
  let has (flags : List String) : Bool := flags.any lowered.contains
  if subcommand = "reset" then some "git_history_or_worktree_reset_denied"
  else if subcommand = "clean" then some "git_clean_denied"
  else if subcommand = "push" ∧
      has ["-f", "--force", "--force-with-lease", "--mirror", "--delete"] then
    some "git_force_or_delete_push_denied"
  else if subcommand = "push" ∧ lowered.any (startsWith · ":") then
    some "git_force_or_delete_push_denied"
  else if subcommand = "branch" ∧ has ["-d", "-D", "--delete"] then
    some "git_branch_delete_denied"
  else if subcommand = "commit" ∧ has ["--amend"] then some "git_history_rewrite_denied"
  else if subcommand = "checkout" ∧ has ["-b", "-B"] then
    some "git_branch_reset_or_create_denied"
  else if subcommand = "switch" ∧ has ["-c", "-C"] then
    some "git_branch_reset_or_create_denied"
  else if ["rebase", "merge", "cherry-pick", "revert", "rm"].contains subcommand then
    some "git_history_or_destructive_worktree_operation_denied"
  else none

def destructiveOperation (subcommand : String) (lowered : List String) : String :=
  if subcommand = "push" then "git_force_push"
  else if subcommand = "branch" then "git_branch_delete"
  else if subcommand = "clean" then "git_clean"
  else if subcommand = "reset" then "git_history_rewrite"
  else if subcommand = "commit" ∧ lowered.contains "--amend" then "git_history_rewrite"
  else "git_destructive"

/-- `LOCAL_READ`. -/
def localReads : List (String × String) :=
  [("status", "git_status"), ("diff", "git_diff"), ("log", "git_log"), ("show", "git_show"),
    ("rev-parse", "git_rev_parse"), ("ls-files", "git_ls_files")]

/-- `NETWORK_READ`. -/
def networkReads : List (String × String) :=
  [("clone", "git_clone"), ("fetch", "git_fetch"), ("ls-remote", "git_ls_remote")]

/-- `WORKTREE_WRITE`. -/
def worktreeWrites : List (String × String) :=
  [("checkout", "git_checkout"), ("switch", "git_switch"), ("restore", "git_restore"),
    ("add", "git_add")]

def branchIsReadonly (lowered : List String) : Bool :=
  !(["-d", "--delete", "-m", "--move", "-c", "--copy", "-f", "--force"].any lowered.contains)

def remoteIsReadonly : List String → Bool
  | [] => true
  | first :: _ => ["-v", "show", "get-url"].contains first

def configIsReadonly : List String → Bool
  | [] => false
  | first :: _ => ["--get", "--get-all", "--get-regexp", "--list", "-l"].contains first

def unknown (reason : String) : GitClassification where
  operationClass := .unknown
  operation := "git_unknown"
  capability := "git_unknown"
  reasonCode := reason

def localRead (operation : String) : GitClassification where
  operationClass := .localRead
  operation
  capability := "git_local_read"
  reasonCode := "git_local_read_classified"
  safeForGovernedExecution := true

def networkRead (subcommand operation : String) (tail : List String) : GitClassification where
  operationClass := .networkRead
  operation
  capability := operation
  capabilitiesRequired := [operation, "outbound_network"]
  networkRequired := true
  requiresRemoteScope := true
  worktreeMutation := subcommand = "clone"
  remoteName := (networkTarget subcommand tail).1
  branch := (networkTarget subcommand tail).2
  reasonCode := "git_network_read_classified"
  safeForGovernedExecution := true

def pullForward (tail : List String) : GitClassification where
  operationClass := .networkRead
  operation := "git_pull_ff"
  capability := "git_pull_ff"
  capabilitiesRequired := ["git_pull_ff", "outbound_network"]
  networkRequired := true
  requiresRemoteScope := true
  worktreeMutation := true
  remoteName := (remoteAndBranch tail).1
  branch := (remoteAndBranch tail).2
  reasonCode := "git_fast_forward_pull_classified"
  safeForGovernedExecution := true

def worktreeWrite (operation : String) (tail : List String) : GitClassification where
  operationClass := .worktreeWrite
  operation
  capability := "git_worktree_write"
  worktreeMutation := true
  branch := (positionals tail)[0]?
  reasonCode := "git_worktree_write_classified"
  safeForGovernedExecution := true

def commit : GitClassification where
  operationClass := .commit
  operation := "git_commit"
  capability := "git_commit"
  requiresRemoteScope := true
  worktreeMutation := true
  reasonCode := "git_commit_classified"
  safeForGovernedExecution := true

def push (tail : List String) : GitClassification where
  operationClass := .push
  operation := "git_push"
  capability := "git_push"
  capabilitiesRequired := ["git_push", "outbound_network"]
  networkRequired := true
  requiresRemoteScope := true
  remoteName := (remoteAndBranch tail).1
  branch := (remoteAndBranch tail).2
  reasonCode := "git_push_classified"
  safeForGovernedExecution := true

variable (services : CommandServices)

def classifySubcommand (subcommand : String) (tail : List String) : GitClassification :=
  let lowered := tail.map services.casefold
  match destructiveReason subcommand lowered with
  | some reason =>
    { operationClass := .destructive
      operation := destructiveOperation subcommand lowered
      capability := "git_destructive"
      destructive := true
      worktreeMutation := true
      reasonCode := reason }
  | none =>
    match localReads.lookup subcommand with
    | some operation => localRead operation
    | none =>
      if subcommand = "branch" ∧ branchIsReadonly lowered then localRead "git_branch_read"
      else if subcommand = "remote" ∧ remoteIsReadonly lowered then localRead "git_remote_read"
      else if subcommand = "config" ∧ configIsReadonly lowered then localRead "git_config_read"
      else
        match networkReads.lookup subcommand with
        | some operation => networkRead subcommand operation tail
        | none =>
          if subcommand = "pull" ∧ lowered.contains "--ff-only" then pullForward tail
          else
            match worktreeWrites.lookup subcommand with
            | some operation => worktreeWrite operation tail
            | none =>
              if subcommand = "commit" then commit
              else if subcommand = "push" then push tail
              else unknown "git_subcommand_not_governed"

/-- The names of the program. -/
def isGit (executable : String) : Bool := executable = "git" || executable = "git.exe"

/-- The name of the program that a first word starts. -/
def executableName (token : String) : String :=
  services.lower (services.baseName (stripDoubleQuotes token))

/-- `GitCommandClassificationService.classify`. -/
def classify : List String → GitClassification
  | [] => unknown "git_executable_required"
  | token :: args =>
    if !isGit (executableName services token) then unknown "git_executable_required"
    else
      match subcommand services args with
      | none => unknown "git_subcommand_required"
      | some (subcommand, tail) => classifySubcommand services subcommand tail

end GitCommands

end AIpinho.Tools
