import AIpinho.Lib.ShellWords
import AIpinho.Mission.Contract
import AIpinho.Tools.GitCommands

/-!
# Shell commands

A command is given as a list of arguments or as a text. Git commands get the class of their
operation, the others the first category of the policy that lists the program or a part of the
text.
-/

namespace AIpinho.Tools

open Lib
open AIpinho.Mission (containsText)

/-- One category of the policy. -/
structure CategoryRules where
  category : String
  executables : List String
  /-- The parts of a text that belong to it. -/
  tokens : List String

/-- What the policy file says of shells. -/
structure ShellPolicy where
  categories : List CategoryRules
  blockedCategories : List String
  approvalRequiredCategories : List String
  /-- The programs that may be run, or nothing if all may. -/
  allowedExecutables : List String
  /-- The programs that may not be run. -/
  deniedExecutables : List String
  /-- The parts of a text with which it is not run. -/
  deniedTokens : List String

/-- `ShellCommandCategory`. -/
def shellCommandCategories : List String :=
  ["readonly_shell", "test_shell", "build_shell", "package_shell", "write_shell",
    "destructive_shell", "git_read_shell", "git_network_read_shell", "git_worktree_shell",
    "git_commit_shell", "git_push_shell", "git_destructive_shell", "git_write_shell",
    "network_shell", "process_control_shell", "unknown_shell"]

/-- The decision about a category. -/
inductive ShellDecision
  | allowed | approvalRequired | blocked
  deriving DecidableEq

/-- `ShellCommandClassification`, without its identifier and its trace. -/
structure ShellClassification where
  normalizedCommand : String
  category : String
  policyDecision : ShellDecision
  riskScore : String
  expectedSideEffects : List String
  reasons : List String
  gitClassification : Option GitClassification
  deriving DecidableEq

namespace ShellCommands

variable (services : CommandServices) (policy : ShellPolicy)

variable (argv : Option (List String))

def normalized (command : String) : String :=
  match argv with
  | some (token :: args) => " ".intercalate (token :: args)
  | _ => services.strip command

def tokens (command : String) : List String :=
  match argv with
  | some (token :: args) => token :: args
  | _ =>
    match shellWords false command with
    | some (token :: args) => token :: args
    | _ => [""]

def executable (command : String) : String :=
  if normalized services argv command = "" then ""
  else GitCommands.executableName services ((tokens argv command).headD "")

def gitShellCategory : GitOperationClass → String
  | .localRead => "git_read_shell"
  | .networkRead => "git_network_read_shell"
  | .worktreeWrite => "git_worktree_shell"
  | .commit => "git_commit_shell"
  | .push => "git_push_shell"
  | .destructive | .unknown => "git_destructive_shell"

/-- `_category` over the categories that are left. -/
def categoryIn (lowered executable : String) : List CategoryRules → String × List String
  | [] => ("unknown_shell", ["no_shell_category_match"])
  | rules :: rest =>
    let found := (rules.tokens.map services.lower).filter (containsText lowered)
    if executable ≠ "" ∧ executable ∈ rules.executables.map services.lower then
      (rules.category, ["executable:" ++ executable])
    else if found ≠ [] then (rules.category, (found.map ("token:" ++ ·)).take 5)
    else categoryIn lowered executable rest

variable (category : String)

def risk : String :=
  if ["readonly_shell", "git_read_shell"].contains category then "low"
  else if ["test_shell", "build_shell", "package_shell", "network_shell",
      "process_control_shell", "git_network_read_shell"].contains category then "medium"
  else if ["write_shell", "unknown_shell", "git_worktree_shell", "git_commit_shell"].contains
      category then "high"
  else "critical"

def expectedSideEffects : List String :=
  if ["readonly_shell", "git_read_shell"].contains category then [] else [category]

def decisionOf : ShellDecision :=
  if policy.blockedCategories.contains category then .blocked
  else if policy.approvalRequiredCategories.contains category then .approvalRequired
  else .allowed

def classificationOf (normalized : String) (git : Option GitClassification) (category : String)
    (reasons : List String) : Except String ShellClassification :=
  if shellCommandCategories.contains category then
    .ok { normalizedCommand := normalized
          category
          policyDecision := decisionOf policy category
          riskScore := risk category
          expectedSideEffects := expectedSideEffects category
          reasons
          gitClassification := git }
  else .error "ValidationError"

/-- `ShellCommandPolicyService.classify`, with a classifier of Git commands. -/
def classify (gitClassifier : List String → GitClassification) (argv : Option (List String))
    (command : String) : Except String ShellClassification :=
  let normalized := normalized services argv command
  let executable := executable services argv command
  if GitCommands.isGit executable then
    let git := gitClassifier (tokens argv command)
    classificationOf policy normalized (some git) (gitShellCategory git.operationClass)
      [git.reasonCode, "git_operation:" ++ git.operation, "git_capability:" ++ git.capability]
  else
    let (category, reasons) :=
      categoryIn services (services.lower normalized) executable policy.categories
    classificationOf policy normalized none category reasons

end ShellCommands

end AIpinho.Tools
