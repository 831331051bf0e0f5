import Mathlib.Data.List.Infix
import AIpinho.Tools.GovernedRuns

/-!
# What is judged and what is run

A command is judged as a list of arguments or as a text, and what is run is parsed from the same
request by other rules. The two have the same category and Git classification under every policy
exactly if they are the same words, or at least the same program and text.
-/

namespace AIpinho.Tools

open List Lib
open AIpinho.Mission (containsText)

/-- A command as the classifier gets it. -/
structure GivenCommand where
  argv : Option (List String)
  text : String

/-- Arguments without a text. -/
def GivenCommand.ofArgv (argv : List String) : GivenCommand := ⟨some argv, ""⟩

namespace GivenCommand

variable (services : CommandServices) (command : GivenCommand)

def normalized : String := ShellCommands.normalized services command.argv command.text

def tokens : List String := ShellCommands.tokens command.argv command.text

/-- The program. -/
def executable : String := ShellCommands.executable services command.argv command.text

def isGit : Bool := GitCommands.isGit (command.executable services)

def classOf (policy : ShellPolicy) (gitClassifier : List String → GitClassification) :
    Except String (String × Option GitClassification) :=
  (ShellCommands.classify services policy gitClassifier command.argv command.text).map
    fun classification => (classification.category, classification.gitClassification)

/-- Both commands have the same class. -/
def Agrees (policy : ShellPolicy) (gitClassifier : List String → GitClassification)
    (other : GivenCommand) : Prop :=
  command.classOf services policy gitClassifier = other.classOf services policy gitClassifier

/-- Two commands are the same: of Git with the same words, or others with the same program and
the same text up to small letters. -/
def IsSame (other : GivenCommand) : Prop :=
  command.isGit services = other.isGit services ∧
    (command.isGit services = true → command.tokens = other.tokens) ∧
    (command.isGit services = false → command.executable services = other.executable services ∧
      services.lower (command.normalized services) = services.lower (other.normalized services))

variable {services command} {other : GivenCommand} {policy : ShellPolicy}
  {gitClassifier : List String → GitClassification}

theorem map_classificationOf (normalized : String) (git : Option GitClassification)
    (category : String) (reasons : List String) :
    (ShellCommands.classificationOf policy normalized git category reasons).map
        (fun classification => (classification.category, classification.gitClassification)) =
      if shellCommandCategories.contains category then .ok (category, git)
      else .error "ValidationError" := by
  unfold ShellCommands.classificationOf
  split <;> rfl

theorem gitShellCategory_known (operationClass : GitOperationClass) :
    shellCommandCategories.contains (ShellCommands.gitShellCategory operationClass) = true := by
  cases operationClass <;> rfl

theorem classOf_of_isGit (h : command.isGit services = true) :
    command.classOf services policy gitClassifier =
      .ok (ShellCommands.gitShellCategory (gitClassifier command.tokens).operationClass,
        some (gitClassifier command.tokens)) := by
  have hgit : GitCommands.isGit (ShellCommands.executable services command.argv command.text) =
      true := h
  unfold classOf ShellCommands.classify
  dsimp only
  rw [if_pos hgit, map_classificationOf, gitShellCategory_known, if_pos rfl]
  rfl

theorem classOf_of_not_isGit (h : command.isGit services = false) :
    command.classOf services policy gitClassifier =
      (let category := (ShellCommands.categoryIn services
        (services.lower (command.normalized services)) (command.executable services)
        policy.categories).1
      if shellCommandCategories.contains category then .ok (category, none)
      else .error "ValidationError") := by
  have hgit : GitCommands.isGit (ShellCommands.executable services command.argv command.text) =
      false := h
  unfold classOf ShellCommands.classify
  dsimp only
  rw [hgit, if_neg (by simp), map_classificationOf]
  rfl

theorem agrees_iff_exists {judged : ShellClassification}
    (h : ShellCommands.classify services policy gitClassifier command.argv command.text =
      .ok judged) :
    command.Agrees services policy gitClassifier other ↔ ∃ started,
      ShellCommands.classify services policy gitClassifier other.argv other.text = .ok started ∧
        started.category = judged.category ∧
        started.gitClassification = judged.gitClassification := by
  unfold Agrees classOf
  rw [h]
  cases hother : ShellCommands.classify services policy gitClassifier other.argv other.text with
  | error e => simp [Except.map]
  | ok started => simp [Except.map, eq_comm]

theorem IsSame.agrees (h : command.IsSame services other) (policy : ShellPolicy)
    (gitClassifier : List String → GitClassification) :
    command.Agrees services policy gitClassifier other := by
  obtain ⟨hkind, hwords, htext⟩ := h
  unfold Agrees
  cases hgit : command.isGit services with
  | true =>
    rw [classOf_of_isGit hgit, classOf_of_isGit (hkind ▸ hgit), hwords hgit]
  | false =>
    obtain ⟨hexecutable, hlowered⟩ := htext hgit
    rw [classOf_of_not_isGit hgit, classOf_of_not_isGit (hkind ▸ hgit), hexecutable, hlowered]

def onlyCategory (executables tokens : List String) : ShellPolicy where
  categories := [⟨"readonly_shell", executables, tokens⟩]
  blockedCategories := []
  approvalRequiredCategories := []
  allowedExecutables := []
  deniedExecutables := []
  deniedTokens := []

def onlyWords (words tokens : List String) : GitClassification :=
  if tokens = words then GitCommands.localRead "git_status"
  else GitCommands.unknown "git_subcommand_not_governed"

theorem category_onlyCategory (executables tokens : List String) (lowered executable : String) :
    (ShellCommands.categoryIn services lowered executable
        (onlyCategory executables tokens).categories).1 =
      if (executable ≠ "" ∧ executable ∈ executables.map services.lower) ∨
          (tokens.map services.lower).filter (containsText lowered) ≠ [] then
        "readonly_shell" else "unknown_shell" := by
  unfold onlyCategory ShellCommands.categoryIn ShellCommands.categoryIn
  dsimp only
  by_cases hprogram : executable ≠ "" ∧ executable ∈ executables.map services.lower
  · rw [if_pos hprogram, if_pos (Or.inl hprogram)]
  · rw [if_neg hprogram]
    by_cases hfound : (tokens.map services.lower).filter (containsText lowered) ≠ []
    · rw [if_pos hfound, if_pos (Or.inr hfound)]
    · rw [if_neg hfound, if_neg (not_or.mpr ⟨hprogram, hfound⟩)]

theorem classOf_onlyCategory {executables tokens : List String}
    (h : command.isGit services = false) :
    command.classOf services (onlyCategory executables tokens) gitClassifier =
      .ok (if (command.executable services ≠ "" ∧
          command.executable services ∈ executables.map services.lower) ∨
          (tokens.map services.lower).filter
            (containsText (services.lower (command.normalized services))) ≠ []
        then "readonly_shell" else "unknown_shell", none) := by
  rw [classOf_of_not_isGit h, category_onlyCategory]
  dsimp only
  split <;> rfl

theorem containsText_refl (text : String) : containsText text text = true := by
  unfold containsText
  rw [any_eq_true]
  exact ⟨text.toList, (mem_tails _ _).mpr (suffix_refl _), by simp⟩

theorem isInfix_of_containsText {text part : String} (h : containsText text part = true) :
    part.toList <:+: text.toList := by
  unfold containsText at h
  obtain ⟨tail, htail, hprefix⟩ := any_eq_true.mp h
  have hsuffix := (mem_tails _ _).mp htail
  exact ( isPrefixOf_iff_prefix.mp hprefix).isInfix.trans hsuffix.isInfix

theorem containsText_antisymm {text other : String} (h : containsText text other = true)
    (h' : containsText other text = true) : text = other := by
  have hle := (isInfix_of_containsText h).length_le
  have hle' := (isInfix_of_containsText h').length_le
  have hsame : other.toList = text.toList := (isInfix_of_containsText h).eq_of_length (by omega)
  exact String.toList_injective hsame.symm

theorem exists_lower_executable (h : command.executable services ≠ "") :
    ∃ name, services.lower name = command.executable services := by
  unfold executable ShellCommands.executable at h ⊢
  split at h
  · exact absurd rfl h
  · rename_i hnormalized
    rw [if_neg hnormalized]
    exact ⟨_, rfl⟩

theorem isGit_eq_of_agrees
    (h : ∀ policy gitClassifier, command.Agrees services policy gitClassifier other) :
    command.isGit services = other.isGit services := by
  have hagrees := h (onlyCategory [] []) (onlyWords [])
  unfold Agrees at hagrees
  cases hgit : command.isGit services <;> cases hgit' : other.isGit services
  · rfl
  · rw [classOf_onlyCategory hgit, classOf_of_isGit hgit'] at hagrees
    simp at hagrees
  · rw [classOf_of_isGit hgit, classOf_onlyCategory hgit'] at hagrees
    simp at hagrees
  · rfl

theorem tokens_eq_of_agrees
    (h : ∀ policy gitClassifier, command.Agrees services policy gitClassifier other)
    (hgit : command.isGit services = true) : command.tokens = other.tokens := by
  have hgit' : other.isGit services = true := isGit_eq_of_agrees h ▸ hgit
  have hagrees := h (onlyCategory [] []) (onlyWords command.tokens)
  unfold Agrees at hagrees
  rw [classOf_of_isGit hgit, classOf_of_isGit hgit'] at hagrees
  by_contra hne
  have hfirst : onlyWords command.tokens command.tokens = GitCommands.localRead "git_status" :=
    if_pos rfl
  have hsecond : onlyWords command.tokens other.tokens =
      GitCommands.unknown "git_subcommand_not_governed" := if_neg (Ne.symm hne)
  rw [hfirst, hsecond] at hagrees
  simp [GitCommands.localRead, GitCommands.unknown] at hagrees

theorem executable_eq_of_agrees
    (h : ∀ policy gitClassifier, command.Agrees services policy gitClassifier other)
    (hgit : command.isGit services = false) (hgit' : other.isGit services = false)
    (hne : command.executable services ≠ "") :
    command.executable services = other.executable services := by
  obtain ⟨name, hname⟩ := exists_lower_executable hne
  have hagrees := h (onlyCategory [name] []) (onlyWords [])
  unfold Agrees at hagrees
  rw [classOf_onlyCategory hgit, classOf_onlyCategory hgit'] at hagrees
  simp only [map_cons, map_nil, mem_singleton, hname, filter_nil, ne_eq,
    not_true_eq_false, or_false, hne, not_false_eq_true, and_self, if_true] at hagrees
  by_contra hother
  have hsecond : ¬(¬other.executable services = "" ∧
      other.executable services = command.executable services) := fun hboth =>
    hother hboth.2.symm
  rw [if_neg hsecond] at hagrees
  simp at hagrees

theorem containsText_of_agrees
    (h : ∀ policy gitClassifier, command.Agrees services policy gitClassifier other)
    (hgit : command.isGit services = false) (hgit' : other.isGit services = false) :
    containsText (services.lower (other.normalized services))
      (services.lower (command.normalized services)) = true := by
  have hagrees := h (onlyCategory [] [command.normalized services]) (onlyWords [])
  unfold Agrees at hagrees
  rw [classOf_onlyCategory hgit, classOf_onlyCategory hgit'] at hagrees
  simp only [map_nil, not_mem_nil, and_false, false_or, map_cons,
    filter_cons, containsText_refl, if_true, filter_nil, ne_eq, reduceCtorEq,
    not_false_eq_true] at hagrees
  by_contra hnot
  rw [if_neg hnot] at hagrees
  simp at hagrees

theorem Agrees.symm (h : command.Agrees services policy gitClassifier other) :
    other.Agrees services policy gitClassifier command := Eq.symm h

theorem agrees_iff_isSame :
    (∀ policy gitClassifier, command.Agrees services policy gitClassifier other) ↔
      command.IsSame services other := by
  constructor
  · intro h
    have h' : ∀ policy gitClassifier, other.Agrees services policy gitClassifier command :=
      fun policy gitClassifier => (h policy gitClassifier).symm
    have hkind := isGit_eq_of_agrees h
    refine ⟨hkind, tokens_eq_of_agrees h, fun hgit => ?_⟩
    have hgit' : other.isGit services = false := hkind ▸ hgit
    refine ⟨?_, ?_⟩
    · by_cases hne : command.executable services = ""
      · by_contra hother
        have hne' : other.executable services ≠ "" := fun hempty => hother (hne.trans hempty.symm)
        exact hother (executable_eq_of_agrees h' hgit' hgit hne').symm
      · exact executable_eq_of_agrees h hgit hgit' hne
    · exact containsText_antisymm (containsText_of_agrees h' hgit' hgit)
        (containsText_of_agrees h hgit hgit')
  · exact IsSame.agrees

end GivenCommand

namespace GovernedToolExecution

def judgedCommand (service : GovernedToolExecution) (request : GovernedRequest) : GivenCommand :=
  ⟨service.judgedArgv request, service.inputText request "command"⟩

def classifyArgv (service : GovernedToolExecution) (argv : List String) :
    Except String ShellClassification :=
  ShellCommands.classify service.commands service.policy.shell service.gitClassifier (some argv) ""

/-- The command that is started has the category and the Git class of the decision. -/
def RunsAsJudged (service : GovernedToolExecution) (found refound : GovernedFindings)
    (request : GovernedRequest) (xs : List governedStore.Exchange) (argv : List String) : Prop :=
  ∀ decision, Decides service found refound request xs decision → ∃ judged started,
    decision.assessment.bind (·.shell) = some judged ∧ service.classifyArgv argv = .ok started ∧
      started.category = judged.category ∧
      started.gitClassification = judged.gitClassification

variable {service : GovernedToolExecution} {found refound : GovernedFindings}
  {request : GovernedRequest} {xs : List governedStore.Exchange}
  {r : Except String GovernedResult} {argv : List String} {cwd : String} {timeout : ℤ}
  {answer : CommandOutcome}

def ran (argv : List String) (cwd : String) (timeout : ℤ) (answer : CommandOutcome) :
    governedStore.Exchange :=
  ⟨.run argv cwd timeout, answer⟩

def HasJudged (service : GovernedToolExecution) (request : GovernedRequest)
    (decision : GovernedDecision) : Prop :=
  ∃ tool shell, service.registry request.toolId = some tool ∧
    decision.assessment.map (·.tool) = some tool ∧
    decision.assessment.bind (·.shell) = shell ∧ service.shellOf request tool = .ok shell

theorem hasJudged_of_allowed {observation : Option GitObservation} {decision : GovernedDecision}
    (hdecision : service.decision found request observation = .ok decision)
    (hallowed : decision.canonical.any (·.permission = .allowed) = true) :
    HasJudged service request decision := by
  obtain ⟨tool, assessment, hallows⟩ := exists_allows hdecision hallowed
  obtain ⟨shell, error, grant, hshell, -, rfl⟩ := assess_ok hallows.isAssessed
  exact ⟨tool, shell, hallows.isTool, by rw [hallows.isKept]; rfl, by rw [hallows.isKept]; rfl,
    hshell⟩

theorem hasJudged_of_settles {ys : List governedStore.Exchange} {decision : GovernedDecision}
    (hsettles : Settles service found refound request ys decision)
    (hallowed : decision.canonical.any (·.permission = .allowed) = true) :
    HasJudged service request decision := by
  cases hsettles with
  | atOnce decision hdecision hgit => exact hasJudged_of_allowed hdecision hallowed
  | observed first decision git observation ys hfirst hfirstAllowed hgit hobserved hdecision =>
    exact hasJudged_of_allowed hdecision hallowed

theorem judged_of_decides {decision : GovernedDecision}
    (h : (service.execute found refound request).Ends xs r)
    (hmem : ran argv cwd timeout answer ∈ xs)
    (hdecides : Decides service found refound request xs decision) :
    ∃ judged, decision.assessment.bind (·.shell) = some judged ∧
      service.shellClassification request = .ok judged := by
  have hallowed := allowed_of_decides h ⟨_, hmem, rfl⟩ hdecides
  have hjudged : HasJudged service request decision := by
    rcases hdecides with hfirst | ⟨ys, zs, -, hsettles⟩
    · exact hasJudged_of_allowed hfirst hallowed
    · exact hasJudged_of_settles hsettles hallowed
  obtain ⟨tool, shell, htool, -, hshell, hof⟩ := hjudged
  -- The tool is the one whose adapter ran the command.
  obtain ⟨settled, assessment, hcarried⟩ := carried_of_mem h hmem rfl
  obtain ⟨ys, hsettles, -⟩ := hcarried.isSettled
  obtain ⟨tool', -, htool', hkept, -, -⟩ := hasJudged_of_settles hsettles hcarried.isAllowed
  have hsame : assessment.tool = tool := by
    have htools : tool = tool' := Option.some.inj (htool.symm.trans htool')
    rw [hcarried.isAssessed] at hkept
    exact (Option.some.inj hkept).trans htools.symm
  have hruns : tool.runsCommands = true := hsame ▸ hcarried.isAdapted.1
  unfold shellOf at hof
  rw [if_pos hruns] at hof
  cases hclassified : service.shellClassification request with
  | error e =>
    rw [hclassified] at hof
    cases hof
  | ok judged =>
    rw [hclassified] at hof
    cases hof
    exact ⟨judged, hshell, rfl⟩

theorem commandArgv_of_ran (h : (service.execute found refound request).Ends xs r)
    (hmem : ran argv cwd timeout answer ∈ xs) :
    service.commandArgv request = .ok argv ∧ service.executableError argv = none := by
  obtain ⟨settled, assessment, hcarried⟩ := carried_of_mem h hmem rfl
  exact ⟨hcarried.isAdapted.2.1, hcarried.isAdapted.2.2.1⟩

theorem textArgv_eq_some {texts : List String}
    (h : textArgv (.list (texts.map Json.str)) = some argv) : argv = texts := by
  unfold textArgv at h
  dsimp only at h
  induction texts generalizing argv with
  | nil =>
    cases h
    rfl
  | cons text texts ih =>
    rw [map_cons, mapM_cons] at h
    obtain ⟨first, hfirst, h⟩ := Option.bind_eq_some_iff.mp h
    obtain ⟨rest, hrest, h⟩ := Option.bind_eq_some_iff.mp h
    cases h
    have htext : text = first := Option.some.inj (Option.filter_eq_some_iff.mp hfirst).1
    rw [htext, ih hrest]

theorem commandArgv_of_texts {texts : List String}
    (htexts : request.inputAt "argv" = .list (texts.map Json.str))
    (hcommand : request.inputAt "command" = .null) (hstrip : service.commands.strip "" = "")
    (h : service.commandArgv request = .ok argv) : argv = texts := by
  unfold commandArgv at h
  rw [htexts] at h
  cases htext : textArgv (.list (texts.map Json.str)) with
  | some parsed =>
    rw [htext] at h
    cases h
    exact textArgv_eq_some htext
  | none =>
    have hempty : service.inputText request "command" = "" := by
      unfold inputText
      rw [hcommand]
      rfl
    rw [htext, hempty, hstrip] at h
    cases h

theorem runsAsJudged_iff (h : (service.execute found refound request).Ends xs r)
    (hmem : ran argv cwd timeout answer ∈ xs) :
    RunsAsJudged service found refound request xs argv ↔
      (service.judgedCommand request).Agrees service.commands service.policy.shell
        service.gitClassifier (.ofArgv argv) := by
  obtain ⟨first, hfirst⟩ := exists_decision_of_carries h ⟨_, hmem, rfl⟩
  obtain ⟨judged, hjudged, hclassified⟩ := judged_of_decides h hmem (.inl hfirst)
  have hcommand : ShellCommands.classify service.commands service.policy.shell
      service.gitClassifier (service.judgedCommand request).argv
      (service.judgedCommand request).text = .ok judged := hclassified
  rw [GivenCommand.agrees_iff_exists hcommand]
  constructor
  · intro hruns
    obtain ⟨judged', started, hjudged', hstarted, hsame⟩ := hruns first (.inl hfirst)
    cases hjudged.symm.trans hjudged'
    exact ⟨started, hstarted, hsame⟩
  · rintro ⟨started, hstarted, hsame⟩ decision hdecides
    obtain ⟨judged', hjudged', hclassified'⟩ := judged_of_decides h hmem hdecides
    cases hclassified.symm.trans hclassified'
    exact ⟨judged, started, hjudged', hstarted, hsame⟩

def runs (argv : List String) : governedStore.Exchange → Bool
  | ⟨.run other _ _, _⟩ => other = argv
  | _ => false

theorem exists_ran {argv : List String} {ys : List governedStore.Exchange}
    (h : ys.any (runs argv) = true) :
    ∃ cwd timeout answer, ran argv cwd timeout answer ∈ ys := by
  obtain ⟨⟨o, a⟩, hmem, hruns⟩ := any_eq_true.mp h
  cases o with
  | run other cwd timeout =>
    cases of_decide_eq_true hruns
    exact ⟨cwd, timeout, a, hmem⟩
  | gitRead | useGrant | openUrl | makeDirectory => cases hruns

end GovernedToolExecution

end AIpinho.Tools
