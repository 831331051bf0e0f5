import AIpinho.Tools.CommandAgreement

/-!
# Categories of shell commands

The category of a command that is not a Git command is that of the first row of the table which
lists its program or has a token that the whole text of the command contains. A row that comes
early hides those that come later.
-/

namespace AIpinho.Tools

open List Lib
open AIpinho.Mission (containsText)
open GivenCommand (isInfix_of_containsText)
open GovernedToolExecution (shellPolicyFile plainCommands)

def ShellDecision.strictness : ShellDecision → ℕ
  | .allowed => 0
  | .approvalRequired => 1
  | .blocked => 2

namespace ShellCommands

def meets (services : CommandServices) (argv : List String) (rules : CategoryRules) : Bool :=
  let executable := executable services (some argv) ""
  let lowered := services.lower (normalized services (some argv) "")
  (executable ≠ "" && (rules.executables.map services.lower).contains executable) ||
    (rules.tokens.map services.lower).any (containsText lowered)

def firstCategory (met : CategoryRules → Bool) (rows : List CategoryRules) : String :=
  ((rows.find? met).map CategoryRules.category).getD "unknown_shell"

variable {services : CommandServices} {met : CategoryRules → Bool}
  {rows others : List CategoryRules} {names : List String}

theorem meets_eq_true_iff {argv : List String} {rules : CategoryRules} :
    meets services argv rules = true ↔ (executable services (some argv) "" ≠ "" ∧
        executable services (some argv) "" ∈ rules.executables.map services.lower) ∨
      (rules.tokens.map services.lower).filter
        (containsText (services.lower (normalized services (some argv) ""))) ≠ [] := by
  simp [meets, filter_eq_nil_iff]

theorem categoryIn_eq (services : CommandServices) (argv : List String)
    (rows : List CategoryRules) :
    (categoryIn services (services.lower (normalized services (some argv) ""))
      (executable services (some argv) "") rows).1 = firstCategory (meets services argv) rows := by
  induction rows with
  | nil => rfl
  | cons rules rows ih =>
    unfold categoryIn firstCategory
    rw [find?_cons]
    cases hmet : meets services argv rules with
    | true =>
      split
      · rfl
      · rename_i hlisted
        rw [if_pos ((meets_eq_true_iff.mp hmet).resolve_left hlisted)]
        rfl
    | false =>
      have hnot : ¬meets services argv rules = true := by simp [hmet]
      rw [meets_eq_true_iff, not_or] at hnot
      rw [if_neg hnot.1, if_neg hnot.2, ih]
      rfl

theorem firstCategory_append : firstCategory met (rows ++ others) =
      if rows.any met then firstCategory met rows else firstCategory met others := by
  unfold firstCategory
  rw [find?_append]
  cases hfind : rows.find? met with
  | none =>
    have hany : rows.any met = false := by
      rw [any_eq_false]
      exact find?_eq_none.mp hfind
    rw [hany]
    rfl
  | some rules =>
    have hany : rows.any met = true :=
      any_eq_true.mpr ⟨rules, mem_of_find?_eq_some hfind, find?_some hfind⟩
    rw [hany]
    rfl

theorem firstCategory_of_not_any (h : rows.any met = false) :
    firstCategory met rows = "unknown_shell" := by
  rw [any_eq_false] at h
  rw [firstCategory, find?_eq_none.mpr h]
  rfl

theorem firstCategory_mem (h : rows.any met = true) :
    firstCategory met rows ∈ rows.map CategoryRules.category := by
  obtain ⟨rules, hmem, hmet⟩ := any_eq_true.mp h
  cases hfind : rows.find? met with
  | none => exact absurd hmet (find?_eq_none.mp hfind rules hmem)
  | some found =>
    rw [firstCategory, hfind]
    exact mem_map_of_mem (mem_of_find?_eq_some hfind)

theorem firstCategory_append_mem_iff (hrows : ∀ name ∈ rows.map CategoryRules.category,
    name ∉ names) :
    firstCategory met (rows ++ others) ∈ names ↔
      rows.any met = false ∧ firstCategory met others ∈ names := by
  rw [firstCategory_append]
  cases hany : rows.any met with
  | true => simpa using hrows _ (firstCategory_mem hany)
  | false => simp

theorem firstCategory_append_mem_iff' (hrows : ∀ name ∈ rows.map CategoryRules.category,
    name ∈ names) :
    firstCategory met (rows ++ others) ∈ names ↔
      rows.any met = true ∨ firstCategory met others ∈ names := by
  rw [firstCategory_append]
  cases hany : rows.any met with
  | true => simpa using hrows _ (firstCategory_mem hany)
  | false => simp

def guardRows : List CategoryRules := shellPolicyFile.categories.take 5

/-- The rows of tests, builds and packages. -/
def toolRows : List CategoryRules := (shellPolicyFile.categories.drop 5).take 3

def writeRows : List CategoryRules := (shellPolicyFile.categories.drop 8).take 1

def readRows : List CategoryRules := shellPolicyFile.categories.drop 9

def blockedRows : List CategoryRules := shellPolicyFile.categories.take 2

def openRows : List CategoryRules := shellPolicyFile.categories.drop 2

def safeCategories : List String := ["readonly_shell", "test_shell", "build_shell", "package_shell"]

theorem mem_safeCategories_iff : firstCategory met shellPolicyFile.categories ∈ safeCategories ↔
      guardRows.any met = false ∧
        (toolRows.any met = true ∨ writeRows.any met = false ∧ readRows.any met = true) := by
  have hrows : shellPolicyFile.categories =
      guardRows ++ (toolRows ++ (writeRows ++ (readRows ++ []))) := rfl
  have hnone : firstCategory met [] ∉ safeCategories := by
    rw [firstCategory_of_not_any rfl]
    decide
  rw [hrows, firstCategory_append_mem_iff (by decide), firstCategory_append_mem_iff' (by decide),
    firstCategory_append_mem_iff (by decide), firstCategory_append_mem_iff' (by decide),
    or_iff_left hnone]

theorem mem_blockedCategories_iff :
    firstCategory met shellPolicyFile.categories ∈ shellPolicyFile.blockedCategories ↔
      blockedRows.any met = true ∨ openRows.any met = false := by
  have hrows : shellPolicyFile.categories = blockedRows ++ (openRows ++ []) := rfl
  have hnone : firstCategory met [] ∈ shellPolicyFile.blockedCategories := by
    rw [firstCategory_of_not_any rfl]
    decide
  rw [hrows, firstCategory_append_mem_iff' (by decide), firstCategory_append_mem_iff (by decide),
    and_iff_left hnone]

theorem eq_destructive_iff : firstCategory met shellPolicyFile.categories = "destructive_shell" ↔
      (shellPolicyFile.categories.take 1).any met = true := by
  have hrows : shellPolicyFile.categories =
      shellPolicyFile.categories.take 1 ++ (shellPolicyFile.categories.drop 1 ++ []) := rfl
  have hnone : firstCategory met [] ∉ ["destructive_shell"] := by
    rw [firstCategory_of_not_any rfl]
    decide
  rw [← mem_singleton, hrows, firstCategory_append_mem_iff' (by decide),
    firstCategory_append_mem_iff (by decide), ← hrows]
  simp [hnone]

theorem eq_unknown_iff : firstCategory met shellPolicyFile.categories = "unknown_shell" ↔
      shellPolicyFile.categories.any met = false := by
  have hrows : shellPolicyFile.categories = shellPolicyFile.categories ++ [] := rfl
  have hnone : firstCategory met [] ∈ ["unknown_shell"] := by
    rw [firstCategory_of_not_any rfl]
    decide
  rw [← mem_singleton, hrows, firstCategory_append_mem_iff (by decide), and_iff_left hnone, ← hrows]

theorem known_firstCategory :
    shellCommandCategories.contains (firstCategory met shellPolicyFile.categories) = true := by
  have hrows : shellPolicyFile.categories = shellPolicyFile.categories ++ [] := rfl
  have hnone : firstCategory met [] ∈ shellCommandCategories := by
    rw [firstCategory_of_not_any rfl]
    decide
  rw [contains_iff_mem, hrows, firstCategory_append_mem_iff' (by decide)]
  exact .inr hnone

variable {gitClassifier : List String → GitClassification} {command token : String}
  {args more : List String}

theorem classify_of_not_git (gitClassifier : List String → GitClassification)
    (command token : String) (args : List String)
    (h : GitCommands.isGit (GitCommands.executableName services token) = false) :
    ∃ c, classify services shellPolicyFile gitClassifier (some (token :: args)) command = .ok c ∧
      c.category = firstCategory (meets services (token :: args)) shellPolicyFile.categories ∧
      c.policyDecision = decisionOf shellPolicyFile c.category := by
  have hprogram : GitCommands.isGit (executable services (some (token :: args)) command) =
      false := by
    unfold executable
    split
    · decide
    · exact h
  have hcategory := categoryIn_eq services (token :: args) shellPolicyFile.categories
  unfold classify
  dsimp only
  rw [hprogram]
  generalize hfound : categoryIn services
    (services.lower (normalized services (some (token :: args)) command))
    (executable services (some (token :: args)) command) shellPolicyFile.categories = found
  have hfirst : found.1 =
      firstCategory (meets services (token :: args)) shellPolicyFile.categories := by
    rw [← hfound]
    exact hcategory
  unfold classificationOf
  rw [hfirst, known_firstCategory]
  exact ⟨_, rfl, rfl, rfl⟩

def destructiveCommands : List String := ["rm", "rmdir", "del", "erase", "format", "remove-item"]

/-- A word names a destructive command, or the first a denied one. -/
def IsDangerous (services : CommandServices) (argv : List String) : Prop :=
  (∃ element ∈ argv, GitCommands.executableName services element ∈ destructiveCommands) ∨
    GitCommands.executableName services (argv.headD "") ∈ shellPolicyFile.deniedExecutables

/-- A command is classified with caution: no dangerous command gets a category that needs none,
and with more arguments a command that is destructive or unknown is decided as strictly. -/
structure Conservative (services : CommandServices)
    (gitClassifier : List String → GitClassification) (command : String)
    (argv more : List String) : Prop where
  cautious : ∀ c, classify services shellPolicyFile gitClassifier (some argv) command = .ok c →
    c.category ∈ safeCategories → ¬IsDangerous services argv
  /-- More arguments make no decision less strict. -/
  monotone : ∀ c c', classify services shellPolicyFile gitClassifier (some argv) command = .ok c →
    c.category ∈ ["destructive_shell", "unknown_shell"] →
      classify services shellPolicyFile gitClassifier (some (argv ++ more)) command = .ok c' →
        c.policyDecision.strictness ≤ c'.policyDecision.strictness

/-- A row that needs caution comes first: a guard row is met, or none of those that need no
caution is met, or only the last of them after the row of commands that write. -/
def IsGuarded (services : CommandServices) (argv : List String) : Prop :=
  guardRows.any (meets services argv) = true ∨
    toolRows.any (meets services argv) = false ∧
      (writeRows.any (meets services argv) = true ∨ readRows.any (meets services argv) = false)

instance (services : CommandServices) (argv : List String) :
    Decidable (IsDangerous services argv) := inferInstanceAs (Decidable (_ ∨ _))

instance (services : CommandServices) (argv : List String) :
    Decidable (IsGuarded services argv) := inferInstanceAs (Decidable (_ ∨ _ ∧ _))

/-- `str.lower` of texts with a blank between them. -/
def JoinsLower (services : CommandServices) : Prop :=
  ∀ text other, services.lower (text ++ " " ++ other) =
    services.lower text ++ " " ++ services.lower other

theorem containsText_of_isInfix {text part : String} (h : part.toList <:+: text.toList) :
    containsText text part = true := by
  obtain ⟨before, after, hsplit⟩ := h
  unfold containsText
  rw [any_eq_true]
  refine ⟨part.toList ++ after, (mem_tails _ _).mpr ⟨before, ?_⟩, ?_⟩
  · rw [← hsplit, append_assoc]
  · exact isPrefixOf_iff_prefix.mpr (prefix_append _ _)

theorem meets_append {rules : CategoryRules} (more : List String) (hlower : JoinsLower services)
    (hprograms : rules.executables = []) (h : meets services (token :: args) rules = true) :
    meets services (token :: args ++ more) rules = true := by
  cases more with
  | nil => rwa [append_nil]
  | cons first rest =>
    unfold meets at h ⊢
    rw [hprograms] at h ⊢
    simp only [map_nil, contains_nil, Bool.and_false, Bool.false_or, any_eq_true] at h ⊢
    obtain ⟨part, hpart, hfound⟩ := h
    refine ⟨part, hpart, containsText_of_isInfix ?_⟩
    have hjoin : " ".intercalate (token :: args ++ first :: rest) =
        " ".intercalate (token :: args) ++ " " ++ " ".intercalate (first :: rest) :=
      String.intercalate_append_of_ne_nil (cons_ne_nil _ _) (cons_ne_nil _ _)
    have htext : normalized services (some (token :: args ++ first :: rest)) "" =
        normalized services (some (token :: args)) "" ++ " " ++ " ".intercalate (first :: rest) :=
      hjoin
    rw [htext, hlower, String.toList_append, String.toList_append, append_assoc]
    exact (isInfix_of_containsText hfound).trans (prefix_append _ _).isInfix

theorem decisionOf_blocked {category : String} (h : category ∈ shellPolicyFile.blockedCategories) :
    decisionOf shellPolicyFile category = .blocked := by
  unfold decisionOf
  rw [if_pos (contains_iff_mem.mpr h)]

theorem strictness_lt_of_not_blocked {category : String}
    (h : category ∉ shellPolicyFile.blockedCategories) :
    (decisionOf shellPolicyFile category).strictness < ShellDecision.blocked.strictness := by
  unfold decisionOf
  rw [if_neg (mt contains_iff_mem.mp h)]
  split <;> decide

theorem blocked_append (more : List String) (hlower : JoinsLower services)
    (hmet : (shellPolicyFile.categories.take 1).any (meets services (token :: args)) = true) :
    blockedRows.any (meets services (token :: args ++ more)) = true := by
  obtain ⟨rules, hrules, hmet⟩ := any_eq_true.mp hmet
  have hprograms : rules.executables = [] := by
    cases mem_singleton.mp hrules
    rfl
  have hrows : blockedRows = shellPolicyFile.categories.take 1 ++ blockedRows.drop 1 := rfl
  have hin : rules ∈ blockedRows := by
    rw [hrows]
    exact mem_append_left _ hrules
  exact any_eq_true.mpr ⟨rules, hin, meets_append more hlower hprograms hmet⟩

/-- The classification of a command whose program is not Git is conservative exactly if a row
that needs caution comes first when it is dangerous, and if, when it meets no row, with further
arguments it meets a blocked row or none. -/
theorem conservative_iff (hlower : JoinsLower services)
    (hgit : GitCommands.isGit (GitCommands.executableName services token) = false) :
    Conservative services gitClassifier command (token :: args) more ↔
      (IsDangerous services (token :: args) → IsGuarded services (token :: args)) ∧
        (shellPolicyFile.categories.any (meets services (token :: args)) = false →
          blockedRows.any (meets services (token :: args ++ more)) = true ∨
            openRows.any (meets services (token :: args ++ more)) = false) := by
  obtain ⟨c, hc, hcategory, hdecision⟩ := classify_of_not_git gitClassifier command token args hgit
  obtain ⟨c', hc', hcategory', hdecision'⟩ :=
    classify_of_not_git gitClassifier command token (args ++ more) hgit
  have hguarded : c.category ∈ safeCategories ↔ ¬IsGuarded services (token :: args) := by
    rw [hcategory, mem_safeCategories_iff, IsGuarded]
    cases toolRows.any (meets services (token :: args)) <;> simp
  have hblocked : c'.category ∈ shellPolicyFile.blockedCategories ↔
      blockedRows.any (meets services (token :: args ++ more)) = true ∨
        openRows.any (meets services (token :: args ++ more)) = false := by
    rw [hcategory']
    exact mem_blockedCategories_iff
  constructor
  · intro h
    constructor
    · intro hdangerous
      by_contra hnot
      exact h.cautious c hc (hguarded.mpr hnot) hdangerous
    · intro hunknown
      rw [← hblocked]
      by_contra hopen
      have hname : c.category = "unknown_shell" := hcategory.trans (eq_unknown_iff.mpr hunknown)
      have hle := h.monotone c c' hc (by simp [hname]) hc'
      have hstrict : c.policyDecision = .blocked := by
        rw [hdecision, hname]
        rfl
      have hlt := strictness_lt_of_not_blocked hopen
      rw [← hdecision'] at hlt
      rw [hstrict] at hle
      omega
  · rintro ⟨hdangerous, hunknown⟩
    constructor
    · intro found hfound hsafe hdanger
      rw [hc] at hfound
      cases hfound
      exact hguarded.mp hsafe (hdangerous hdanger)
    · intro found found' hfound hname hfound'
      rw [hc] at hfound
      cases hfound
      have hsame := hc'.symm.trans hfound'
      cases hsame
      have hkept : c'.category ∈ shellPolicyFile.blockedCategories := by
        rw [mem_pair] at hname
        rcases hname with hname | hname
        · rw [hblocked]
          have hmet := eq_destructive_iff.mp (hcategory.symm.trans hname)
          exact .inl (blocked_append more hlower hmet)
        · rw [hblocked]
          exact hunknown (eq_unknown_iff.mp (hcategory.symm.trans hname))
      rw [hdecision', decisionOf_blocked hkept]
      cases c.policyDecision <;> decide

theorem plainCommands_joinsLower : JoinsLower plainCommands := fun _ _ => rfl

theorem conservative_pytest : Conservative plainCommands (GitCommands.classify plainCommands) ""
      ["python", "-m", "pytest"] ["-x"] :=
  (conservative_iff plainCommands_joinsLower (by decide +kernel)).mpr
    ⟨fun h => absurd h (by decide +kernel), fun h => absurd h (by decide +kernel)⟩

/-- A command that destroys gets the category of a build, and an unknown command that of a
command that reads as soon as it asks for a version. -/
theorem words_taken_for_tokens :
    ¬Conservative plainCommands (GitCommands.classify plainCommands) "" ["rm", "-rf", "build"] [] ∧
      ¬Conservative plainCommands (GitCommands.classify plainCommands) "" ["tool"]
        ["--version"] := by
  have hplain := @classify_of_not_git plainCommands (GitCommands.classify plainCommands) ""
  constructor
  · intro h
    obtain ⟨c, hc, hcategory, -⟩ := hplain "rm" ["-rf", "build"] (by decide +kernel)
    refine h.cautious c hc ?_ (by decide +kernel)
    rw [hcategory]
    decide +kernel
  · intro h
    obtain ⟨c, hc, hcategory, hdecision⟩ := hplain "tool" [] (by decide +kernel)
    obtain ⟨c', hc', hcategory', hdecision'⟩ := hplain "tool" ["--version"] (by decide +kernel)
    have hunknown : c.category ∈ ["destructive_shell", "unknown_shell"] := by
      rw [hcategory]
      decide +kernel
    have hle := h.monotone c c' hc hunknown hc'
    rw [hdecision, hcategory, hdecision', hcategory'] at hle
    exact absurd hle (by decide +kernel)

end ShellCommands

end AIpinho.Tools
