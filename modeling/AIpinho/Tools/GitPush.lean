import AIpinho.Tools.GitManual
import AIpinho.Tools.GovernedExecution

/-!
# Pushes that force or delete

A push forces or deletes refs by options, which may be bundled, shortened or taken back by later
ones, and by refspecs. The classifier compares whole words with a short list.
-/

namespace AIpinho.Tools

open List
open GovernedToolExecution (plainCommands)

namespace GitInvocation

variable (invocation : GitInvocation)

/-- Options are in effect if the last of them comes after the last option that takes them back. -/
def inEffect (names : List String) (back : String) : Bool :=
  (invocation.options.reverse.find? fun given => names.contains given.1 || given.1 = back).any
    fun given => given.1 ≠ back

def forcingOptions : List (List String × String) :=
  [(["-f", "--force"], "--no-force"), (["--force-with-lease"], "--no-force-with-lease"),
    (["-d", "--delete"], "--no-delete"), (["--mirror"], "--no-mirror"), (["--prune"], "--no-prune")]

/-- A refspec whose source is empty deletes. A single `:` names the branches on both sides. -/
def hasEmptySource (refspec : String) : Bool := startsWith refspec ":" && refspec ≠ ":"

def forcesOrDeletes : Bool :=
  forcingOptions.any (fun (names, back) => invocation.inEffect names back) ||
    (invocation.operands.drop 1).any fun refspec =>
      startsWith refspec "+" || hasEmptySource refspec

end GitInvocation

namespace GitCommands

/-- Words that are skipped: options, each with the word after it if it is one that takes it. -/
inductive Skipped : List String → Prop
  | nil : Skipped []
  /-- An option that takes the next word. -/
  | withValue {token value : String} {args : List String} (h : token ∈ globalOptionsWithValue)
    (hrest : Skipped args) : Skipped (token :: value :: args)
  /-- Another word that begins like an option. -/
  | option {token : String} {args : List String} (h : token ∉ globalOptionsWithValue)
    (hdash : startsWith token "-" = true) (hrest : Skipped args) : Skipped (token :: args)

/-- Skipping options leads to a word that is none, with some words after it. -/
def LeadsTo (args : List String) (token : String) (tail : List String) : Prop :=
  ∃ skipped, Skipped skipped ∧ startsWith token "-" = false ∧ args = skipped ++ token :: tail

def deniedSubcommands : List String :=
  ["reset", "clean", "rebase", "merge", "cherry-pick", "revert", "rm"]

def deniedWords : List (String × List String) :=
  [("push", ["-f", "--force", "--force-with-lease", "--mirror", "--delete"]),
    ("branch", ["-d", "-D", "--delete"]), ("commit", ["--amend"]), ("checkout", ["-b", "-B"]),
    ("switch", ["-c", "-C"])]

/-- A subcommand is denied with some words after it. -/
inductive IsDenied (words : List String) : String → Prop
  | always {subcommand : String} (h : subcommand ∈ deniedSubcommands) : IsDenied words subcommand
  | word {subcommand : String} {denied : List String} {word : String}
    (h : (subcommand, denied) ∈ deniedWords) (hdenied : word ∈ denied) (hword : word ∈ words) :
    IsDenied words subcommand
  /-- A word of a push begins like a refspec without a source. -/
  | colon {word : String} (hword : word ∈ words) (h : startsWith word ":" = true) :
    IsDenied words "push"

variable {services : CommandServices} {name token : String} {words tail args : List String}

theorem dash_of_mem_globalOptionsWithValue (h : token ∈ globalOptionsWithValue) :
    startsWith token "-" = true := by
  have hdash : ∀ option ∈ globalOptionsWithValue, startsWith option "-" = true := by decide
  exact hdash token h

theorem leadsTo_of_subcommand (h : subcommand services args = some (name, tail)) :
    ∃ token, LeadsTo args token tail ∧ services.casefold token = name := by
  fun_induction subcommand services args with
  | case1 | case2 => cases h
  | case3 token hoption =>
    cases h
    rw [Bool.or_eq_true, not_or, Bool.not_eq_true, Bool.not_eq_true] at hoption
    exact ⟨token, ⟨[], .nil, hoption.2, rfl⟩, rfl⟩
  | case4 token value args hvalue ih =>
    obtain ⟨found, ⟨skipped, hskipped, hword, rfl⟩, hname⟩ := ih h
    exact ⟨found, ⟨token :: value :: skipped,
      .withValue (contains_iff_mem.mp hvalue) hskipped, hword, rfl⟩, hname⟩
  | case5 token value args hvalue hdash ih =>
    obtain ⟨found, ⟨skipped, hskipped, hword, hargs⟩, hname⟩ := ih h
    exact ⟨found, ⟨token :: skipped, .option (mt contains_iff_mem.mpr hvalue) hdash hskipped,
      hword, congrArg (token :: ·) hargs⟩, hname⟩
  | case6 token value args hvalue hdash =>
    cases h
    rw [Bool.not_eq_true] at hdash
    exact ⟨token, ⟨[], .nil, hdash, rfl⟩, rfl⟩

theorem subcommand_of_leadsTo (h : LeadsTo args token tail) :
    subcommand services args = some (services.casefold token, tail) := by
  obtain ⟨skipped, hskipped, hword, rfl⟩ := h
  induction hskipped with
  | nil =>
    have hvalue : ¬globalOptionsWithValue.contains token = true := by
      intro hin
      have hdash := dash_of_mem_globalOptionsWithValue (contains_iff_mem.mp hin)
      rw [hword] at hdash
      cases hdash
    have hdash : ¬startsWith token "-" = true := by simp [hword]
    cases tail with
    | nil =>
      rw [nil_append, subcommand, if_neg]
      simp only [Bool.or_eq_true, not_or]
      exact ⟨hvalue, hdash⟩
    | cons next rest => rw [nil_append, subcommand, if_neg hvalue, if_neg hdash]
  | withValue h hrest ih =>
    rw [cons_append, cons_append, subcommand, if_pos (contains_iff_mem.mpr h), ih]
  | @option option args h hdash hrest ih =>
    -- what comes after the option is not empty, so the option is looked at with the next word
    obtain ⟨next, rest, hsplit⟩ := exists_cons_of_ne_nil
      (append_ne_nil_of_right_ne_nil args (cons_ne_nil token tail))
    rw [cons_append, hsplit, subcommand, if_neg (mt contains_iff_mem.mp h), if_pos hdash,
      ← hsplit, ih]

theorem exists_subcommand_iff {P : String → List String → Prop} :
    (∃ name tail, subcommand services args = some (name, tail) ∧ P name tail) ↔
      ∃ token tail, LeadsTo args token tail ∧ P (services.casefold token) tail := by
  constructor
  · rintro ⟨name, tail, hfound, h⟩
    obtain ⟨token, hleads, rfl⟩ := leadsTo_of_subcommand hfound
    exact ⟨token, tail, hleads, h⟩
  · rintro ⟨token, tail, hleads, h⟩
    exact ⟨_, tail, subcommand_of_leadsTo hleads, h⟩

theorem any_contains_iff {flags : List String} :
    flags.any words.contains = true ↔ ∃ word ∈ flags, word ∈ words := by
  simp [any_eq_true]

theorem isDenied_of_destructiveReason (h : destructiveReason name words ≠ none) :
    IsDenied words name := by
  have hword : ∀ {subcommand : String} {denied : List String}, (subcommand, denied) ∈ deniedWords →
      denied.any words.contains = true → IsDenied words subcommand := by
    intro subcommand denied hmem hany
    obtain ⟨word, hdenied, hin⟩ := any_contains_iff.mp hany
    exact .word hmem hdenied hin
  unfold destructiveReason at h
  dsimp only at h
  split at h
  · rename_i hreset
    subst hreset
    exact .always (by decide)
  split at h
  · rename_i hclean
    subst hclean
    exact .always (by decide)
  split at h
  · rename_i hpush
    obtain ⟨rfl, hany⟩ := hpush
    exact hword (by decide) hany
  split at h
  · rename_i hpush
    obtain ⟨rfl, hany⟩ := hpush
    obtain ⟨word, hin, hstart⟩ := any_eq_true.mp hany
    exact .colon hin hstart
  split at h
  · rename_i hbranch
    obtain ⟨rfl, hany⟩ := hbranch
    exact hword (by decide) hany
  split at h
  · rename_i hcommit
    obtain ⟨rfl, hany⟩ := hcommit
    exact hword (by decide) hany
  split at h
  · rename_i hcheckout
    obtain ⟨rfl, hany⟩ := hcheckout
    exact hword (by decide) hany
  split at h
  · rename_i hswitch
    obtain ⟨rfl, hany⟩ := hswitch
    exact hword (by decide) hany
  split at h
  · rename_i hlisted
    have hmem := contains_iff_mem.mp hlisted
    exact .always (mem_append_right ["reset", "clean"] hmem)
  · exact absurd rfl h

theorem destructiveReason_ne_none_iff :
    destructiveReason name words ≠ none ↔ IsDenied words name := by
  constructor
  · exact isDenied_of_destructiveReason
  · intro h
    cases h with
    | always h =>
      simp only [deniedSubcommands, mem_cons, not_mem_nil, or_false] at h
      rcases h with rfl | rfl | rfl | rfl | rfl | rfl | rfl <;> simp [destructiveReason]
    | word h hdenied hword =>
      have hany := any_contains_iff.mpr ⟨_, hdenied, hword⟩
      simp only [deniedWords, mem_cons, Prod.mk.injEq, not_mem_nil, or_false] at h
      rcases h with ⟨rfl, rfl⟩ | ⟨rfl, rfl⟩ | ⟨rfl, rfl⟩ | ⟨rfl, rfl⟩ | ⟨rfl, rfl⟩
      all_goals
        unfold destructiveReason
        rw [if_neg (by decide), if_neg (by decide)]
      · rw [if_pos ⟨rfl, hany⟩]
        simp
      · rw [if_neg (by simp), if_neg (by simp), if_pos ⟨rfl, hany⟩]
        simp
      · rw [if_neg (by simp), if_neg (by simp), if_neg (by simp), if_pos ⟨rfl, hany⟩]
        simp
      · rw [if_neg (by simp), if_neg (by simp), if_neg (by simp), if_neg (by simp),
          if_pos ⟨rfl, hany⟩]
        simp
      · rw [if_neg (by simp), if_neg (by simp), if_neg (by simp), if_neg (by simp),
          if_neg (by simp), if_pos ⟨rfl, hany⟩]
        simp
    | colon hword h =>
      have hany : words.any (startsWith · ":") = true := any_eq_true.mpr ⟨_, hword, h⟩
      unfold destructiveReason
      rw [if_neg (by decide), if_neg (by decide)]
      split
      · simp
      · rw [if_pos ⟨rfl, hany⟩]
        simp

theorem classifySubcommand_destructive_iff :
    (classifySubcommand services name tail).operationClass = .destructive ↔
      IsDenied (tail.map services.casefold) name := by
  rw [← destructiveReason_ne_none_iff]
  unfold classifySubcommand
  dsimp only
  cases destructiveReason name (tail.map services.casefold) with
  | some reason => simp
  | none =>
    simp only [ne_eq, not_true_eq_false, iff_false]
    intro h
    repeat' split at h
    all_goals cases h

theorem operationClass_iff (hgit : isGit (executableName services token) = true)
    {operationClass : GitOperationClass} (hknown : operationClass ≠ .unknown) :
    (classify services (token :: args)).operationClass = operationClass ↔
      ∃ name tail, subcommand services args = some (name, tail) ∧
        (classifySubcommand services name tail).operationClass = operationClass := by
  have hskip : ¬(!isGit (executableName services token)) = true := by simp [hgit]
  unfold classify
  dsimp only
  rw [if_neg hskip]
  cases hfound : subcommand services args with
  | none =>
    simp only [reduceCtorEq, false_and, exists_false, iff_false]
    exact fun h => hknown h.symm
  | some found =>
    obtain ⟨name, tail⟩ := found
    dsimp only
    constructor
    · intro h
      exact ⟨name, tail, rfl, h⟩
    · rintro ⟨name', tail', heq, h⟩
      cases heq
      exact h

theorem classify_destructive_iff {program : String}
    (hgit : isGit (executableName services program) = true) :
    (classify services (program :: args)).operationClass = .destructive ↔
      ∃ token tail, LeadsTo args token tail ∧
        IsDenied (tail.map services.casefold) (services.casefold token) := by
  rw [operationClass_iff hgit (by decide), exists_subcommand_iff]
  simp only [classifySubcommand_destructive_iff]

end GitCommands

namespace GitManual

variable {manual : GitManual} {services : CommandServices} {table : List OptionEntry}

/-- A push that forces or deletes is classified as destructive. -/
def JudgesPush (manual : GitManual) (services : CommandServices) (argv : List String) : Prop :=
  ∀ directory invocation, manual.Runs services directory argv invocation →
    invocation.subcommand = "push" → invocation.forcesOrDeletes = true →
      (GitCommands.classify services argv).operationClass = .destructive

/-- A push that forces or deletes says so in a word: skipping options leads to a subcommand that
is denied with the words after it. -/
def SaysWhatItForces (manual : GitManual) (services : CommandServices) (argv : List String) :
    Prop :=
  ∀ directory invocation, manual.Runs services directory argv invocation →
    invocation.subcommand = "push" → invocation.forcesOrDeletes = true →
      ∃ token tail, GitCommands.LeadsTo argv.tail token tail ∧
        GitCommands.IsDenied (tail.map services.casefold) (services.casefold token)

/-- The classifier judges a push by the manual exactly if the push says in a word what it
forces. -/
theorem judgesPush_iff (argv : List String) :
    manual.JudgesPush services argv ↔ manual.SaysWhatItForces services argv := by
  have hjudged : ∀ directory invocation, manual.Runs services directory argv invocation →
      ((GitCommands.classify services argv).operationClass = .destructive ↔
        ∃ token tail, GitCommands.LeadsTo argv.tail token tail ∧
          GitCommands.IsDenied (tail.map services.casefold) (services.casefold token)) := by
    rintro directory invocation ⟨program, args, rfl, hgit, -, -⟩
    exact GitCommands.classify_destructive_iff hgit
  constructor
  · intro h directory invocation hruns hpush hforces
    exact (hjudged directory invocation hruns).mp (h directory invocation hruns hpush hforces)
  · intro h directory invocation hruns hpush hforces
    exact (hjudged directory invocation hruns).mpr (h directory invocation hruns hpush hforces)

def pushManual : GitManual where
  globalValues := ["-C", "-c", "--git-dir", "--work-tree", "--namespace", "--config-env"]
  informs := ["--version", "-v", "--help", "-h", "--exec-path", "--html-path", "--man-path",
    "--info-path"]
  redirects _ given :=
    ["-C", "-c", "--git-dir", "--work-tree", "--namespace", "--config-env"].contains given.1
  options _ :=
    [("--all", false), ("--branches", false), ("--prune", false), ("--mirror", false),
      ("--dry-run", false), ("--porcelain", false), ("--delete", false), ("--tags", false),
      ("--follow-tags", false), ("--signed", false), ("--atomic", false), ("--push-option", true),
      ("-o", true), ("--receive-pack", true), ("--exec", true), ("--force-with-lease", false),
      ("--force", false), ("--force-if-includes", false), ("--repo", true),
      ("--set-upstream", false), ("--thin", false), ("--quiet", false), ("--verbose", false),
      ("--progress", false), ("--recurse-submodules", true), ("--verify", false),
      ("--ipv4", false), ("--ipv6", false)]
  severalRemotes _ _ := false
  severalRefs options :=
    options.any fun given =>
      ["--all", "--branches", "--mirror", "--tags", "--follow-tags"].contains given.1
  updatesNothing options := options.any fun given => ["--dry-run", "-n"].contains given.1

theorem not_judgesPush {args : List String} (invocation : GitInvocation)
    (hread : pushManual.read "" args = some invocation) (hpush : invocation.subcommand = "push")
    (hforces : invocation.forcesOrDeletes = true)
    (hclass : (GitCommands.classify plainCommands ("git" :: args)).operationClass ≠ .destructive) :
    ¬pushManual.JudgesPush plainCommands ("git" :: args) := by
  intro h
  have hworks : workingSubcommands.contains invocation.subcommand = true := by
    rw [hpush]
    decide
  have hruns : pushManual.Runs plainCommands "" ("git" :: args) invocation :=
    ⟨"git", args, rfl, by decide, hread, hworks⟩
  exact hclass (h "" invocation hruns hpush hforces)

/-- A lease with a value, a short option in a bundle and a refspec that forces are not found. -/
theorem forced_pushes_pass : ¬pushManual.JudgesPush plainCommands
        ["git", "push", "--force-with-lease=main", "origin", "main"] ∧
      ¬pushManual.JudgesPush plainCommands ["git", "push", "-uf", "origin", "main"] ∧
        ¬pushManual.JudgesPush plainCommands ["git", "push", "origin", "+main"] := by
  refine ⟨?_, ?_, ?_⟩
  · exact not_judgesPush ⟨[], "push", [.option ("--force-with-lease", some "main"),
      .operand "origin", .operand "main"]⟩ (by decide +kernel) rfl (by decide +kernel)
      (by decide +kernel)
  · exact not_judgesPush ⟨[], "push", [.option ("-u", none), .option ("-f", none),
      .operand "origin", .operand "main"]⟩ (by decide +kernel) rfl (by decide +kernel)
      (by decide +kernel)
  · exact not_judgesPush ⟨[], "push", [.operand "origin", .operand "+main"]⟩ (by decide +kernel)
      rfl (by decide +kernel) (by decide +kernel)

end GitManual

end AIpinho.Tools
