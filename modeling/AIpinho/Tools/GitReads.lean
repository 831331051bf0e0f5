import AIpinho.Tools.GitPush

/-!
# Commands that only read

The classifier calls a command a local read for its subcommand, and for three subcommands also
for some of the words after it. By the manual the options before the subcommand may bring a
program, a report may go to a file, and branches and remotes have forms that write.
-/

namespace AIpinho.Tools

open List
open GovernedToolExecution (plainCommands)

/-- What a command does besides reading the repository. -/
inductive GitEffect
  | writesRefs (names : List String)
  | deletesRefs (names : List String)
  | writesFile (name : String)
  | contacts (remotes : List String)
  | runs (program : String)
  deriving DecidableEq

/-- What the manual says of commands that read. -/
structure ReadingManual extends GitManual where
  /-- The program that an option before the subcommand brings, if it brings one. -/
  brought : GivenOption → Option String
  asked : String → List GivenOption → List String
  /-- Whether a command is refused: for options that there are not or that exclude each other, or
  for want of operands. -/
  refused : String → List LineWord → Bool
  /-- What a command does whose subcommand is none of those below. -/
  others : String → List LineWord → List GitEffect

/-- Options that say one thing: some for good, and some until a later option takes them back. -/
structure SwitchGroup where
  lasting : List String := []
  revocable : List (List String × String) := []

namespace GitInvocation

variable (invocation : GitInvocation)

def gives (names : List String) : Bool :=
  invocation.options.any fun given => names.contains given.1

/-- Whether one of the options is given and not taken back. -/
def has (group : SwitchGroup) : Bool :=
  invocation.gives group.lasting ||
    group.revocable.any fun (names, back) => invocation.inEffect names back

def reports : List String := ["diff", "log", "show"]

/-- The subcommands that answer questions. -/
def queries : List String := ["status", "rev-parse", "ls-files"]

/-- What a report writes: the file of each `--output`. -/
def reportEffects : List GitEffect :=
  invocation.options.filterMap fun given =>
    if given.1 = "--output" then some (.writesFile (given.2.getD "")) else none

/-- The options of `branch` with which it deletes; `--no-delete` does not take back `-D`. -/
def branchDeleting : SwitchGroup := ⟨["-D"], [(["-d", "--delete"], "--no-delete")]⟩

def branchMoving : SwitchGroup := ⟨["-M"], [(["-m", "--move"], "--no-move")]⟩

def branchCopying : SwitchGroup := ⟨["-C"], [(["-c", "--copy"], "--no-copy")]⟩

/-- The options of `branch` with which it writes a setting. -/
def branchSetting : SwitchGroup :=
  ⟨[], [(["-u", "--set-upstream-to"], "--no-set-upstream-to"),
    (["--unset-upstream"], "--no-unset-upstream"),
    (["--edit-description"], "--no-edit-description")]⟩

/-- The options of `branch` with which it makes no branch of an operand. -/
def branchListing : SwitchGroup :=
  ⟨["-r", "--remotes", "-a", "--all", "--contains", "--no-contains", "--with", "--without",
      "--merged", "--no-merged"],
    [(["-l", "--list"], "--no-list"), (["--show-current"], "--no-show-current"),
      (["--points-at"], "--no-points-at")]⟩

/-- What `branch` does: with an operand and no option that says otherwise it makes a branch. -/
def branchEffects : List GitEffect :=
  if invocation.has branchDeleting then [.deletesRefs invocation.operands]
  else if invocation.has branchMoving then [.writesRefs invocation.operands]
  else if invocation.has branchCopying then [.writesRefs invocation.operands.getLast?.toList]
  else if invocation.has branchSetting then [.writesFile "config"]
  else if invocation.has branchListing || invocation.operands = [] then []
  else [.writesRefs (invocation.operands.take 1)]

/-- What the forms of `remote` do that write or contact a remote. -/
def remoteForms (names : List String) : List (String × List GitEffect) :=
  [("update", [.contacts names]), ("prune", [.contacts names, .deletesRefs names]),
    ("add", [.writesFile "config"]), ("rename", [.writesFile "config", .writesRefs names]),
    ("remove", [.writesFile "config", .deletesRefs names]),
    ("rm", [.writesFile "config", .deletesRefs names]), ("set-head", [.writesRefs names]),
    ("set-branches", [.writesFile "config"]), ("set-url", [.writesFile "config"])]

/-- What `remote` does; its first operand is its form. `show` asks the remote, unless it is told
not to. -/
def remoteEffects : List GitEffect :=
  match invocation.operands with
  | [] => []
  | form :: names =>
    if form = "show" then
      if names = [] || invocation.gives ["-n"] then [] else [.contacts names]
    else ((remoteForms names).lookup form).getD []

/-- The options of `config` with which it reads. -/
def configReading : SwitchGroup :=
  ⟨[], [(["--get"], "--no-get"), (["--get-all"], "--no-get-all"),
    (["--get-regexp"], "--no-get-regexp"), (["--get-urlmatch"], "--no-get-urlmatch"),
    (["--get-color"], "--no-get-color"), (["--get-colorbool"], "--no-get-colorbool"),
    (["-l", "--list"], "--no-list")]⟩

/-- The options of `config` with which it writes. -/
def configWriting : SwitchGroup :=
  ⟨[], [(["--add"], "--no-add"), (["--replace-all"], "--no-replace-all"),
    (["--unset"], "--no-unset"), (["--unset-all"], "--no-unset-all"),
    (["--rename-section"], "--no-rename-section"),
    (["--remove-section"], "--no-remove-section"), (["-e", "--edit"], "--no-edit")]⟩

/-- What `config` does: it sets what two operands say, if no option says otherwise. -/
def configEffects : List GitEffect :=
  if invocation.has configReading then []
  else if invocation.has configWriting || 2 ≤ invocation.operands.length then
    [.writesFile "config"]
  else []

end GitInvocation

namespace ReadingManual

open GitInvocation (reports queries branchDeleting branchMoving branchCopying branchListing
  branchSetting remoteForms configReading configWriting)

variable (manual : ReadingManual)

def readWhole (args : List String) : Option GitInvocation :=
  (manual.readGlobal args).map fun (options, subcommand, rest) =>
    ⟨options, subcommand, GitManual.readLine (manual.options subcommand) rest⟩

def formEffects (invocation : GitInvocation) : List GitEffect :=
  if reports.contains invocation.subcommand then invocation.reportEffects
  else if queries.contains invocation.subcommand then []
  else if invocation.subcommand = "branch" then invocation.branchEffects
  else if invocation.subcommand = "remote" then invocation.remoteEffects
  else if invocation.subcommand = "config" then invocation.configEffects
  else manual.others invocation.subcommand invocation.line

/-- The programs that a command line brings or asks for. -/
def programs (invocation : GitInvocation) : List String :=
  invocation.redirects.filterMap manual.brought ++
    manual.asked invocation.subcommand invocation.options

/-- What a command does besides reading. -/
def effects (invocation : GitInvocation) : List GitEffect :=
  if manual.refused invocation.subcommand invocation.line then []
  else (manual.programs invocation).map .runs ++ manual.formEffects invocation

/-- The form of a command that does nothing but read. -/
inductive IsReading (invocation : GitInvocation) : Prop
  | report (h : invocation.subcommand ∈ reports) (houtput : invocation.gives ["--output"] = false)
  /-- An answer. -/
  | query (h : invocation.subcommand ∈ queries)
  | branch (h : invocation.subcommand = "branch")
    (hwrites : ∀ group ∈ [branchDeleting, branchMoving, branchCopying, branchSetting],
      invocation.has group = false)
    (hlists : invocation.has branchListing = true ∨ invocation.operands = [])
  | remotes (h : invocation.subcommand = "remote") (hoperands : invocation.operands = [])
  | known {names : List String} (h : invocation.subcommand = "remote")
    (hoperands : invocation.operands = "show" :: names)
    (hnames : names = [] ∨ invocation.gives ["-n"] = true)
  /-- A form of `remote` that neither writes nor asks. -/
  | form {form : String} {names : List String} (h : invocation.subcommand = "remote")
    (hoperands : invocation.operands = form :: names) (hshow : form ≠ "show")
    (hform : form ∉ (remoteForms names).map Prod.fst)
  | setting (h : invocation.subcommand = "config")
    (hreads : invocation.has configReading = true ∨
      invocation.has configWriting = false ∧ invocation.operands.length < 2)
  | other (h : invocation.subcommand ∉ reports ++ queries ++ ["branch", "remote", "config"])
    (hothers : manual.others invocation.subcommand invocation.line = [])

variable {manual : ReadingManual} {invocation : GitInvocation}

theorem reportEffects_eq_nil_iff :
    invocation.reportEffects = [] ↔ invocation.gives ["--output"] = false := by
  unfold GitInvocation.reportEffects GitInvocation.gives
  rw [filterMap_eq_nil_iff, any_eq_false]
  constructor
  · intro h given hgiven hname
    have hnone := h given hgiven
    rw [contains_iff_mem, mem_singleton] at hname
    rw [if_pos hname] at hnone
    cases hnone
  · intro h given hgiven
    rw [if_neg]
    intro hname
    exact h given hgiven (contains_iff_mem.mpr (mem_singleton.mpr hname))

theorem branchEffects_eq_nil_iff : invocation.branchEffects = [] ↔
      (∀ group ∈ [branchDeleting, branchMoving, branchCopying, branchSetting],
        invocation.has group = false) ∧
      (invocation.has branchListing = true ∨ invocation.operands = []) := by
  simp only [forall_mem_cons, not_mem_nil, false_implies, implies_true, and_true]
  unfold GitInvocation.branchEffects
  cases invocation.has branchDeleting <;> cases invocation.has branchMoving <;>
    cases invocation.has branchCopying <;> cases invocation.has branchSetting <;>
    cases invocation.has branchListing <;> simp

theorem lookup_remoteForms_eq_nil_iff {form : String} {names : List String} :
    ((remoteForms names).lookup form).getD [] = [] ↔ form ∉ (remoteForms names).map Prod.fst := by
  cases hlookup : (remoteForms names).lookup form with
  | none =>
    have hnone := lookup_eq_none_iff.mp hlookup
    simp only [Option.getD_none, true_iff]
    intro hin
    obtain ⟨entry, hentry, rfl⟩ := mem_map.mp hin
    exact absurd (beq_self_eq_true entry.1) (by simpa using hnone entry hentry)
  | some effects =>
    obtain ⟨before, after, hsplit, -⟩ := lookup_eq_some_iff.mp hlookup
    have hmem : (form, effects) ∈ remoteForms names := by
      rw [hsplit]
      simp
    have hsome : effects ≠ [] := by
      have hall : ∀ entry ∈ remoteForms names, entry.2 ≠ [] := by simp [remoteForms]
      exact hall _ hmem
    simp only [Option.getD_some, hsome, false_iff, not_not]
    exact mem_map_of_mem hmem

theorem remoteEffects_cons {form : String} {names : List String}
    (hoperands : invocation.operands = form :: names) :
    invocation.remoteEffects = [] ↔
      (form = "show" ∧ (names = [] ∨ invocation.gives ["-n"] = true)) ∨
        form ≠ "show" ∧ form ∉ (remoteForms names).map Prod.fst := by
  unfold GitInvocation.remoteEffects
  rw [hoperands]
  dsimp only
  by_cases hshow : form = "show"
  · rw [if_pos hshow]
    by_cases hquiet : names = [] ∨ invocation.gives ["-n"] = true
    · simp [hshow, hquiet]
    · simp [hshow, hquiet]
  · rw [if_neg hshow, lookup_remoteForms_eq_nil_iff]
    simp [hshow]

theorem configEffects_eq_nil_iff :
    invocation.configEffects = [] ↔ invocation.has configReading = true ∨
      invocation.has configWriting = false ∧ invocation.operands.length < 2 := by
  unfold GitInvocation.configEffects
  cases invocation.has configReading <;> cases invocation.has configWriting <;> simp

/-- A form has no effect exactly if it is a reading one. -/
theorem formEffects_eq_nil_iff :
    manual.formEffects invocation = [] ↔ manual.IsReading invocation := by
  unfold formEffects
  constructor
  · intro h
    split at h
    · rename_i hreport
      exact .report (contains_iff_mem.mp hreport) (reportEffects_eq_nil_iff.mp h)
    split at h
    · rename_i hquery
      exact .query (contains_iff_mem.mp hquery)
    split at h
    · rename_i hbranch
      obtain ⟨hwrites, hlists⟩ := branchEffects_eq_nil_iff.mp h
      exact .branch hbranch hwrites hlists
    split at h
    · rename_i hremote
      cases hoperands : invocation.operands with
      | nil => exact .remotes hremote hoperands
      | cons form names =>
        rcases (remoteEffects_cons hoperands).mp h with ⟨rfl, hnames⟩ | ⟨hshow, hform⟩
        · exact .known hremote hoperands hnames
        · exact .form hremote hoperands hshow hform
    split at h
    · rename_i hconfig
      exact .setting hconfig (configEffects_eq_nil_iff.mp h)
    · rename_i hreport hquery hbranch hremote hconfig
      refine .other ?_ h
      simp_all
  · intro h
    cases h with
    | report h houtput =>
      rw [if_pos (contains_iff_mem.mpr h)]
      exact reportEffects_eq_nil_iff.mpr houtput
    | query h =>
      have hreport : ¬reports.contains invocation.subcommand = true := by
        intro hin
        have hdisjoint : ∀ name ∈ queries, ¬reports.contains name = true := by decide
        exact hdisjoint _ h hin
      rw [if_neg hreport, if_pos (contains_iff_mem.mpr h)]
    | branch h hwrites hlists =>
      rw [h, if_neg (by decide), if_neg (by decide), if_pos rfl]
      exact branchEffects_eq_nil_iff.mpr ⟨hwrites, hlists⟩
    | remotes h hoperands =>
      rw [h, if_neg (by decide), if_neg (by decide), if_neg (by decide), if_pos rfl]
      unfold GitInvocation.remoteEffects
      rw [hoperands]
    | known h hoperands hnames =>
      rw [h, if_neg (by decide), if_neg (by decide), if_neg (by decide), if_pos rfl]
      exact (remoteEffects_cons hoperands).mpr (.inl ⟨rfl, hnames⟩)
    | form h hoperands hshow hform =>
      rw [h, if_neg (by decide), if_neg (by decide), if_neg (by decide), if_pos rfl]
      exact (remoteEffects_cons hoperands).mpr (.inr ⟨hshow, hform⟩)
    | setting h hreads =>
      rw [h, if_neg (by decide), if_neg (by decide), if_neg (by decide), if_neg (by decide),
        if_pos rfl]
      exact configEffects_eq_nil_iff.mpr hreads
    | other h hothers =>
      simp only [mem_append, not_or] at h
      obtain ⟨⟨hreport, hquery⟩, hrest⟩ := h
      rw [if_neg (mt contains_iff_mem.mp hreport), if_neg (mt contains_iff_mem.mp hquery)]
      rw [if_neg, if_neg, if_neg]
      · exact hothers
      · exact fun hname => hrest (by simp [hname])
      · exact fun hname => hrest (by simp [hname])
      · exact fun hname => hrest (by simp [hname])

theorem effects_eq_nil_iff : manual.effects invocation = [] ↔
      manual.refused invocation.subcommand invocation.line = true ∨
        manual.programs invocation = [] ∧ manual.IsReading invocation := by
  unfold effects
  cases manual.refused invocation.subcommand invocation.line with
  | true => simp
  | false => simp [formEffects_eq_nil_iff]

end ReadingManual

namespace GitCommands

/-- A subcommand with some words after it is taken for a local read. -/
inductive IsLocalRead (words : List String) : String → Prop
  /-- It is taken for one in any form. -/
  | listed {name : String} (h : name ∈ localReads.map Prod.fst) : IsLocalRead words name
  /-- `branch` without some words. -/
  | branch (h : branchIsReadonly words = true) : IsLocalRead words "branch"
  /-- `remote` with some first words. -/
  | remote (h : remoteIsReadonly words = true) : IsLocalRead words "remote"
  /-- `config` with some first words. -/
  | config (h : configIsReadonly words = true) : IsLocalRead words "config"

variable {services : CommandServices} {name program : String} {words tail args : List String}

/-- Reading is what is left when nothing denies it and a reading rule fits. -/
theorem classifySubcommand_localRead_iff :
    (classifySubcommand services name tail).operationClass = .localRead ↔
      ¬IsDenied (tail.map services.casefold) name ∧
        IsLocalRead (tail.map services.casefold) name := by
  rw [← destructiveReason_ne_none_iff]
  unfold classifySubcommand
  dsimp only
  cases destructiveReason name (tail.map services.casefold) with
  | some reason => simp
  | none =>
    simp only [ne_eq, not_true_eq_false, not_false_eq_true, true_and]
    cases hlookup : localReads.lookup name with
    | some operation =>
      obtain ⟨before, after, hsplit, -⟩ := lookup_eq_some_iff.mp hlookup
      have hlisted : name ∈ localReads.map Prod.fst := by
        rw [hsplit]
        simp
      exact ⟨fun _ => .listed hlisted, fun _ => rfl⟩
    | none =>
      dsimp only
      constructor
      · intro h
        split at h
        · rename_i hbranch
          obtain ⟨rfl, hread⟩ := hbranch
          exact .branch hread
        split at h
        · rename_i hremote
          obtain ⟨rfl, hread⟩ := hremote
          exact .remote hread
        split at h
        · rename_i hconfig
          obtain ⟨rfl, hread⟩ := hconfig
          exact .config hread
        · repeat' split at h
          all_goals cases h
      · intro h
        cases h with
        | listed h =>
          obtain ⟨entry, hentry, rfl⟩ := mem_map.mp h
          have hnone := lookup_eq_none_iff.mp hlookup entry hentry
          simp at hnone
        | branch h =>
          rw [if_pos ⟨rfl, h⟩]
          rfl
        | remote h =>
          rw [if_neg (by simp), if_pos ⟨rfl, h⟩]
          rfl
        | config h =>
          rw [if_neg (by simp), if_neg (by simp), if_pos ⟨rfl, h⟩]
          rfl

theorem classify_localRead_iff (hgit : isGit (executableName services program) = true) :
    (classify services (program :: args)).operationClass = .localRead ↔
      ∃ token tail, LeadsTo args token tail ∧
        ¬IsDenied (tail.map services.casefold) (services.casefold token) ∧
          IsLocalRead (tail.map services.casefold) (services.casefold token) := by
  rw [operationClass_iff hgit (by decide), exists_subcommand_iff]
  simp only [classifySubcommand_localRead_iff]

end GitCommands

namespace ReadingManual

/-- What is classified as reading has no effect. -/
def OnlyReads (manual : ReadingManual) (services : CommandServices) (argv : List String) : Prop :=
  (GitCommands.classify services argv).operationClass = .localRead →
    ∀ program args invocation, argv = program :: args →
      manual.readWhole args = some invocation → manual.effects invocation = []

/-- A line that passes the filter is refused by Git or only reads. -/
def HasReadingForm (manual : ReadingManual) (services : CommandServices) (argv : List String) :
    Prop :=
  ∀ program args invocation token tail, argv = program :: args →
    GitCommands.isGit (GitCommands.executableName services program) = true →
      GitCommands.LeadsTo args token tail →
        ¬GitCommands.IsDenied (tail.map services.casefold) (services.casefold token) →
          GitCommands.IsLocalRead (tail.map services.casefold) (services.casefold token) →
            manual.readWhole args = some invocation →
              manual.refused invocation.subcommand invocation.line = true ∨
                manual.programs invocation = [] ∧ manual.IsReading invocation

/-- What is called a local read only reads exactly if what is taken for one has a form that
reads. -/
theorem onlyReads_iff (manual : ReadingManual) (services : CommandServices) (argv : List String) :
    manual.OnlyReads services argv ↔ manual.HasReadingForm services argv := by
  constructor
  · rintro h program args invocation token tail rfl hgit hleads hdenied hread hwhole
    rw [← effects_eq_nil_iff]
    have hclass := (GitCommands.classify_localRead_iff hgit).mpr
      ⟨token, tail, hleads, hdenied, hread⟩
    exact h hclass program args invocation rfl hwhole
  · rintro h hclass program args invocation rfl hwhole
    rw [effects_eq_nil_iff]
    have hgit : GitCommands.isGit (GitCommands.executableName services program) = true := by
      by_contra hnot
      rw [Bool.not_eq_true] at hnot
      simp [GitCommands.classify, hnot, GitCommands.unknown] at hclass
    obtain ⟨token, tail, hleads, hdenied, hread⟩ :=
      (GitCommands.classify_localRead_iff hgit).mp hclass
    exact h program args invocation token tail rfl hgit hleads hdenied hread hwhole

def programSettings : List String :=
  ["core.fsmonitor", "core.pager", "core.editor", "core.sshCommand", "diff.external"]

/-- The manual as far as the commands below use it. -/
def readingManual : ReadingManual where
  globalValues := ["-C", "-c", "--git-dir", "--work-tree", "--namespace", "--config-env"]
  informs := ["--version", "-v", "--help", "-h", "--exec-path", "--html-path", "--man-path",
    "--info-path"]
  redirects _ given :=
    ["-C", "-c", "--git-dir", "--work-tree", "--namespace", "--config-env"].contains given.1
  options _ :=
    [("--output", true), ("--ext-diff", false), ("--no-ext-diff", false), ("--verbose", false),
      ("-n", false), ("--list", false), ("--no-list", false)]
  severalRemotes _ _ := false
  severalRefs _ := false
  updatesNothing _ := false
  brought given :=
    if given.1 = "--exec-path" then given.2
    else if ["-c", "--config-env"].contains given.1 then
      given.2.filter fun value => programSettings.any fun name => startsWith value (name ++ "=")
    else none
  asked _ options :=
    if (GitInvocation.mk [] "" (options.map .option)).inEffect ["--ext-diff"] "--no-ext-diff" then
      ["--ext-diff"]
    else []
  refused _ _ := false
  others _ _ := []

theorem not_onlyReads {args : List String} (invocation : GitInvocation)
    (hclass : (GitCommands.classify plainCommands ("git" :: args)).operationClass = .localRead)
    (hwhole : readingManual.readWhole args = some invocation)
    (heffects : readingManual.effects invocation ≠ []) :
    ¬readingManual.OnlyReads plainCommands ("git" :: args) :=
  fun h => heffects (h hclass "git" args invocation rfl hwhole)

/-- A branch is made, also after a listing option that is taken back, a report written to a file, a
remote contacted and a program run by commands that are called local reads. -/
theorem local_reads_do_more : ¬readingManual.OnlyReads plainCommands ["git", "branch", "new"] ∧
      ¬readingManual.OnlyReads plainCommands ["git", "branch", "--list", "--no-list", "new"] ∧
      ¬readingManual.OnlyReads plainCommands ["git", "diff", "--output=diff.txt"] ∧
      ¬readingManual.OnlyReads plainCommands ["git", "remote", "show", "origin"] ∧
      ¬readingManual.OnlyReads plainCommands
        ["git", "-c", "core.fsmonitor=./watch.sh", "status"] := by
  refine ⟨?_, ?_, ?_, ?_, ?_⟩
  · exact not_onlyReads ⟨[], "branch", [.operand "new"]⟩ (by decide +kernel) (by decide +kernel)
      (by decide +kernel)
  · exact not_onlyReads ⟨[], "branch", [.option ("--list", none), .option ("--no-list", none),
      .operand "new"]⟩ (by decide +kernel) (by decide +kernel) (by decide +kernel)
  · exact not_onlyReads ⟨[], "diff", [.option ("--output", some "diff.txt")]⟩ (by decide +kernel)
      (by decide +kernel) (by decide +kernel)
  · exact not_onlyReads ⟨[], "remote", [.operand "show", .operand "origin"]⟩ (by decide +kernel)
      (by decide +kernel) (by decide +kernel)
  · exact not_onlyReads ⟨[("-c", some "core.fsmonitor=./watch.sh")], "status", []⟩
      (by decide +kernel) (by decide +kernel) (by decide +kernel)

end ReadingManual

end AIpinho.Tools
