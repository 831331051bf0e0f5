import AIpinho.Tools.GitCommands

/-!
# What a command of Git works on

The manual of Git says how the words of a command are read: options that select another
repository, options that take the next word, operands, and refspecs.
-/

namespace AIpinho.Tools

/-- An option in a table: its name, and whether it takes the next word as its value. -/
abbrev OptionEntry : Type := String × Bool

abbrev GivenOption : Type := String × Option String

/-- A word after the subcommand, as it is read. -/
inductive LineWord
  | option (given : GivenOption)
  | operand (word : String)
  deriving DecidableEq

/-- A command of Git as it is read. -/
structure GitInvocation where
  redirects : List GivenOption
  subcommand : String
  line : List LineWord
  deriving DecidableEq

/-- What the manual says of options. -/
structure GitManual where
  /-- The options before the subcommand that take the next word. -/
  globalValues : List String
  /-- The options before the subcommand with which it is not run. -/
  informs : List String
  /-- Whether an option before the subcommand selects, in a directory, another repository or
  working tree, a namespace or a setting. -/
  redirects : String → GivenOption → Bool
  options : String → List OptionEntry
  severalRemotes : String → List GivenOption → Bool
  /-- Whether options make a push update more than its refspecs say. -/
  severalRefs : List GivenOption → Bool
  updatesNothing : List GivenOption → Bool

namespace GitManual

/-- A text before and after its first `=`. -/
def splitValue (text : String) : String × Option String :=
  let chars := text.toList
  (String.ofList (chars.takeWhile (· ≠ '=')),
    if '=' ∈ chars then some (String.ofList ((chars.dropWhile (· ≠ '=')).drop 1)) else none)

variable (table : List OptionEntry)

def longEntry (name : String) : OptionEntry :=
  match table.find? (·.1 = name) with
  | some entry => entry
  | none =>
    match table.filter fun entry => startsWith entry.1 name with
    | [entry] => entry
    | _ => (name, false)

def takesValue (name : String) : Bool := table.contains (name, true)

def readShort (table : List OptionEntry) : List Char → List LineWord × Option String
  | [] => ([], none)
  | c :: rest =>
    let name := String.ofList ['-', c]
    if takesValue table name then
      if rest = [] then ([], some name)
      else ([.option (name, some (String.ofList rest))], none)
    else
      let (words, last) := readShort table rest
      (.option (name, none) :: words, last)

def readOption (word : String) : List LineWord × Option String :=
  if startsWith word "--" then
    let (name, value) := splitValue word
    let entry := longEntry table name
    if value.isNone && entry.2 then ([], some entry.1)
    else ([.option (entry.1, value)], none)
  else readShort table (word.toList.drop 1)

/-- The words after the subcommand; after `--` all are operands. -/
def readLine (table : List OptionEntry) : List String → List LineWord
  | [] => []
  | [word] =>
    if word = "--" then []
    else if startsWith word "-" && word ≠ "-" then
      let (words, last) := readOption table word
      words ++ last.toList.map fun name => .option (name, none)
    else [.operand word]
  | word :: next :: rest =>
    if word = "--" then (next :: rest).map .operand
    else if startsWith word "-" && word ≠ "-" then
      match readOption table word with
      | (words, some name) => words ++ .option (name, some next) :: readLine table rest
      | (words, none) => words ++ readLine table (next :: rest)
    else .operand word :: readLine table (next :: rest)

variable (manual : GitManual)

def readGlobal : List String → Option (List GivenOption × String × List String)
  | [] => none
  | [word] => if startsWith word "-" then none else some ([], word, [])
  | word :: next :: rest =>
    if manual.informs.contains word then none
    else if manual.globalValues.contains word then
      (readGlobal rest).map fun (options, command) => ((word, some next) :: options, command)
    else if startsWith word "-" then
      (readGlobal (next :: rest)).map fun (options, command) =>
        (splitValue word :: options, command)
    else some ([], word, next :: rest)

/-- The words of a command in a directory, without the program. -/
def read (directory : String) (args : List String) : Option GitInvocation :=
  (manual.readGlobal args).map fun (options, subcommand, rest) =>
    { redirects := options.filter (manual.redirects directory)
      subcommand
      line := readLine (manual.options subcommand) rest }

def workingSubcommands : List String := ["push", "pull", "fetch", "clone", "commit"]

/-- The words run Git, as the manual reads them, with a subcommand that works. -/
def Runs (services : CommandServices) (directory : String) (argv : List String)
    (invocation : GitInvocation) : Prop :=
  ∃ program args, argv = program :: args ∧
    GitCommands.isGit (GitCommands.executableName services program) = true ∧
    manual.read directory args = some invocation ∧
    workingSubcommands.contains invocation.subcommand = true

end GitManual

/-- What a refspec of a push updates. -/
inductive PushTarget
  | branch (name : String)
  | current
  | several
  | nothing
  deriving DecidableEq

namespace GitInvocation

variable (invocation : GitInvocation)

def options : List GivenOption :=
  invocation.line.filterMap fun
    | .option given => some given
    | .operand _ => none

def operands : List String :=
  invocation.line.filterMap fun
    | .option _ => none
    | .operand word => some word

/-- The value of the last `--repo`. -/
def repoOption : Option String := (invocation.options.reverse.find? (·.1 = "--repo")).bind (·.2)

def remoteWord : Option String :=
  invocation.operands.head?.or
    (if invocation.subcommand = "push" then invocation.repoOption else none)

def branchOfRef (ref : String) : String :=
  if startsWith ref "refs/heads/" then String.ofList (ref.toList.drop "refs/heads/".length)
  else ref

/-- What a refspec updates: a leading `+` forces, and a leading `^` leaves out. -/
def targetOf (refspec : String) : PushTarget :=
  let plain := if startsWith refspec "+" then String.ofList (refspec.toList.drop 1) else refspec
  if startsWith refspec "^" then .nothing
  else if '*' ∈ plain.toList then .several
  else
    match GitCommands.splitColon plain with
    | none => if plain = "HEAD" ∨ plain = "@" then .current else .branch (branchOfRef plain)
    | some (source, destination) =>
      if destination ≠ "" then .branch (branchOfRef destination)
      else if source ≠ "" then .branch (branchOfRef source) else .several

/-- What refspecs update; `tag` takes the next word. -/
def targetsOf : List String → List PushTarget
  | [] => []
  | [refspec] => [targetOf refspec]
  | refspec :: next :: rest =>
    if refspec = "tag" then .branch ("refs/tags/" ++ next) :: targetsOf rest
    else targetOf refspec :: targetsOf (next :: rest)

def targets : List PushTarget := targetsOf (invocation.operands.drop 1)

end GitInvocation

/-- The state of the repositories, as far as it decides what a command works on: by the
directory, and the options that select something. -/
structure GitWorld where
  repository : String → List GivenOption → String
  locator : String → List GivenOption → String → String
  pushLocators : String → List GivenOption → String → List String
  defaultRemote : String → List GivenOption → String
  severalLocators : String → List GivenOption → List String
  currentBranch : String → List GivenOption → String
  defaultRefs : String → List GivenOption → List String
  severalRefs : String → List GivenOption → List String

namespace GitWorld

variable (world : GitWorld) (manual : GitManual) (directory : String) (invocation : GitInvocation)

def worksIn : String := world.repository directory invocation.redirects

def locators (word : String) : List String :=
  if invocation.subcommand = "push" then
    world.pushLocators directory invocation.redirects word
  else [world.locator directory invocation.redirects word]

def worksOn : List String :=
  if invocation.subcommand = "commit" then []
  else if manual.severalRemotes invocation.subcommand invocation.options then
    world.severalLocators directory invocation.redirects
  else
    match invocation.remoteWord with
    | some word => world.locators directory invocation word
    | none =>
      if invocation.subcommand = "clone" then []
      else
        world.locators directory invocation
          (world.defaultRemote directory invocation.redirects)

def refsOf : PushTarget → List String
  | .branch name => [name]
  | .current => [world.currentBranch directory invocation.redirects]
  | .several => world.severalRefs directory invocation.redirects
  | .nothing => []

def updates : List String :=
  if invocation.subcommand ≠ "push" || manual.updatesNothing invocation.options then []
  else if manual.severalRefs invocation.options then
    world.severalRefs directory invocation.redirects
  else if invocation.targets = [] then world.defaultRefs directory invocation.redirects
  else invocation.targets.flatMap (world.refsOf directory invocation)

end GitWorld

end AIpinho.Tools
