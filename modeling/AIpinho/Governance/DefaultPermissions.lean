import AIpinho.Governance.Lifecycle

/-!
# Which actions the policy allows without being told to

`CanonicalPolicyService.resolve` asks for an approval when a write action is requested and no
upstream decision says more. The action registry names further actions with side effects, and
aliases for all of them. When does an allowed side effect rest on explicit allow words?
-/

namespace AIpinho.Governance

open List Lib

/-- `ActionDefinition`, as far as the checks of the registry read it. -/
structure ActionDefinition where
  aliases : List String
  sideEffect : Bool
  requiresApproval : Bool
  /-- Why a side effect needs no approval. -/
  approvalExceptionReason : Option String := none

/-- `ActionRegistryConfig`: the actions under their canonical names. -/
abbrev ActionRegistry := List (String × ActionDefinition)

/-- `ConfigValidationError`. -/
inductive RegistryError
  | sideEffectNeedsApproval (canonical : String)
  | duplicateAlias (name previous canonical : String)
  | unknownAction (name : String)
  deriving DecidableEq

def RegistryError.message : RegistryError → String
  | .sideEffectNeedsApproval canonical =>
    "Side-effect action requires approval or explicit exception: " ++ canonical
  | .duplicateAlias name previous canonical =>
    "Duplicate action alias '" ++ name ++ "' for " ++ previous ++ " and " ++ canonical
  | .unknownAction name => "Unknown action: " ++ name

/-- The inner loop of `validate`: every name of an action enters the alias table. -/
def enterNames (canonical : String) :
    List (String × String) → List String → Except RegistryError (List (String × String))
  | aliases, [] => .ok aliases
  | aliases, name :: names =>
    match aliases.lookup name with
    | some previous =>
      if previous ≠ canonical then .error (.duplicateAlias name previous canonical)
      else enterNames canonical aliases names
    | none => enterNames canonical ((name, canonical) :: aliases) names

/-- The outer loop of `validate`. -/
def enterActions :
    List (String × String) → ActionRegistry → Except RegistryError (List (String × String))
  | aliases, [] => .ok aliases
  | aliases, (canonical, definition) :: actions =>
    if definition.sideEffect && !definition.requiresApproval &&
        definition.approvalExceptionReason.getD "" = "" then
      .error (.sideEffectNeedsApproval canonical)
    else do
      let aliases ← enterNames canonical aliases (canonical :: definition.aliases)
      enterActions aliases actions

variable (registry : ActionRegistry)

/-- `ActionRegistryService.validate`: the alias table of a registry. -/
def ActionRegistry.validate : Except RegistryError (List (String × String)) :=
  enterActions [] registry

/-- `normalize_action`. -/
def ActionRegistry.normalizeAction (actionName : String) : Except RegistryError String := do
  let aliases ← registry.validate
  match aliases.lookup actionName with
  | some canonical => .ok canonical
  | none => .error (.unknownAction actionName)

/-- `is_side_effect`, through `get_action`. -/
def ActionRegistry.isSideEffect (actionName : String) : Except RegistryError Bool := do
  let canonical ← registry.normalizeAction actionName
  match registry.lookup canonical with
  | some definition => .ok definition.sideEffect
  | none => .error (.unknownAction canonical)

def readAction (canonical : String) (aliases : List String) : String × ActionDefinition :=
  (canonical, ⟨aliases, false, false, none⟩)

/-- A side effect of the shipped registry, which always needs an approval. -/
def writeAction (canonical : String) (aliases : List String) : String × ActionDefinition :=
  (canonical, ⟨aliases, true, true, none⟩)

/-- `config/policies/action_registry.yaml`. -/
def actionRegistry : ActionRegistry :=
  [readAction "read_files" ["read_file", "file_read", "read_workspace"],
    readAction "list_directory" ["list_dir", "directory_list", "inspect_directory"],
    readAction "inspect_path" ["path_info", "stat_path", "inspect_file"],
    readAction "read_config" ["config_read", "inspect_config"],
    writeAction "write_files" ["write_file", "file_write", "write_workspace", "filesystem_write",
      "filesystem_write_file", "file_modify", "modify_file", "create_file", "create_directory",
      "project_write", "create_project", "write_text_file", "append_text_file"],
    writeAction "apply_patch" ["patch_apply", "patch_apply_request"],
    writeAction "run_command" ["shell", "run_shell", "shell_execute", "build_run", "run_build"],
    readAction "run_tests" ["pytest", "validation_command", "test_run", "run_unit_tests"],
    readAction "use_rag" ["rag_query", "retrieve_context"],
    writeAction "write_memory" ["save_memory", "memory_write"],
    writeAction "git_commit" ["commit"],
    writeAction "git_push" ["push"],
    readAction "patch_preview" ["preview_patch", "diff_preview"],
    readAction "memory_read" ["read_memory", "memory_search"],
    readAction "git_status" ["status"],
    writeAction "web_request" ["http_request", "fetch_url", "web_search", "search_web",
      "public_fact_query"],
    readAction "project_tree" ["build_project_tree"],
    readAction "project_context" ["build_file_context"],
    readAction "project_analysis" ["analyze_project"],
    readAction "project_report" ["deterministic_project_report"],
    readAction "role_pipeline_run" ["run_role_pipeline"],
    readAction "validate_runtime" [],
    readAction "compose_result" []]

def allowedValues : List String := ["allowed", "permit", "permitted", "ok"]

/-- An upstream decision as `normalize` reads it: whatever counts as false in the
source (a missing value, an empty text) is the empty text. -/
abbrev UpstreamDecision := Option String

/-- The text of an upstream decision, `str(value or "")`. -/
def UpstreamDecision.text (decision : UpstreamDecision) : String := decision.getD ""

variable (fold : String → String)

def isAllowWord (decision : UpstreamDecision) : Bool :=
  allowedValues.contains (fold (UpstreamDecision.text decision))

def isBlank (decision : UpstreamDecision) : Bool :=
  fold (UpstreamDecision.text decision) = ""

def hasSideEffect (action : String) : Prop :=
  writeActions.contains action ∨ registry.isSideEffect action = .ok true

/-- `resolve` on a list of upstream decisions. -/
def resolve (contract : OperationContract) (decisions : List UpstreamDecision) : PolicyDecision :=
  resolvePolicy fold contract (decisions.map UpstreamDecision.text)

/-- Side effects are allowed only if a decision was given and all given ones allow. -/
def AllowedExplicitly (registry : ActionRegistry) (contract : OperationContract)
    (decisions : List UpstreamDecision) : Prop :=
  (resolve fold contract decisions).permission = .allowed →
    (∃ action ∈ (resolve fold contract decisions).allowedActions,
      hasSideEffect registry action) →
    decisions ≠ [] ∧ ∀ decision ∈ decisions, isAllowWord fold decision = true

/-- A contract whose requested actions reach the question whether they are write
actions, or are allowed before it is asked. -/
def OperationContract.asksForWrites (contract : OperationContract)
    (decisions : List UpstreamDecision) : Bool :=
  !contract.isReadonlyArtifact && (nonExecutingOperations.contains contract.operationType ||
    decisions.isEmpty && contract.requestedActions.any writeActions.contains)

/-- What must hold of a contract and its upstream decisions: some decision objects, or every
decision says something, or no side effect is requested, or the contract is not a read-only
artifact and executes nothing or names a write action while nothing was decided. -/
def PermitsKnowingly (registry : ActionRegistry) (contract : OperationContract)
    (decisions : List UpstreamDecision) : Prop :=
  (∃ decision ∈ decisions, isBlank fold decision = false ∧ isAllowWord fold decision = false) ∨
    (decisions ≠ [] ∧ ∀ decision ∈ decisions, isBlank fold decision = false) ∨
    (∀ action ∈ contract.requestedActions, ¬hasSideEffect registry action) ∨
    contract.asksForWrites decisions = true

section

variable {fold : String → String} {contract : OperationContract} {decisions : List UpstreamDecision}

theorem normalize_eq_allowed_iff (value : String) :
    normalize fold value = .allowed ↔ fold value ∈ allowedValues ∨ fold value = "" := by
  constructor
  · intro h
    simp only [normalize] at h
    split_ifs at h with hask hdenied hclarify hexpired hstale hallowed
    simpa [allowedValues] using hallowed
  · intro h
    simp only [normalize]
    generalize fold value = text at h
    rcases h with h | rfl
    · simp only [allowedValues, mem_cons, not_mem_nil, or_false] at h
      rcases h with rfl | rfl | rfl | rfl <;> decide
    · decide

theorem normalize_text_eq_allowed_iff (decision : UpstreamDecision) :
    normalize fold (UpstreamDecision.text decision) = .allowed ↔
      ¬(isBlank fold decision = false ∧ isAllowWord fold decision = false) := by
  rw [normalize_eq_allowed_iff]
  simp only [isBlank, isAllowWord, contains_iff_mem, ← Bool.not_eq_true, decide_eq_true_eq]
  tauto

theorem normalize_eq_allowed_of_resolve
    (h : (resolve fold contract decisions).permission = .allowed) :
    ∀ decision ∈ decisions, normalize fold (UpstreamDecision.text decision) = .allowed := by
  intro decision hdecision
  have hmem : normalize fold (UpstreamDecision.text decision) ∈
      (decisions.map UpstreamDecision.text).map (normalize fold) :=
    mem_map_of_mem (mem_map_of_mem hdecision)
  by_contra hne
  unfold resolve resolvePolicy at h
  -- Each other permission has a check of its own, before anything is allowed.
  cases hvalue : normalize fold (UpstreamDecision.text decision) with
  | allowed => exact hne hvalue
  | invalid =>
    rw [hvalue] at hmem
    simp only [contains_iff_mem, hmem, if_true] at h
    exact absurd h (by decide)
  | ask | denied | needsClarification | expired | stale =>
    rw [hvalue] at hmem
    simp only [contains_iff_mem, hmem, if_true] at h
    split_ifs at h

theorem resolve_of_allowed
    (h : ∀ decision ∈ decisions, normalize fold (UpstreamDecision.text decision) = .allowed) :
    resolve fold contract decisions = if contract.isReadonlyArtifact then
        ⟨.allowed, contract.requestedActions.eraseDups, [], [], .none, false⟩
      else if nonExecutingOperations.contains contract.operationType then
        ⟨.allowed, [], [], [], .readonlyOrPlanning, false⟩
      else if !decisions.isEmpty then
        ⟨.allowed, contract.requestedActions.eraseDups, [], [], .none, false⟩
      else if contract.requestedActions.eraseDups.any writeActions.contains then
        ⟨.ask, [], contract.requestedActions.eraseDups, [], .approvalRequired, true⟩
      else ⟨.allowed, contract.requestedActions.eraseDups, [], [], .none, false⟩ := by
  have hall : ∀ value ∈ (decisions.map UpstreamDecision.text).map (normalize fold),
      value = .allowed := by
    intro value hvalue
    simp only [mem_map] at hvalue
    obtain ⟨text, ⟨decision, hdecision, rfl⟩, rfl⟩ := hvalue
    exact h decision hdecision
  have hnone : ∀ permission : CanonicalPermission, permission ≠ .allowed →
      ((decisions.map UpstreamDecision.text).map (normalize fold)).contains permission = false := by
    intro permission hpermission
    rw [← Bool.not_eq_true, contains_iff_mem]
    exact fun hmem => hpermission (hall permission hmem)
  have hevery : ((decisions.map UpstreamDecision.text).map (normalize fold)).all
      (fun value => value = .allowed) = true := by
    simpa only [all_eq_true, decide_eq_true_eq] using hall
  have hempty : ((decisions.map UpstreamDecision.text).map (normalize fold)).isEmpty =
      decisions.isEmpty := by
    rw [isEmpty_map, isEmpty_map]
  unfold resolve resolvePolicy
  simp only [hnone _ (by decide : CanonicalPermission.invalid ≠ .allowed),
    hnone _ (by decide : CanonicalPermission.expired ≠ .allowed),
    hnone _ (by decide : CanonicalPermission.stale ≠ .allowed),
    hnone _ (by decide : CanonicalPermission.denied ≠ .allowed),
    hnone _ (by decide : CanonicalPermission.needsClarification ≠ .allowed),
    hnone _ (by decide : CanonicalPermission.ask ≠ .allowed), hevery, hempty,
    Bool.false_eq_true, if_false, Bool.and_true]

theorem allowedActions_of_allowed
    (h : ∀ decision ∈ decisions, normalize fold (UpstreamDecision.text decision) = .allowed)
    (action : String) :
    ((resolve fold contract decisions).permission = .allowed ∧
      action ∈ (resolve fold contract decisions).allowedActions) ↔
      action ∈ contract.requestedActions ∧ contract.asksForWrites decisions = false := by
  have hwrites : contract.requestedActions.eraseDups.any writeActions.contains =
      contract.requestedActions.any writeActions.contains := by
    rw [Bool.eq_iff_iff]
    simp only [any_eq_true, mem_eraseDups]
  rw [resolve_of_allowed h, hwrites]
  unfold OperationContract.asksForWrites
  cases hreadonly : contract.isReadonlyArtifact
  case true => simp
  cases hplanning : nonExecutingOperations.contains contract.operationType
  case true => simp
  cases hempty : decisions.isEmpty
  case false => simp
  cases hany : contract.requestedActions.any writeActions.contains <;> simp

/-- An allowed side effect rests on explicit allow words exactly when no blank decision stands
beside allow words or in their place, and no side effect slips through a read-only artifact
contract or a name that is no write action of the policy. -/
theorem allowedExplicitly_iff (registry : ActionRegistry) :
    AllowedExplicitly fold registry contract decisions ↔
      PermitsKnowingly fold registry contract decisions := by
  unfold AllowedExplicitly PermitsKnowingly
  by_cases hobjects : ∃ decision ∈ decisions,
      isBlank fold decision = false ∧ isAllowWord fold decision = false
  · -- The objection is found before anything is allowed.
    refine iff_of_true ?_ (Or.inl hobjects)
    intro hpermission
    obtain ⟨decision, hdecision, hobjection⟩ := hobjects
    have hallowed := normalize_eq_allowed_of_resolve hpermission decision hdecision
    exact absurd hobjection ((normalize_text_eq_allowed_iff decision).mp hallowed)
  have hallowed : ∀ decision ∈ decisions,
      normalize fold (UpstreamDecision.text decision) = .allowed := by
    intro decision hdecision
    rw [normalize_text_eq_allowed_iff]
    exact fun hobjection => hobjects ⟨decision, hdecision, hobjection⟩
  have hword : ∀ decision ∈ decisions,
      (isAllowWord fold decision = true ↔ isBlank fold decision = false) := by
    intro decision hdecision
    constructor
    · intro h
      by_contra hblank
      have hempty : fold (UpstreamDecision.text decision) = "" := by
        simpa [isBlank] using hblank
      rw [isAllowWord, hempty] at h
      exact absurd h (by decide)
    · intro hblank
      by_contra hno
      exact hobjects ⟨decision, hdecision, hblank, by simpa using hno⟩
  have hexplicit : (∀ decision ∈ decisions, isAllowWord fold decision = true) ↔
      ∀ decision ∈ decisions, isBlank fold decision = false := by
    exact ⟨fun h d hd => (hword d hd).mp (h d hd), fun h d hd => (hword d hd).mpr (h d hd)⟩
  have hactions := @allowedActions_of_allowed fold contract decisions hallowed
  rw [hexplicit]
  constructor
  · intro h
    by_contra hcondition
    simp only [not_or, Bool.not_eq_true] at hcondition
    obtain ⟨-, hsilent, hnone, hwrites⟩ := hcondition
    push Not at hnone
    obtain ⟨action, haction, hside⟩ := hnone
    obtain ⟨hpermission, hmem⟩ := (hactions action).mpr ⟨haction, hwrites⟩
    exact hsilent (h hpermission ⟨action, hmem, hside⟩)
  · rintro (h | h | h | h) hpermission ⟨action, hmem, hside⟩
    · exact absurd h hobjects
    · exact h
    · exact absurd hside (h action ((hactions action).mp ⟨hpermission, hmem⟩).1)
    · have hwrites := ((hactions action).mp ⟨hpermission, hmem⟩).2
      rw [h] at hwrites
      exact absurd hwrites (by decide)

end

def oneActionContract (action : String) : OperationContract where
  operationId := "op"
  operationType := "git_operation"
  contractType := "git_operation"
  runtimeProfile := "git_operation"
  requiresTask := true
  readOnly := false
  artifactGeneration := false
  workspaceMutation := false
  requestedActions := [action]
  targetPaths := []

/-- Nothing was decided upstream and `push` is allowed, a side effect that the policy does not
know. A missing decision allows `write_files` as well. -/
theorem push_allowed_by_default :
    ¬AllowedExplicitly id actionRegistry (oneActionContract "push") [] ∧
    ¬AllowedExplicitly id actionRegistry (oneActionContract "write_files") [none] := by
  have hpush : actionRegistry.isSideEffect "push" = .ok true := by decide +kernel
  constructor
  · intro h
    exact (h (by decide) ⟨"push", by decide, Or.inr hpush⟩).1 rfl
  · intro h
    have hblank := (h (by decide) ⟨"write_files", by decide, Or.inl (by decide)⟩).2 none
      (by decide)
    exact absurd hblank (by decide)

end AIpinho.Governance
