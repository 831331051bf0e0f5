import AIpinho.Queue.Service

/-!
# The runs that continue a mission

`MissionPhaseCoordinatorService.materialize_next_run` first looks for a child that an earlier
call has created, among the newest thousand runs of the session. If it finds none, it reserves a
run, evaluates the dependency on the previous phase for it, and completes or blocks it.
-/

namespace AIpinho.Mission

open Lib AIpinho.Runtime
open AIpinho.Queue (newestFirst)

variable (fields : List (String × Json))

def objectField (name : String) : List (String × Json) :=
  match fields.lookup name with
  | some (.obj members) => members
  | _ => []

def listField (name : String) : List Json :=
  match fields.lookup name with
  | some (.list items) => items
  | _ => []

variable (codec : Codec)

/-- `str(value or "")` for a member. -/
def textOr (fields : List (String × Json)) (name : String) : String :=
  match fields.lookup name with
  | some v => if v.truthy then valueText codec v else ""
  | none => ""

variable (run : TaskRun)

/-- `run.intent_map`. -/
def intentMap : List (String × Json) := objectField run.evidence "intent_map"

/-- `run.intent_map["mission_continuation"]`, empty if it is no object. -/
def continuation : List (String × Json) :=
  objectField (intentMap run) "mission_continuation"

/-- `run.session_id`. -/
def sessionId : Option String := textField? run.evidence "session_id"

/-- `run.parent_task_id`. -/
def parentTaskId : Option String := textField? run.evidence "parent_task_id"

/-- A text, or `null`. -/
def textJson : Option String → Json
  | some text => .str text
  | none => .null

def textsJson (texts : List String) : Json := .list (texts.map .str)

def unique (texts : List String) : List String :=
  (texts.filter (· ≠ "")).foldl (fun kept text => if text ∈ kept then kept else kept ++ [text]) []

/-- `MissionContinuationCandidate`, as far as the coordinator reads it. -/
structure ContinuationCandidate where
  candidateId : String
  plannerRef : String
  dependencyId : String
  phaseId : String
  operationType : String
  contractType : String
  runtimeProfile : Option String
  requestedActions : List String
  requiredCapabilities : List String
  runtimeCapabilitiesRequired : List String
  /-- `governed` or `read_only`. -/
  mode : String
  semanticGoal : Option String
  /-- The dump of the requirements on the previous phase. -/
  requirements : Json
  /-- Whatever else the planner has noted. -/
  metadata : List (String × Json)

/-- `MissionContinuationDecision`, as far as the coordinator reads it. -/
structure ContinuationDecision where
  action : String
  reasonCode : String
  hasChildContract : Bool
  evidenceRefs : List String

/-- The identifiers and the time that `reserve_run` gives to a new run, and the members of
its document that the coordinator does not set. -/
structure Identity where
  runId : String
  taskId : String
  operationId : String
  createdAt : String
  others : List (String × Json)

/-- What the evaluation of the dependency has found. -/
structure DependencyEvaluation where
  dump : Json
  evidenceRefs : List String

/-- What the admission of the dependency, and its validation, have found. -/
structure DependencyAdmission where
  authorized : Bool
  valid : Bool
  validationReason : String
  reasonCode : String
  dump : Json

/-- What `TaskRuntimeService.create_run` makes of a reserved run. -/
structure Enrichment where
  status : TaskRunStatus
  plan : TaskRunPlan
  workflow : Option WorkflowRuntimeInstance
  executionGraph : Option ExecutionGraph
  approvalSnapshot : Json
  warnings : List String
  blockedReasons : List String
  /-- The remaining members of its document. -/
  others : List (String × Json)
  /-- An error that is raised after the run was saved. -/
  failure : Option String

/-- What the other services answer in one call. -/
structure Answers where
  /-- The directories of the runs, in the order in which the file system lists them. -/
  directory : List String
  /-- `MissionContinuationService.decide`. -/
  decision : ContinuationDecision
  /-- Whether there is an outcome of the previous phase. -/
  hasOutcome : Bool
  /-- `_workspace_for_candidate`. -/
  workspace : Except String (Option String)
  /-- The requested actions under their normal names, or the class of an error. -/
  requestedActions : Except String (List String)
  /-- `ActionRegistryService.capability_for`. -/
  capabilityFor : String → Option String
  requestError : Option String
  /-- The new run, or an error that `reserve_run` raises before it has saved it. -/
  identity : Except String Identity
  /-- `evaluate_candidate_dependency`. -/
  evaluation : DependencyEvaluation
  /-- `authorize` and `validate_admission`. -/
  admission : DependencyAdmission
  /-- Whether the child needs a context that is not ready. -/
  contextMissing : Bool
  contextHandoff : Option Json
  /-- `TaskRuntimeService.create_run`, or an error that it raises before it has saved
  the run. -/
  enrichment : Except String Enrichment
  now : String

/-- `MissionContinuationMaterialization`. -/
structure Materialization where
  /-- `materialized`, `blocked` or `not_applicable`. -/
  status : String
  reasonCode : String
  childTaskRunId : Option String
  childTaskId : Option String
  childOperationId : Option String
  childPhase : Option String
  reusedExistingChild : Bool
  evidenceRefs : List String

abbrev RunTable := Table String RunFiles

/-- `TaskRunStore.get_run`. -/
def getRun (runs : RunTable) (runId : String) : RunRead :=
  match runs.get? runId with
  | some files => files.getRun
  | none => .missing

/-- `TaskRunStore.update_run`. -/
def updateRun (runs : RunTable) : RunTable :=
  runs.insert run.runId
    (((runs.get? run.runId).getD ⟨none, none, [], none, []⟩).updateRun codec run)

/-- `TaskRunStore.create_run`. -/
def createRun (runs : RunTable) : Except String RunTable :=
  match getRun runs run.runId with
  | .found _ => .error "task_run_already_exists"
  | .invalid => .error "ValidationError"
  | .missing => .ok (updateRun codec run runs)

/-- Whether `list_runs` finds a document for a session: by its index, or, without one, by
reading the document. -/
def candidateOf (session : Option String) (files : RunFiles) : Option TaskRun :=
  files.run.filter fun run =>
    (files.index.isSome || run.isValid) &&
      (session.getD "" == "" || decide (sessionId run = session))

variable (directory : List String)

/-- The documents that `list_runs` finds for a session, the newest first. -/
def candidates (session : Option String) (runs : RunTable) : List (String × TaskRun) :=
  newestFirst (directory.filterMap fun runId =>
    ((runs.get? runId).bind (candidateOf session)).map (runId, ·))

/-- `TaskRunStore.list_runs` of a session. Of the newest documents, those that cannot be
read are skipped. -/
def listRuns (session : Option String) (limit : ℕ) (runs : RunTable) : List (String × TaskRun) :=
  let window := (candidates directory session runs).take (max 1 (min limit 1000))
  let shown := (window.filter (·.2.isValid)).map fun entry => (entry.1, entry.2.projected)
  (newestFirst shown).take (max 1 (min limit 1000))

/-- `TaskRunStore.get_run_by_task_id`. -/
def getRunByTaskId (taskId : String) (runs : RunTable) : Option TaskRun :=
  if taskId = "" then none
  else directory.findSome? fun runId =>
    match getRun runs runId with
    | .found run =>
      if run.taskId = some taskId ∨ run.runId = taskId ∨
          textField? run.evidence "task_run_id" = some taskId then some run
      else none
    | _ => none

def IsChild (previous : TaskRun) (candidateId : String) (run : TaskRun) : Prop :=
  (parentTaskId run).getD "" ∈ [previous.taskId.getD "", previous.runId] ∧
    textOr codec (continuation run) "candidate_id" = candidateId

instance decidableIsChild (codec : Codec) (previous : TaskRun) (candidateId : String)
    (run : TaskRun) : Decidable (IsChild codec previous candidateId run) :=
  inferInstanceAs (Decidable (_ ∧ _))

def existingChild (previous : TaskRun) (candidateId : String) (runs : RunTable) : Option TaskRun :=
  ((listRuns directory (sessionId previous) 1000 runs).find? fun entry =>
      decide (IsChild codec previous candidateId entry.2)).map fun entry =>
    match getRun runs entry.1 with
    | .found run => run
    | _ => entry.2

/-- `PhaseIdentityService.from_mapping`. -/
def phaseFromMapping (strip : String → String) (values : List (String × Json)) : Option String :=
  ["current_phase", "phase_id", "mission_phase", "phase"].findSome? fun key =>
    match values.lookup key with
    | none => none
    | some .null => none
    | some v => some (strip (valueText codec v)) |>.filter (· ≠ "")

/-- `PhaseIdentityService.from_run`; the workflow of a run holds no phase of its own that
is read here. -/
def phaseFromRun (strip : String → String) (run : TaskRun) : Option String :=
  (phaseFromMapping codec strip (run.evidence.filter fun f => f.1 == "current_phase")).or
    ((phaseFromMapping codec strip (intentMap run)).or
      (phaseFromMapping codec strip (objectField run.evidence "bootstrap_context")))

/-- The depth of a continuation, zero if it is no number. -/
def depthOf : ℤ :=
  match fields.lookup "depth" with
  | some (.int n) => max 0 n
  | some (.str text) => max 0 (text.toInt?.getD 0)
  | _ => 0

def inheritedNames : List String :=
  ["semantic_intent_graph", "future_side_effect_intent", "mission_execution_strategy",
    "completion_requirements", "validation_requirements", "allow_limited_completion"]

variable (candidate : ContinuationCandidate)

def historyEntry : Json :=
  .obj [("candidate_id", .str candidate.candidateId), ("phase_id", .str candidate.phaseId),
    ("operation_type", .str candidate.operationType),
    ("contract_type", .str candidate.contractType),
    ("runtime_profile", textJson candidate.runtimeProfile),
    ("requested_actions", textsJson candidate.requestedActions),
    ("required_capabilities", textsJson candidate.requiredCapabilities),
    ("runtime_capabilities_required", textsJson candidate.runtimeCapabilitiesRequired)]

/-- The continuation that `_intent_map` writes. -/
def continuationPayload (strip : String → String) (previous : TaskRun)
    (candidate : ContinuationCandidate) (evaluation admission : Option Json) :
    List (String × Json) :=
  let before := continuation previous
  let texts name := ((listField before name).map (valueText codec)).filter (· ≠ "")
  let previousPhase := phaseFromRun codec strip previous
  let repair := objectField candidate.metadata "evidence_repair"
  [("candidate_id", .str candidate.candidateId), ("planner_ref", .str candidate.plannerRef),
    ("dependency_id", .str candidate.dependencyId), ("previous_run_id", .str previous.runId),
    ("previous_task_id", textJson previous.taskId),
    ("previous_phase", textJson previousPhase), ("next_phase", .str candidate.phaseId),
    ("depth", .int (depthOf before + 1)),
    ("lineage", textsJson (unique (texts "lineage" ++ [previous.runId]))),
    ("phase_lineage", textsJson
      (unique (texts "phase_lineage" ++ previousPhase.toList ++ [candidate.phaseId]))),
    ("history", .list ((listField before "history").filter (fun v =>
      match v with
      | .obj _ => true
      | _ => false) ++ [historyEntry candidate])),
    ("phase_dependency_requirements", candidate.requirements)] ++
    (if (repair.lookup "required").any (·.truthy) then [("evidence_repair", .obj repair)]
      else []) ++
    (evaluation.map fun v => ("phase_dependency_evaluation", v)).toList ++
    (admission.map fun v => ("phase_dependency_admission", v)).toList

/-- `_intent_map`, with a context handoff in the continuation. -/
def intentMapFor (strip : String → String) (previous : TaskRun)
    (candidate : ContinuationCandidate) (evaluation admission contextHandoff : Option Json) :
    List (String × Json) :=
  let goal := (candidate.semanticGoal.filter (· ≠ "")).map fun goal =>
    ("semantic_goal", Json.str goal)
  let intent := textOr codec (intentMap previous) "intent_type"
  (inheritedNames.filterMap fun name =>
      ((intentMap previous).lookup name).map fun v => (name, v)) ++
    goal.toList ++
    [("intent_type", .str (if intent = "" then candidate.operationType else intent)),
      ("operation_type", .str candidate.operationType),
      ("current_phase", .str candidate.phaseId), ("phase_id", .str candidate.phaseId),
      ("mission_phase", .str candidate.phaseId),
      ("mission_continuation", .obj
        (continuationPayload codec strip previous candidate evaluation admission ++
          (contextHandoff.map fun v => ("context_handoff", v)).toList))]

variable (previous : TaskRun)

def parentRef : String :=
  match previous.taskId with
  | some taskId => if taskId = "" then previous.runId else taskId
  | none => previous.runId

def childMembers (intent others : List (String × Json)) : List (String × Json) :=
  [("parent_task_id", .str (parentRef previous)), ("session_id", textJson (sessionId previous)),
    ("intent_map", .obj intent)] ++ others

/-- The run that `reserve_run` saves. -/
def reservedRun (candidate : ContinuationCandidate) (identity : Identity)
    (workspace : Option String) (intent : List (String × Json)) : TaskRun where
  runId := identity.runId
  taskId := some identity.taskId
  operationId := some identity.operationId
  approvalId := none
  contractType := candidate.contractType
  status := .created
  plan := ⟨"pending", [], none⟩
  workflow := none
  executionGraph := none
  currentStepId := none
  approvalSnapshot := .obj []
  autoRunRequested := false
  cancellationRequested := false
  cancellationReason := none
  revision := 1
  createdAt := identity.createdAt
  startedAt := none
  finishedAt := none
  warnings := []
  blockedReasons := []
  evidence := childMembers previous intent (("workspace", textJson workspace) :: identity.others)

def blockReserved (strip : String → String) (candidate : ContinuationCandidate)
    (answers : Answers) (reserved : TaskRun) (reason : String) (contextHandoff : Option Json)
    (runs : RunTable) : RunTable :=
  let parent := ((parentTaskId reserved).bind fun taskId =>
    getRunByTaskId answers.directory taskId runs).getD reserved
  let intent := intentMapFor codec strip parent candidate (some answers.evaluation.dump)
    (some answers.admission.dump) contextHandoff
  let run := { reserved with
    evidence := Json.setField "intent_map" (.obj intent) reserved.evidence }
  let run :=
    if TaskRunStatus.blocked ∈ run.status.targets then run.moved answers.now .blocked else run
  updateRun codec { run with blockedReasons := unique (run.blockedReasons ++ [reason]) } runs

/-- The run that `create_run` saves in place of a reserved one. It keeps its identity and
its time. -/
def enrichedRun (previous reserved latest : TaskRun) (intent : List (String × Json))
    (enrichment : Enrichment) : TaskRun :=
  { reserved with
    contractType := candidate.contractType
    status := enrichment.status
    plan := enrichment.plan
    workflow := enrichment.workflow
    executionGraph := enrichment.executionGraph
    approvalSnapshot := enrichment.approvalSnapshot
    revision := latest.revision + 1
    createdAt := latest.createdAt
    warnings := enrichment.warnings
    blockedReasons := enrichment.blockedReasons
    evidence := childMembers previous intent enrichment.others }

/-- `TaskRuntimeService.create_run` for a reserved run. -/
def enrichRun (previous reserved : TaskRun) (intent : List (String × Json))
    (enrichment : Except String Enrichment) (runs : RunTable) : Except String TaskRun × RunTable :=
  match getRun runs reserved.runId with
  | .missing | .invalid => (.error "ValidationError", runs)
  | .found latest =>
    if latest.operationId ≠ reserved.operationId then
      (.error "task_run_reservation_operation_mismatch", runs)
    else if latest.taskId ≠ reserved.taskId then
      (.error "task_run_reservation_task_mismatch", runs)
    else
      match enrichment with
      | .error e => (.error e, runs)
      | .ok enrichment =>
        let run := enrichedRun candidate previous reserved latest intent enrichment
        let saved := updateRun codec run runs
        match enrichment.failure, getRun saved run.runId with
        | some e, _ => (.error e, saved)
        | none, .found final => (.ok final, saved)
        | none, .missing => (.ok run, saved)
        | none, .invalid => (.error "ValidationError", saved)

def childless (status reasonCode : String) (evidenceRefs : List String) : Materialization :=
  ⟨status, reasonCode, none, none, none, none, false, evidenceRefs⟩

def withChild (status reasonCode : String) (child : TaskRun) (phase : Option String)
    (reused : Bool) (evidenceRefs : List String) : Materialization :=
  ⟨status, reasonCode, some child.runId, child.taskId, child.operationId, phase, reused,
    evidenceRefs⟩

def checkCandidate (answers : Answers) : Except String (Option String) := do
  if !answers.hasOutcome then
    throw "mission_continuation_phase_outcome_missing"
  let workspace ← answers.workspace
  let capabilities := unique
    (if candidate.runtimeCapabilitiesRequired = [] then candidate.requiredCapabilities
      else candidate.runtimeCapabilitiesRequired)
  let actions ← answers.requestedActions.mapError
    ("mission_continuation_candidate_action_invalid:" ++ ·)
  if !(actions.filterMap answers.capabilityFor).all
      (fun capability => capability = "" || capability ∈ capabilities) then
    throw "mission_continuation_candidate_action_capability_mismatch"
  match answers.requestError with
  | some e => throw ("mission_continuation_candidate_request_invalid:" ++ e)
  | none => pure workspace

/-- The part of `materialize_next_run` that creates the child. -/
def reserveChild (strip : String → String) (previous : TaskRun)
    (candidate : ContinuationCandidate) (answers : Answers) (workspace : Option String)
    (runs : RunTable) : Except String Materialization × RunTable :=
  match answers.identity with
  | .error e => (.error e, runs)
  | .ok identity =>
    let reserved := reservedRun previous candidate identity workspace
      (intentMapFor codec strip previous candidate none none none)
    match createRun codec reserved runs with
    | .error e => (.error e, runs)
    | .ok runs =>
      let evaluation := answers.evaluation
      let admission := answers.admission
      let refs := unique (answers.decision.evidenceRefs ++ evaluation.evidenceRefs)
      if !(admission.authorized && admission.valid) then
        let reason :=
          if admission.validationReason ≠ "" then admission.validationReason
          else if admission.reasonCode ≠ "" then admission.reasonCode
          else "mission_continuation_dependency_not_admitted"
        (.ok (withChild "blocked" reason reserved (some candidate.phaseId) false refs),
          blockReserved codec strip candidate answers reserved reason none runs)
      else if answers.contextMissing then
        let reason := "MISSION_CONTINUATION_CONTEXT_HANDOFF_REQUIRED"
        (.ok (withChild "blocked" reason reserved (some candidate.phaseId) false refs),
          blockReserved codec strip candidate answers reserved reason answers.contextHandoff runs)
      else
        let intent := intentMapFor codec strip previous candidate (some evaluation.dump)
          (some admission.dump) answers.contextHandoff
        match enrichRun codec candidate previous reserved intent answers.enrichment runs with
        | (.error e, runs) => (.error e, runs)
        | (.ok child, runs) =>
          (.ok (withChild "materialized" "mission_continuation_child_materialized" child
            (textField? child.evidence "current_phase") false
            (unique (refs ++ ["task_run:" ++ child.runId]))), runs)

/-- `materialize_next_run`. An error that a service raises leaves what was saved before. -/
def materializeNextRun (strip : String → String) (previousRunId : String)
    (candidate : ContinuationCandidate) (answers : Answers) (runs : RunTable) :
    Except String Materialization × RunTable :=
  let decision := answers.decision
  if decision.action ≠ "continue_to_next_phase" then
    let status :=
      if decision.action ∈ ["block", "request_new_authority"] then "blocked" else "not_applicable"
    (.ok (childless status decision.reasonCode decision.evidenceRefs), runs)
  else
    match getRun runs previousRunId with
    | .invalid => (.error "ValidationError", runs)
    | .missing =>
      (.ok (childless "blocked" "mission_continuation_materialization_state_missing"
        decision.evidenceRefs), runs)
    | .found previous =>
      if !decision.hasChildContract then
        (.ok (childless "blocked" "mission_continuation_materialization_state_missing"
          decision.evidenceRefs), runs)
      else
        match existingChild codec answers.directory previous candidate.candidateId runs with
        | some existing =>
          (.ok (withChild "materialized" "mission_continuation_child_already_materialized" existing
            (phaseFromRun codec strip existing) true ["task_run:" ++ existing.runId]), runs)
        | none =>
          match checkCandidate candidate answers with
          | .error reason => (.ok (childless "blocked" reason decision.evidenceRefs), runs)
          | .ok workspace => reserveChild codec strip previous candidate answers workspace runs

end AIpinho.Mission
