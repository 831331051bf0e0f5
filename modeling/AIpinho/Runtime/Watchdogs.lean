import AIpinho.Runtime.Lifecycle

/-!
# Ending a run from outside

`TaskRunStore` ends runs in three places: `ensure_terminal_result` writes the missing result of
a run that has ended, and the two watchdogs block a run that has used up its time, or whose
artifact has been silent for too long.
-/

namespace AIpinho.Runtime

open Lib

/-- The time at which a service runs. -/
structure Clock where
  now : String
  /-- The microseconds since a time stamp, if it can be parsed. -/
  elapsed : String → Option ℤ

variable (codec : Codec)

/-- What the store asks other services for. -/
structure StoreServices where
  /-- How values are printed and digested. -/
  codec : Codec
  /-- `PhaseSemanticResultFinalizer`: the result that the artifacts of a run
  give it, if they give one. -/
  finalizer : TaskRun → Option TaskRunResult

def memberText (fields : List (String × Json)) (name : String) : String :=
  match fields.lookup name with
  | some v => if v.truthy then valueText codec v else ""
  | none => ""

variable (artifact : List (String × Json))

/-- The members of the `metadata` of an artifact. -/
def artifactMetadata : List (String × Json) :=
  match artifact.lookup "metadata" with
  | some (.obj members) => members
  | _ => []

def artifactText (name : String) : String :=
  if memberText codec artifact name ≠ "" then memberText codec artifact name
  else memberText codec (artifactMetadata artifact) name

def unsafeArtifactStatuses : List String :=
  ["partial", "blocked", "interrupted", "failed", "rejected", "late_rejected"]

/-- Whether `_terminal_artifact_state` counts an artifact as unsafe. -/
def artifactIsUnsafe : Bool :=
  unsafeArtifactStatuses.contains (artifactText codec artifact "status") ||
    match artifact.lookup "safe_to_use" with
    | some (.bool safe) => !safe
    | some _ => false
    | none =>
      match (artifactMetadata artifact).lookup "safe_to_use" with
      | some (.bool safe) => !safe
      | _ => false

/-- `safe_to_use` of `_terminal_artifact_state`. -/
def artifactsAreSafe (artifacts : List (List (String × Json))) : Bool :=
  !artifacts.isEmpty && !artifacts.any (artifactIsUnsafe codec)

/-- The reason code of the runtime budget. -/
def lifecycleTimeout : String := "TASKRUN_LIFECYCLE_TIMEOUT"

/-- `_terminal_reason_code`. -/
def terminalReasonCode (run : TaskRun) : String :=
  let artifactReasons :=
    (run.artifacts.map fun artifact => artifactText codec artifact "reason_code").filter (· ≠ "")
  let blockedReasons := run.blockedReasons.filter (· ≠ "")
  match artifactReasons.head?, blockedReasons.head? with
  | some reason, some blocked =>
    if blockedReasons.all (· = lifecycleTimeout) then reason else blocked
  | some reason, none => reason
  | none, some blocked => blocked
  | none, none => "TERMINAL_RESULT_MISSING"

variable (events : List TaskRunEvent)

/-- `_terminal_event_reason_code`, empty if there is none. -/
def terminalEventReasonCode : String :=
  match firstTerminalEvent events with
  | some terminal => memberText codec terminal.metadata "reason_code"
  | none => ""

/-- `_terminal_event_type_for_result`. -/
def ResultStatus.terminalEventType : ResultStatus → String
  | .completed => "run_completed"
  | .completedWithLimitations => "run_partial"
  | .partially => "run_partial"
  | .failed => "run_failed"
  | .cancelled => "run_cancelled"
  | .blocked => "run_blocked"

def TaskRunStatus.conservativeResult : TaskRunStatus → ResultStatus
  | .completed => .completed
  | .partially => .partially
  | .failed => .failed
  | .cancelled => .cancelled
  | _ => .blocked

/-- The reason code `ensure_terminal_result` settles on. -/
def settledReasonCode (reasonCode : Option String) (run : TaskRun) (events : List TaskRunEvent) :
    String :=
  let runReason := terminalReasonCode codec run
  let eventReason := terminalEventReasonCode codec events
  match reasonCode with
  | some code => code
  | none =>
    if eventReason = lifecycleTimeout ∧ runReason ≠ lifecycleTimeout then runReason
    else if eventReason ≠ "" then eventReason else runReason

/-- The conservative result of `ensure_terminal_result`. -/
def conservativeResult (codec : Codec) (terminalReason : String) (run : TaskRun)
    (events : List TaskRunEvent) : TaskRunResult :=
  let status := run.status.conservativeResult
  let passed := status = .completed ∧ artifactsAreSafe codec run.artifacts = true
  let completion : ResultStatus :=
    if passed then .completed
    else if status = .cancelled then .cancelled
    else if status = .failed then .failed
    else .blocked
  { status := status
    summary :=
      if status = .completed then
        "TaskRun completed without a persisted result; terminal result was finalized from " ++
          "recorded state."
      else
        "TaskRun reached a terminal state without a persisted result; a conservative terminal " ++
          "result was finalized."
    finishedAt := none
    limitations := []
    blockedItems := if passed then [] else [terminalReason]
    warnings := ["terminal_result_missing_repaired"]
    eventsCount := events.length
    validationReason := some terminalReason
    completion := some
      { status := completion
        safeToReportSuccess := false
        expectedOutcomes := []
        fulfilledOutcomes := []
        missingOutcomes := if completion = .completed then [] else [terminalReason]
        warnings := ["terminal_result_missing_repaired"]
        limitations :=
          if completion = .completed then [] else ["terminal_result_finalized_conservatively"] } }

variable (clock : Clock)

def saveTerminalResult (reasonCode : Option String) (source : String) (result : TaskRunResult) :
    RunProgram TaskRunResult := do
  RunProgram.saveResult clock.now result
  let events ← RunProgram.getEvents
  if (firstTerminalEvent events).isSome then
    pure result
  else
    let _ ← RunProgram.appendEvent (newEvent clock.now result.status.terminalEventType
      result.status.text result.summary
      [("reason_code", (reasonCode.map Json.str).getD .null), ("source", .str source)])
    pure result

variable (services : StoreServices)

/-- `ensure_terminal_result`. -/
def ensureTerminalResult (clock : Clock) (reasonCode : Option String) :
    RunProgram (Option TaskRunResult) := do
  match ← RunProgram.readResult with
  | some existing => pure (some existing)
  | none =>
    match ← RunProgram.getRun? with
    | none => pure none
    | some run =>
      if !run.status.isTerminal then
        pure none
      else
        let events ← RunProgram.getEvents
        match services.finalizer run with
        | some result =>
          some <$> saveTerminalResult clock result.validationReason
            "phase_semantic_completion_policy" result
        | none =>
          let reason := settledReasonCode services.codec reasonCode run events
          some <$> saveTerminalResult clock (some reason) "ensure_terminal_result"
            (conservativeResult services.codec reason run events)

/-- `get_result`. -/
def getResult (clock : Clock) : RunProgram (Option TaskRunResult) := do
  match ← RunProgram.readResult with
  | some result =>
    RunProgram.cohereTerminalResult clock.now result
    pure (some result)
  | none =>
    match ← RunProgram.getRunIndex with
    | some status =>
      if status.isTerminal then ensureTerminalResult services clock none else pure none
    | none => pure none

def mediaInventoryStageStallReasons : List (String × String) :=
  [("after_entity_selection", "MUSIC_INVENTORY_PERCEPTION_PAYLOAD_COMPILE_STALLED"),
    ("before_perception_payload_compile", "MUSIC_INVENTORY_PERCEPTION_PAYLOAD_COMPILE_STALLED"),
    ("before_compile_request_normalization", "PERCEPTION_PAYLOAD_COMPILE_BUDGET_EXCEEDED"),
    ("after_compile_request_normalization", "PERCEPTION_REQUIREMENT_RESOLUTION_STALLED"),
    ("before_requirement_resolution", "PERCEPTION_REQUIREMENT_RESOLUTION_STALLED"),
    ("after_requirement_resolution", "PERCEPTION_ENTITY_PROJECTION_STALLED"),
    ("before_entity_projection", "PERCEPTION_ENTITY_PROJECTION_STALLED"),
    ("entity_projection_checkpoint", "PERCEPTION_ENTITY_PROJECTION_STALLED"),
    ("after_entity_projection", "PERCEPTION_RELATIONSHIP_PROJECTION_STALLED"),
    ("before_relationship_projection", "PERCEPTION_RELATIONSHIP_PROJECTION_STALLED"),
    ("after_relationship_projection", "PERCEPTION_OBSERVATION_BINDING_STALLED"),
    ("before_observation_binding", "PERCEPTION_OBSERVATION_BINDING_STALLED"),
    ("before_observation_goal_projection", "PERCEPTION_OBSERVATION_GOAL_PROJECTION_STALLED"),
    ("after_observation_goal_projection", "PERCEPTION_OBSERVATION_STRATEGY_PROJECTION_STALLED"),
    ("before_observation_strategy_projection",
      "PERCEPTION_OBSERVATION_STRATEGY_PROJECTION_STALLED"),
    ("after_observation_strategy_projection", "PERCEPTION_CAPABILITY_MATCH_PROJECTION_STALLED"),
    ("before_capability_match_projection", "PERCEPTION_CAPABILITY_MATCH_PROJECTION_STALLED"),
    ("after_capability_match_projection", "PERCEPTION_CAPABILITY_DECISION_PROJECTION_STALLED"),
    ("before_capability_decision_projection", "PERCEPTION_CAPABILITY_DECISION_PROJECTION_STALLED"),
    ("after_capability_decision_projection", "PERCEPTION_OBSERVATION_TASK_PROJECTION_STALLED"),
    ("before_observation_task_projection", "PERCEPTION_OBSERVATION_TASK_PROJECTION_STALLED"),
    ("after_observation_task_projection", "PERCEPTION_OBSERVATION_REQUIREMENT_PROJECTION_STALLED"),
    ("before_observation_requirement_projection",
      "PERCEPTION_OBSERVATION_REQUIREMENT_PROJECTION_STALLED"),
    ("after_observation_requirement_projection", "PERCEPTION_OBSERVATION_BINDING_STALLED"),
    ("after_observation_binding", "PERCEPTION_FACT_PROJECTION_STALLED"),
    ("before_fact_projection", "PERCEPTION_FACT_PROJECTION_STALLED"),
    ("before_fact_source_binding", "PERCEPTION_FACT_SOURCE_BINDING_STALLED"),
    ("before_source_index_build", "PERCEPTION_FACT_SOURCE_BINDING_STALLED"),
    ("after_source_index_build", "PERCEPTION_ATTRIBUTE_OBSERVATION_PROJECTION_STALLED"),
    ("before_attribute_observation_projection",
      "PERCEPTION_ATTRIBUTE_OBSERVATION_PROJECTION_STALLED"),
    ("attribute_observation_projection_checkpoint",
      "PERCEPTION_ATTRIBUTE_OBSERVATION_PROJECTION_STALLED"),
    ("after_attribute_observation_projection", "PERCEPTION_EVIDENCE_REF_RESOLUTION_STALLED"),
    ("before_evidence_ref_resolution", "PERCEPTION_EVIDENCE_REF_RESOLUTION_STALLED"),
    ("after_evidence_ref_resolution", "PERCEPTION_EVIDENCE_SET_MATERIALIZATION_STALLED"),
    ("before_evidence_set_materialization", "PERCEPTION_EVIDENCE_SET_MATERIALIZATION_STALLED"),
    ("evidence_set_materialization_checkpoint", "PERCEPTION_EVIDENCE_SET_MATERIALIZATION_STALLED"),
    ("after_evidence_set_materialization", "PERCEPTION_SOURCE_PROVENANCE_BINDING_STALLED"),
    ("before_source_provenance_binding", "PERCEPTION_SOURCE_PROVENANCE_BINDING_STALLED"),
    ("after_source_provenance_binding", "PERCEPTION_SOURCE_BINDING_BOUND_CHECK_STALLED"),
    ("before_source_binding_bound_check", "PERCEPTION_SOURCE_BINDING_BOUND_CHECK_STALLED"),
    ("after_source_binding_bound_check", "PERCEPTION_FACT_CANDIDATE_PROJECTION_STALLED"),
    ("fact_source_binding_completed", "PERCEPTION_FACT_CANDIDATE_PROJECTION_STALLED"),
    ("after_fact_source_binding", "PERCEPTION_FACT_CANDIDATE_PROJECTION_STALLED"),
    ("before_fact_candidate_projection", "PERCEPTION_FACT_CANDIDATE_PROJECTION_STALLED"),
    ("after_fact_candidate_projection", "PERCEPTION_FACT_DERIVATION_STALLED"),
    ("before_fact_derivation", "PERCEPTION_FACT_DERIVATION_STALLED"),
    ("fact_derivation_checkpoint", "PERCEPTION_FACT_DERIVATION_STALLED"),
    ("after_fact_derivation", "PERCEPTION_FACT_PROVENANCE_BINDING_STALLED"),
    ("before_fact_provenance_binding", "PERCEPTION_FACT_PROVENANCE_BINDING_STALLED"),
    ("after_fact_provenance_binding", "PERCEPTION_FACT_DEDUPLICATION_STALLED"),
    ("before_fact_deduplication", "PERCEPTION_FACT_DEDUPLICATION_STALLED"),
    ("after_fact_deduplication", "PERCEPTION_FACT_VALIDATION_PROJECTION_STALLED"),
    ("before_fact_validation_projection", "PERCEPTION_FACT_VALIDATION_PROJECTION_STALLED"),
    ("after_fact_validation_projection", "PERCEPTION_PAYLOAD_ASSEMBLY_STALLED"),
    ("fact_projection_completed", "PERCEPTION_PAYLOAD_ASSEMBLY_STALLED"),
    ("after_fact_projection", "PERCEPTION_PAYLOAD_ASSEMBLY_STALLED"),
    ("before_payload_assembly", "PERCEPTION_PAYLOAD_ASSEMBLY_STALLED"),
    ("after_payload_assembly", "PERCEPTION_PAYLOAD_BOUND_EXCEEDED"),
    ("before_payload_bound_check", "PERCEPTION_PAYLOAD_BOUND_EXCEEDED"),
    ("after_payload_bound_check", "PERCEPTION_PAYLOAD_COMPILE_BUDGET_EXCEEDED"),
    ("perception_compile_completed", "MUSIC_INVENTORY_CONTRACT_PERCEPTION_STALLED"),
    ("after_perception_payload_compile", "MUSIC_INVENTORY_CONTRACT_PERCEPTION_STALLED"),
    ("before_post_compile_observation_execution",
      "POST_COMPILE_OBSERVATION_GROUP_PLANNING_STALLED"),
    ("before_observation_physical_group_planning",
      "POST_COMPILE_OBSERVATION_GROUP_PLANNING_STALLED"),
    ("observation_task_scan_checkpoint", "POST_COMPILE_OBSERVATION_TASK_SCAN_STALLED"),
    ("target_selection_checkpoint", "POST_COMPILE_TARGET_SELECTION_TOO_BROAD"),
    ("target_selection_no_eligible_candidates",
      "POST_COMPILE_TARGET_SELECTION_NO_ELIGIBLE_MEDIA_CANDIDATES"),
    ("after_observation_task_scan", "POST_COMPILE_CAPABILITY_APPLICABILITY_RESOLUTION_STALLED"),
    ("before_capability_applicability_resolution",
      "POST_COMPILE_CAPABILITY_APPLICABILITY_RESOLUTION_STALLED"),
    ("capability_applicability_resolution_checkpoint",
      "POST_COMPILE_CAPABILITY_APPLICABILITY_RESOLUTION_STALLED"),
    ("after_capability_applicability_resolution",
      "POST_COMPILE_BACKEND_AVAILABILITY_SNAPSHOT_STALLED"),
    ("after_observation_physical_group_planning",
      "POST_COMPILE_BACKEND_AVAILABILITY_SNAPSHOT_STALLED"),
    ("before_backend_availability_snapshot", "POST_COMPILE_BACKEND_AVAILABILITY_SNAPSHOT_STALLED"),
    ("after_backend_availability_snapshot", "POST_COMPILE_PHYSICAL_PROBE_DISPATCH_STALLED"),
    ("after_observation_task_grouping", "POST_COMPILE_PHYSICAL_PROBE_DISPATCH_STALLED"),
    ("before_physical_probe_dispatch", "POST_COMPILE_PHYSICAL_PROBE_DISPATCH_STALLED"),
    ("before_physical_probe", "POST_COMPILE_PHYSICAL_PROBE_STALLED"),
    ("physical_probe_checkpoint", "POST_COMPILE_PHYSICAL_PROBE_STALLED"),
    ("after_physical_probe", "POST_COMPILE_EVIDENCE_FANOUT_STALLED"),
    ("after_evidence_fanout", "POST_COMPILE_EVIDENCE_FANOUT_STALLED"),
    ("after_post_compile_observation_execution", "POST_COMPILE_OBSERVATION_EXECUTION_STALLED"),
    ("before_post_execution_perception_materialization",
      "POST_EXECUTION_PERCEPTION_MATERIALIZATION_STALLED"),
    ("after_post_execution_evidence_application",
      "POST_EXECUTION_PERCEPTION_MATERIALIZATION_STALLED"),
    ("after_post_execution_attribute_observation_materialization",
      "POST_EXECUTION_PERCEPTION_MATERIALIZATION_STALLED"),
    ("after_post_execution_evidence_set_materialization",
      "POST_EXECUTION_PERCEPTION_MATERIALIZATION_STALLED"),
    ("after_post_execution_perception_materialization",
      "MUSIC_INVENTORY_CONTRACT_PERCEPTION_STALLED"),
    ("before_contract_perception", "MUSIC_INVENTORY_CONTRACT_PERCEPTION_STALLED"),
    ("after_contract_perception", "MUSIC_INVENTORY_ROW_BINDING_STALLED"),
    ("before_row_binding", "MUSIC_INVENTORY_ROW_BINDING_STALLED"),
    ("after_row_binding", "MUSIC_INVENTORY_METADATA_COVERAGE_CALCULATION_STALLED"),
    ("before_metadata_coverage_summary", "MUSIC_INVENTORY_METADATA_COVERAGE_CALCULATION_STALLED"),
    ("after_metadata_coverage_summary", "MUSIC_INVENTORY_CSV_STREAMING_STALLED"),
    ("before_csv_row_stream", "MUSIC_INVENTORY_CSV_STREAMING_STALLED"),
    ("csv_row_stream_checkpoint", "MUSIC_INVENTORY_CSV_STREAMING_STALLED"),
    ("before_csv_cell_render", "MUSIC_INVENTORY_CSV_STREAMING_STALLED"),
    ("after_entity_batch", "MUSIC_INVENTORY_CSV_STREAMING_STALLED"),
    ("after_csv_row_stream", "MUSIC_INVENTORY_SEMANTIC_PROFILE_BUILD_STALLED"),
    ("before_artifact_semantic_profile", "MUSIC_INVENTORY_SEMANTIC_PROFILE_BUILD_STALLED"),
    ("after_artifact_semantic_profile", "MUSIC_INVENTORY_SUFFICIENCY_EVALUATION_STALLED"),
    ("before_inventory_sufficiency", "MUSIC_INVENTORY_SUFFICIENCY_EVALUATION_STALLED"),
    ("after_inventory_sufficiency", "MUSIC_INVENTORY_ARTIFACT_PERSIST_STALLED"),
    ("before_artifact_persist", "MUSIC_INVENTORY_ARTIFACT_PERSIST_STALLED"),
    ("before_persist_payload_classification", "ARTIFACT_PERSIST_PAYLOAD_CLASSIFICATION_STALLED"),
    ("after_persist_payload_classification", "ARTIFACT_PERSIST_PAYLOAD_SERIALIZATION_STALLED"),
    ("before_payload_materialization", "ARTIFACT_PERSIST_PAYLOAD_MATERIALIZATION_STALLED"),
    ("after_payload_materialization", "ARTIFACT_PERSIST_PAYLOAD_SERIALIZATION_STALLED"),
    ("before_payload_serialization", "ARTIFACT_PERSIST_PAYLOAD_SERIALIZATION_STALLED"),
    ("payload_serialization_checkpoint", "ARTIFACT_PERSIST_PAYLOAD_SERIALIZATION_STALLED"),
    ("after_payload_serialization", "ARTIFACT_PERSIST_PAYLOAD_REF_DECISION_STALLED"),
    ("before_payload_ref_decision", "ARTIFACT_PERSIST_PAYLOAD_REF_DECISION_STALLED"),
    ("after_payload_ref_decision", "ARTIFACT_PERSIST_PAYLOAD_REF_PERSIST_STALLED"),
    ("before_payload_ref_persist", "ARTIFACT_PERSIST_PAYLOAD_REF_PERSIST_STALLED"),
    ("after_payload_ref_persist", "ARTIFACT_PERSIST_ARTIFACT_CONTENT_WRITE_STALLED"),
    ("before_artifact_content_write", "ARTIFACT_PERSIST_ARTIFACT_CONTENT_WRITE_STALLED"),
    ("artifact_content_write_checkpoint", "ARTIFACT_PERSIST_ARTIFACT_CONTENT_WRITE_STALLED"),
    ("after_artifact_content_write", "ARTIFACT_PERSIST_MANIFEST_BUILD_STALLED"),
    ("before_manifest_build", "ARTIFACT_PERSIST_MANIFEST_BUILD_STALLED"),
    ("after_manifest_build", "ARTIFACT_PERSIST_MANIFEST_WRITE_STALLED"),
    ("before_manifest_persist", "ARTIFACT_PERSIST_MANIFEST_WRITE_STALLED"),
    ("before_sharded_manifest_persist", "ARTIFACT_PERSIST_MANIFEST_WRITE_STALLED"),
    ("after_sharded_manifest_persist", "ARTIFACT_PERSIST_REGISTRY_INDEX_UPDATE_STALLED"),
    ("after_manifest_persist", "ARTIFACT_PERSIST_REGISTRY_INDEX_UPDATE_STALLED"),
    ("before_registry_index_update", "ARTIFACT_PERSIST_REGISTRY_INDEX_UPDATE_STALLED"),
    ("before_light_index_persist", "ARTIFACT_PERSIST_REGISTRY_INDEX_UPDATE_STALLED"),
    ("after_light_index_persist", "ARTIFACT_PERSIST_REGISTRY_INDEX_UPDATE_STALLED"),
    ("before_legacy_registry_projection", "ARTIFACT_PERSIST_LEGACY_REGISTRY_PROJECTION_STALLED"),
    ("after_legacy_registry_projection", "ARTIFACT_PERSIST_REGISTRY_INDEX_UPDATE_STALLED"),
    ("legacy_registry_projection_skipped", "ARTIFACT_PERSIST_REGISTRY_INDEX_UPDATE_STALLED"),
    ("after_registry_index_update", "ARTIFACT_PERSIST_COMMIT_STALLED"),
    ("before_artifact_commit", "ARTIFACT_PERSIST_COMMIT_STALLED"),
    ("after_artifact_commit", "ARTIFACT_PERSIST_COMPLETED"),
    ("artifact_persist_completed", "ARTIFACT_PERSIST_COMPLETED"),
    ("after_artifact_persist", "ARTIFACT_PERSIST_COMPLETED")]

def artifactTerminalTypes : List String :=
  ["artifact_created", "artifact_partial", "artifact_blocked", "artifact_failed",
    "artifact_interrupted", "artifact_late_rejected"]

variable (artifactEvent : TaskRunEvent)

/-- `_has_artifact_terminal_after`. -/
def hasArtifactTerminalAfter : Bool :=
  let logicalPath := memberText codec artifactEvent.metadata "logical_path"
  events.any fun e =>
    artifactEvent.sequence < e.sequence && artifactTerminalTypes.contains e.type &&
      (textField? e.metadata "created_event_source_id" == some artifactEvent.eventId ||
        (logicalPath ≠ "" && memberText codec e.metadata "logical_path" = logicalPath))

/-- `_artifact_creation_in_progress`. -/
def artifactCreationInProgress : Option TaskRunEvent :=
  (events.insertionSort fun a b => a.sequence ≥ b.sequence).find? fun e =>
    e.type = "artifact_creation_started" && !hasArtifactTerminalAfter codec events e

/-- `_last_artifact_render_checkpoint`. -/
def lastArtifactRenderCheckpoint : Option TaskRunEvent :=
  let logicalPath := memberText codec artifactEvent.metadata "logical_path"
  let attemptId := memberText codec artifactEvent.metadata "artifact_attempt_id"
  (events.filter fun e =>
    artifactEvent.sequence < e.sequence && e.type = "artifact_render_checkpoint" &&
      ((attemptId ≠ "" && memberText codec e.metadata "artifact_attempt_id" = attemptId) ||
        (logicalPath ≠ "" && memberText codec e.metadata "logical_path" = logicalPath))).getLast?

/-- `_artifact_stall_reason_code`. -/
def artifactStallReasonCode (fallback : String) : String :=
  if memberText codec artifactEvent.metadata "artifact_kind" = "media_corpus_inventory" ∨
      memberText codec artifactEvent.metadata "contract_id" = "media_corpus_inventory_artifact" then
    match lastArtifactRenderCheckpoint codec events artifactEvent with
    | some checkpoint =>
      (mediaInventoryStageStallReasons.lookup (memberText codec checkpoint.metadata "stage")).getD
        "MUSIC_INVENTORY_ARTIFACT_STALLED_AFTER_CREATION_STARTED"
    | none => "MUSIC_INVENTORY_ARTIFACT_STALLED_AFTER_CREATION_STARTED"
  else fallback

/-- How long an artifact has been silent: since its last checkpoint, or since
its creation started. -/
def artifactSilence (events : List TaskRunEvent) (artifactEvent : TaskRunEvent) : Option ℤ :=
  match lastArtifactRenderCheckpoint codec events artifactEvent with
  | some checkpoint => clock.elapsed checkpoint.timestamp
  | none => clock.elapsed artifactEvent.timestamp

def stalledArtifact (maxSilence : ℤ) (events : List TaskRunEvent) : Option TaskRunEvent :=
  (artifactCreationInProgress codec events).filter fun artifactEvent =>
    match artifactSilence codec clock events artifactEvent with
    | some silence => max 0 maxSilence ≤ silence
    | none => false

/-- `_stalled_artifact_row`. -/
def stalledArtifactRow (logicalPath producerStep reasonCode source sourceId : String)
    (elapsed : ℤ) : List (String × Json) :=
  [("logical_path", .str logicalPath), ("status", .str "blocked"),
    ("reason_code", .str reasonCode), ("source", .str source),
    ("producer_step", .str producerStep), ("created_event_source_id", .str sourceId),
    ("semantic_contract_status", .str "not_evaluated"), ("safe_to_use", .bool false),
    ("safe_to_report_success", .bool false), ("artifact_terminal_state_missing", .bool true),
    ("elapsed_seconds", .int elapsed)]

def withStalledRow (run : TaskRun) (logicalPath : String) (row : List (String × Json)) :
    List (List (String × Json)) :=
  if logicalPath = "" ∨
      run.artifacts.any (fun item => memberText codec item "logical_path" = logicalPath) = true then
    run.artifacts
  else run.artifacts ++ [row]

def TaskRun.blockedBy (finishedAt : Option String) (reason warning : String) (run : TaskRun) :
    TaskRun :=
  { run with
    status := .blocked
    finishedAt := finishedAt
    currentStepId := none
    blockedReasons := (run.blockedReasons ++ [reason]).eraseDups
    warnings := (run.warnings ++ [warning]).eraseDups
    revision := run.revision + 1 }

def blockedResult (summary reasonCode warning limitation : String) (finishedAt : Option String)
    (eventsCount : ℕ) : TaskRunResult :=
  { status := .blocked
    summary := summary
    finishedAt := finishedAt
    limitations := []
    blockedItems := [reasonCode]
    warnings := [warning]
    eventsCount := eventsCount
    validationReason := some reasonCode
    completion := some
      { status := .blocked
        safeToReportSuccess := false
        expectedOutcomes := []
        fulfilledOutcomes := []
        missingOutcomes := [reasonCode]
        warnings := [warning]
        limitations := [limitation] } }

def TaskRunStatus.isActive : TaskRunStatus → Bool
  | .created | .queued | .running => true
  | _ => false

/-- `terminalize_if_artifact_creation_stalled`. -/
def terminalizeIfArtifactCreationStalled (clock : Clock) (maxSilence : ℤ)
    (reasonCode source : String) : RunProgram (Option TaskRunResult) := do
  match ← RunProgram.readResult with
  | some existing => pure (some existing)
  | none =>
    match ← RunProgram.getRun? with
    | none => pure none
    | some run =>
      if !run.status.isActive then
        pure none
      else
        let events ← RunProgram.getEvents
        if (firstTerminalEvent events).isSome then
          ensureTerminalResult services clock (some reasonCode)
        else
          match stalledArtifact services.codec clock maxSilence events with
          | none => pure none
          | some artifactEvent =>
            match clock.elapsed artifactEvent.timestamp with
            | none => .raise "TypeError"
            | some elapsed =>
              let logicalPath := memberText services.codec artifactEvent.metadata "logical_path"
              let step := memberText services.codec artifactEvent.metadata "producer_step"
              let producerStep := if step = "" then "readonly_analysis_artifact_runtime" else step
              let reason := artifactStallReasonCode services.codec events artifactEvent reasonCode
              let row := stalledArtifactRow logicalPath producerStep reason source
                artifactEvent.eventId elapsed
              let artifacts := withStalledRow services.codec run logicalPath row
              let _ ← RunProgram.appendEvent (newEvent clock.now "artifact_failed" "blocked"
                ("Artifact creation did not produce a terminal artifact state within the " ++
                  "governed budget.")
                [("source", .str source), ("reason_code", .str reason),
                  ("logical_path", if logicalPath = "" then .null else .str logicalPath),
                  ("producer_step", .str producerStep),
                  ("created_event_source_id", .str artifactEvent.eventId),
                  ("elapsed_seconds", .int elapsed), ("safe_to_use", .bool false)])
              let events ← RunProgram.getEvents
              let result := blockedResult
                ("Artifact creation started but did not reach a terminal artifact state; the " ++
                  "run was blocked conservatively.") reason "artifact_creation_stall_terminalized"
                "artifact_creation_started_without_terminal_artifact" (some clock.now)
                events.length
              let finishedAt :=
                if run.finishedAt.getD "" = "" then some clock.now else run.finishedAt
              let blocked := run.blockedBy finishedAt reason "artifact_creation_stall_terminalized"
              RunProgram.updateRun { blocked with
                evidence := Json.setField "produced_artifacts" (.list (artifacts.map .obj))
                  blocked.evidence }
              RunProgram.saveResult clock.now result
              let _ ← RunProgram.appendEvent (newEvent clock.now "run_blocked" "blocked"
                result.summary [("reason_code", .str reason), ("source", .str source)])
              pure (some result)

/-- The microseconds since a run started: since the time on the run, else since
the first event that tells. -/
def runtimeElapsed (run : TaskRun) (events : List TaskRunEvent) : Option ℤ :=
  let started := (events.filter fun e =>
    e.type = "run_started" || e.type = "project_analysis_started").map (·.timestamp)
  ((run.startedAt.toList ++ started).filter (· ≠ "")).findSome? clock.elapsed

def ignoreBudget (clock : Clock) (reasonCode : String) (ensured : Option TaskRunResult) :
    RunProgram (Option TaskRunResult) := do
  RunProgram.ignoreTerminalization "blocked" reasonCode clock.now
  match ensured with
  | some result => pure (some result)
  | none => getResult services clock

def blockOverBudget (clock : Clock) (reasonCode : String) (run : TaskRun) :
    RunProgram (Option TaskRunResult) := do
  match services.finalizer { run with status := .blocked, finishedAt := some clock.now } with
  | some result =>
    let reason := result.validationReason.getD "SEMANTIC_COMPLETION_FINALIZED"
    RunProgram.updateRun (run.blockedBy (some (result.finishedAt.getD clock.now)) reason
      "store_repair_suppressed_due_to_semantic_artifact_state")
    RunProgram.saveResult clock.now result
    let _ ← RunProgram.appendEvent (newEvent clock.now result.status.terminalEventType
      result.status.text result.summary
      [("reason_code", (result.validationReason.map Json.str).getD .null),
        ("source", .str "phase_semantic_completion_policy")])
    pure (some result)
  | none =>
    RunProgram.updateRun (run.blockedBy (some clock.now) reasonCode "runtime_budget_exceeded")
    let result := blockedResult
      "TaskRun reached a governed runtime budget before producing a terminal result." reasonCode
      "runtime_budget_exceeded" "task_run_runtime_budget_exceeded" none 0
    RunProgram.saveResult clock.now result
    let _ ← RunProgram.appendEvent (newEvent clock.now "run_blocked" "blocked"
      "TaskRun blocked by governed runtime budget." [("reason_code", .str reasonCode)])
    pure (some result)

/-- `terminalize_if_runtime_budget_exceeded`. -/
def terminalizeIfRuntimeBudgetExceeded (clock : Clock) (maxRuntime : ℤ) (reasonCode : String)
    (recordIgnoredAttempt : Bool) :
    RunProgram (Option TaskRunResult) := do
  let index ← RunProgram.getRunIndex
  if index.any fun status => !status.isActive then
    let ensured ← ensureTerminalResult services clock (some reasonCode)
    if recordIgnoredAttempt then
      ignoreBudget services clock reasonCode ensured
    else
      match ensured with
      | some result => pure (some result)
      | none => getResult services clock
  else
    match ← RunProgram.getRun? with
    | none => pure none
    | some run =>
      let events ← RunProgram.getEvents
      if (firstTerminalEvent events).isSome ∨ run.status.isActive = false then
        let ensured ← ensureTerminalResult services clock (some reasonCode)
        ignoreBudget services clock reasonCode ensured
      else
        match ← getResult services clock with
        | some existing =>
          RunProgram.ignoreTerminalization "blocked" reasonCode clock.now
          pure (some existing)
        | none =>
          let events ← RunProgram.getEvents
          match runtimeElapsed clock run events with
          | none => pure none
          | some elapsed =>
            if elapsed ≤ maxRuntime then
              pure none
            else
              if (artifactCreationInProgress services.codec events).isSome then
                match ← terminalizeIfArtifactCreationStalled services clock 0
                    "ARTIFACT_CREATION_TIMEOUT_WITHOUT_TERMINAL_ARTIFACT"
                    "artifact_worker_terminalization_guard" with
                | some result => pure (some result)
                | none => blockOverBudget services clock reasonCode run
              else
                blockOverBudget services clock reasonCode run

end AIpinho.Runtime
