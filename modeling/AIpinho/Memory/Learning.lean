import AIpinho.Events.Redaction
import AIpinho.Lib.Keyed
import AIpinho.Mission.Contract

/-!
# Learned memories

What a run has taught is extracted as candidates, and a candidate that a reviewer accepts
becomes a memory. Candidates, memories and the profiles are documents of their own, which are
written one after the other. Times, summaries and extractions are left out.
-/

namespace AIpinho.Memory

open Lib
open Events (redactText redactPayload containsSecret)
open Mission (containsText)

/-- `LearningCandidateType`. -/
inductive LearningType
  | bugPattern | fixPattern | validationLesson | uxLesson | policyLesson | promptRoutingLesson
  | qualityGateLesson | workflowLesson | commandLearning | failurePattern | templateLearning
  | artifactLearning | skillPackLearning | projectLearning
  deriving DecidableEq

def LearningType.text : LearningType → String
  | .bugPattern => "bug_pattern"
  | .fixPattern => "fix_pattern"
  | .validationLesson => "validation_lesson"
  | .uxLesson => "ux_lesson"
  | .policyLesson => "policy_lesson"
  | .promptRoutingLesson => "prompt_routing_lesson"
  | .qualityGateLesson => "quality_gate_lesson"
  | .workflowLesson => "workflow_lesson"
  | .commandLearning => "command_learning"
  | .failurePattern => "failure_pattern"
  | .templateLearning => "template_learning"
  | .artifactLearning => "artifact_learning"
  | .skillPackLearning => "skill_pack_learning"
  | .projectLearning => "project_learning"

def LearningType.all : List LearningType :=
  [.bugPattern, .fixPattern, .validationLesson, .uxLesson, .policyLesson, .promptRoutingLesson,
    .qualityGateLesson, .workflowLesson, .commandLearning, .failurePattern, .templateLearning,
    .artifactLearning, .skillPackLearning, .projectLearning]

def LearningType.ofText? (text : String) : Option LearningType :=
  LearningType.all.find? fun type => type.text = text

/-- `LearningCandidateStatus`. -/
inductive LearningStatus
  | proposed | accepted | rejected | archived | stale | superseded | blocked | needsReview
  deriving DecidableEq

/-- `LearningScope`, as far as `_scope_for` gives it. -/
inductive LearningScope
  | project | skillPack | template | artifact | globalGuarded
  deriving DecidableEq

structure MemoryCandidateV2 where
  candidateId : String
  type : LearningType
  title : String
  summary : String
  reusableWhen : List String
  scope : LearningScope
  status : LearningStatus
  confidence : String := "medium"
  sourceType : String
  sourceId : Option String
  sourceRefs : List String
  evidenceRefs : List String
  projectId : Option String
  skillPackId : Option String
  templateId : Option String
  artifactIds : List String
  tags : List String
  warnings : List String := []
  blockReasonCodes : List String
  containsSecretRisk : Bool
  rawLogBlocked : Bool
  memoryId : Option String := none
  metadataSanitized : List (String × Json)
  deriving DecidableEq

/-- `MemoryRecord`. Its status is `approved` from the start and is not changed. -/
structure MemoryRecord where
  memoryId : String
  candidateId : String
  type : LearningType
  title : String
  summary : String
  reusableWhen : List String
  scope : LearningScope
  confidence : String
  evidenceRefs : List String
  sourceRefs : List String
  projectId : Option String
  skillPackId : Option String
  templateId : Option String
  tags : List String
  acceptedBy : String
  metadataSanitized : List (String × Json)

structure ProjectLearningProfile where
  acceptedMemoryIds : List String := []
  candidateIds : List String := []
  successfulCommands : List String := []
  failurePatterns : List String := []
  artifactLessons : List String := []

/-- `SkillPackLearningProfile` and `TemplateLearningProfile`, whose warnings nothing sets. -/
structure CountedProfile where
  acceptedMemoryIds : List String := []
  candidateIds : List String := []
  successCount : ℕ := 0
  failureCount : ℕ := 0

structure LearningExtractionRequest where
  sourceType : String := "run_summary"
  sourceId : Option String := none
  agentId : String := "aipinho"
  sessionId : Option String := none
  runId : Option String := none
  projectId : Option String := none
  skillPackId : Option String := none
  templateId : Option String := none
  taskId : Option String := none
  outcome : Option String := none
  whatWorked : List String := []
  whatFailed : List String := []
  reusableLessons : List Json := []
  commandsSuccessful : List Json := []
  commandsFailed : List Json := []
  validationsRun : List Json := []
  artifactsCreated : List Json := []
  artifactIds : List String := []
  evidenceRefs : List String := []
  tags : List String := []
  metadataSanitized : List (String × Json) := []

def optionalText : Option String → Json
  | none => .null
  | some text => .str text

def texts (items : List String) : Json := .list (items.map .str)

/-- `model_dump` of a request. -/
def LearningExtractionRequest.dump (request : LearningExtractionRequest) : Json :=
  .obj [("source_type", .str request.sourceType), ("source_id", optionalText request.sourceId),
    ("agent_id", .str request.agentId), ("session_id", optionalText request.sessionId),
    ("run_id", optionalText request.runId), ("project_id", optionalText request.projectId),
    ("skill_pack_id", optionalText request.skillPackId),
    ("template_id", optionalText request.templateId), ("task_id", optionalText request.taskId),
    ("outcome", optionalText request.outcome), ("what_worked", texts request.whatWorked),
    ("what_failed", texts request.whatFailed), ("reusable_lessons", .list request.reusableLessons),
    ("commands_successful", .list request.commandsSuccessful),
    ("commands_failed", .list request.commandsFailed),
    ("validations_run", .list request.validationsRun),
    ("artifacts_created", .list request.artifactsCreated),
    ("artifact_ids", texts request.artifactIds), ("evidence_refs", texts request.evidenceRefs),
    ("tags", texts request.tags), ("metadata_sanitized", .obj request.metadataSanitized)]

/-- What `learning_policy.yaml` says. -/
structure LearningPolicy where
  evidenceRequired : Bool := true
  allowedCandidateTypes : List String
  maxCandidateSummaryChars : ℕ := 2000
  blockedPayloadKeys : List String

def learningPolicyFile : LearningPolicy where
  allowedCandidateTypes := LearningType.all.map LearningType.text
  blockedPayloadKeys := ["raw", "raw_log", "raw_payload", "raw_debug", "stacktrace", "traceback"]

/-- What the service uses of the standard library. -/
structure LearningServices where
  /-- `str.casefold`. -/
  casefold : String → String
  /-- The SHA-256 of a text, in hexadecimal digits. -/
  sha256 : String → String
  /-- `str` of a list or an object. -/
  repr : Json → String
  /-- `json.dumps` with sorted keys and in ASCII. -/
  dumps : Json → String
  /-- The identifiers that `uuid4` gives, one after the other. -/
  uuid : ℕ → String

/-- The documents of the service, and how many identifiers were drawn. -/
structure LearningStore where
  /-- `candidates.json`. -/
  candidates : List MemoryCandidateV2
  /-- `memories.json`. -/
  memories : List MemoryRecord
  /-- `project_profiles.json`, with an empty profile where there is none. -/
  projectProfiles : String → ProjectLearningProfile
  /-- `skill_pack_profiles.json`, with an empty profile where there is none. -/
  skillPackProfiles : String → CountedProfile
  /-- `template_profiles.json`, with an empty profile where there is none. -/
  templateProfiles : String → CountedProfile
  /-- How many identifiers were drawn. -/
  drawn : ℕ

variable (services : LearningServices)

/-- A service that has done nothing. -/
def LearningStore.empty : LearningStore := ⟨[], [], fun _ => {}, fun _ => {}, fun _ => {}, 0⟩

def LearningServices.str : Json → String
  | .null => "None"
  | .bool b => if b then "True" else "False"
  | .int n => toString n
  | .float text => text
  | .str text => text
  | value => services.repr value

/-- The fragments of a key that make `_sanitize_metadata` hide its value. -/
def sensitiveKeyFragments : List String :=
  ["token", "secret", "api_key", "apikey", "password", "credential"]

mutual

def sanitizeMetadata (casefold : String → String) : Json → Json
  | .obj fields => redactPayload (.obj (sanitizeFields casefold fields))
  | .list items => .list (sanitizeItems casefold items)
  | value => redactPayload value

/-- `_sanitize_metadata` on the items of a list. -/
def sanitizeItems (casefold : String → String) : List Json → List Json
  | [] => []
  | item :: items => sanitizeMetadata casefold item :: sanitizeItems casefold items

/-- `_sanitize_metadata` on the members of an object, before they are redacted. -/
def sanitizeFields (casefold : String → String) : List (String × Json) → List (String × Json)
  | [] => []
  | (key, value) :: fields =>
    (if sensitiveKeyFragments.any fun fragment => containsText (casefold key) fragment then
      (key, .str "[REDACTED_SECRET]")
    else (key, sanitizeMetadata casefold value)) :: sanitizeFields casefold fields

end

mutual

/-- `_contains_blocked_payload`, for the keys in lower case. -/
def containsBlockedPayload (casefold : String → String) (blockedKeys : List String) : Json → Bool
  | .obj fields => fieldsContainBlocked casefold blockedKeys fields
  | .list items => itemsContainBlocked casefold blockedKeys items
  | .str text =>
    containsText (casefold text) "traceback (most recent call last)" ||
      containsText (casefold text) "stacktrace"
  | _ => false

/-- `_contains_blocked_payload` on the items of a list. -/
def itemsContainBlocked (casefold : String → String) (blockedKeys : List String) : List Json → Bool
  | [] => false
  | item :: items =>
    containsBlockedPayload casefold blockedKeys item ||
      itemsContainBlocked casefold blockedKeys items

/-- `_contains_blocked_payload` on the members of an object. -/
def fieldsContainBlocked (casefold : String → String) (blockedKeys : List String) :
    List (String × Json) → Bool
  | [] => false
  | (key, value) :: fields =>
    blockedKeys.contains (casefold key) || containsBlockedPayload casefold blockedKeys value ||
      fieldsContainBlocked casefold blockedKeys fields

end

def members : Json → List (String × Json)
  | .obj fields => fields
  | _ => []

def sanitizedRequest (request : LearningExtractionRequest) : LearningExtractionRequest :=
  { request with
    metadataSanitized :=
      members (sanitizeMetadata services.casefold (.obj request.metadataSanitized)) }

variable (policy : LearningPolicy)

/-- The reasons of `extract` to block what a request gives. -/
def blockedReasons (request : LearningExtractionRequest) : List String :=
  let sanitized := sanitizedRequest services request
  (if containsSecret services.casefold request.dump then ["secret_detected"] else []) ++
  (if containsBlockedPayload services.casefold (policy.blockedPayloadKeys.map services.casefold)
      sanitized.dump then ["raw_or_stacktrace_payload_blocked"] else []) ++
  (if sanitized.evidenceRefs = [] ∧ policy.evidenceRequired = true then
    ["learning_evidence_required"] else [])

/-- What `_candidate` is called with beside what all candidates share. -/
structure LearningRow where
  type : String
  title : String
  summary : String
  reusableWhen : List String
  deriving DecidableEq

def asText : Json → String
  | .str text => redactText text
  | value => services.dumps (redactPayload value)

def lessonPayload : Json → Json
  | .obj fields => redactPayload (.obj fields)
  | value => .obj [("summary", .str (services.str (redactPayload value)))]

/-- `payload.get(name)`, if it counts as true. -/
def truthyField? (payload : Json) (name : String) : Option Json :=
  (payload.field? name).filter Json.truthy

def lessonRow (lesson : Json) : LearningRow :=
  let payload := lessonPayload services lesson
  { type := services.str ((truthyField? payload "type").getD (.str "workflow_lesson"))
    title := services.str ((truthyField? payload "title").getD (.str "Licao reutilizavel de run"))
    summary := services.str (((truthyField? payload "summary").or
      (truthyField? payload "lesson")).getD lesson)
    reusableWhen :=
      match payload.field? "reusable_when" with
      | some (.list items) => items.map services.str
      | _ => [] }

def given (text : Option String) : Option String := text.filter (· ≠ "")

def summaryText (request : LearningExtractionRequest) : String :=
  let joined := "; ".intercalate
    ((request.whatWorked ++ request.whatFailed).map fun item => asText services (.str item))
  if joined = "" then (given request.outcome).getD "run learning" else joined

/-- The rows of `_build_candidates`. -/
def learningRows (request : LearningExtractionRequest) : List LearningRow :=
  let experienced := request.whatWorked ≠ [] ∨ request.whatFailed ≠ []
  request.reusableLessons.map (lessonRow services) ++
  (request.commandsSuccessful.map fun command =>
    ⟨"command_learning", "Comando validado em run", asText services command,
      ["command_execution"]⟩) ++
  (request.commandsFailed.map fun command =>
    ⟨"failure_pattern", "Falha de comando observada", asText services command,
      ["debugging", "command_execution"]⟩) ++
  (request.whatFailed.map fun failure =>
    ⟨"failure_pattern", "Padrao de falha observado", asText services (.str failure),
      ["debugging", "regression"]⟩) ++
  (request.artifactsCreated.map fun artifact =>
    ⟨"artifact_learning", "Licao de artifact criado", asText services artifact,
      ["artifact_lifecycle"]⟩) ++
  ((given request.skillPackId).toList.filter (fun _ => experienced)).map (fun skillPackId =>
    ⟨"skill_pack_learning", "Aprendizado do skill pack " ++ skillPackId,
      summaryText services request, ["skill_pack_selection", "skill_execution"]⟩) ++
  ((given request.templateId).toList.filter (fun _ => experienced)).map (fun templateId =>
    ⟨"template_learning", "Aprendizado do template " ++ templateId,
      summaryText services request, ["template_selection", "project_generation"]⟩)

def scopeFor (request : LearningExtractionRequest) : LearningScope :=
  if (given request.projectId).isSome then .project
  else if (given request.skillPackId).isSome then .skillPack
  else if (given request.templateId).isSome then .template
  else if request.artifactIds ≠ [] then .artifact
  else .globalGuarded

def firstChars (n : ℕ) (text : String) : String := String.ofList (text.toList.take n)

/-- `_candidate`, for the identifier that is drawn. It raises for a type that the policy
allows and the schema does not know. -/
def candidateOf (request : LearningExtractionRequest) (blocked : List String) (row : LearningRow)
    (number : ℕ) : Except String MemoryCandidateV2 :=
  let type := if policy.allowedCandidateTypes.contains row.type then row.type
    else "workflow_lesson"
  match LearningType.ofText? type with
  | none => .error "ValidationError"
  | some type => .ok
    { candidateId := "learning_candidate_" ++ services.uuid number
      type := type
      title := firstChars 240 row.title
      summary := firstChars policy.maxCandidateSummaryChars (redactText row.summary)
      reusableWhen := row.reusableWhen
      scope := scopeFor request
      status := if blocked = [] then .proposed else .blocked
      sourceType := request.sourceType
      sourceId := request.sourceId
      sourceRefs := [request.sourceId, request.runId, request.sessionId].filterMap given
      evidenceRefs := request.evidenceRefs
      projectId := request.projectId
      skillPackId := request.skillPackId
      templateId := request.templateId
      artifactIds := request.artifactIds
      tags := request.tags
      blockReasonCodes := blocked
      containsSecretRisk := blocked.contains "secret_detected"
      rawLogBlocked := blocked.contains "raw_or_stacktrace_payload_blocked"
      metadataSanitized := request.metadataSanitized }

def candidatesOf (services : LearningServices) (policy : LearningPolicy)
    (request : LearningExtractionRequest) (blocked : List String) :
    List LearningRow → ℕ → Except String (List MemoryCandidateV2)
  | [], _ => .ok []
  | row :: rows, number => do
    let candidate ← candidateOf services policy request blocked row number
    let candidates ← candidatesOf services policy request blocked rows (number + 1)
    pure (candidate :: candidates)

variable (candidate : MemoryCandidateV2)

/-- `_fingerprint`. -/
def learningFingerprint : String :=
  services.sha256 (services.casefold ("|".intercalate
    [candidate.type.text, candidate.projectId.getD "None", candidate.skillPackId.getD "None",
      candidate.templateId.getD "None", candidate.title, candidate.summary]))

/-- What `_build_candidates` makes of candidates whose fingerprints were seen before. -/
def markDuplicates (services : LearningServices) :
    List String → List MemoryCandidateV2 → List MemoryCandidateV2
  | _, [] => []
  | seen, candidate :: candidates =>
    let fingerprint := learningFingerprint services candidate
    (if fingerprint ∈ seen then
      { candidate with
        status := .superseded
        warnings := candidate.warnings ++ ["duplicate_candidate"] }
    else candidate) :: markDuplicates services (fingerprint :: seen) candidates

def buildCandidates (s : LearningStore) (request : LearningExtractionRequest)
    (blocked : List String) :
    Except String (List MemoryCandidateV2) := do
  let candidates ← candidatesOf services policy request blocked (learningRows services request)
    s.drawn
  pure (markDuplicates services (s.candidates.map (learningFingerprint services)) candidates)

def appendUnique (values : List String) (value : String) : List String :=
  if value ∈ values then values else values ++ [value]

variable (s : LearningStore)

def LearningStore.saveCandidate (candidate : MemoryCandidateV2) : LearningStore :=
  { s with candidates := saveRow MemoryCandidateV2.candidateId candidate s.candidates }

variable (memory : MemoryRecord)

def LearningStore.saveMemory : LearningStore :=
  { s with memories := saveRow MemoryRecord.memoryId memory s.memories }

def updateProfile {β : Type} (profiles : String → β) (id : Option String) (change : β → β) :
    String → β :=
  ((given id).map fun id => Function.update profiles id (change (profiles id))).getD profiles

def LearningStore.updateProfilesForCandidate (candidate : MemoryCandidateV2) : LearningStore :=
  { s with
    projectProfiles := updateProfile s.projectProfiles candidate.projectId fun profile =>
      { profile with candidateIds := appendUnique profile.candidateIds candidate.candidateId }
    skillPackProfiles := updateProfile s.skillPackProfiles candidate.skillPackId fun profile =>
      { profile with candidateIds := appendUnique profile.candidateIds candidate.candidateId }
    templateProfiles := updateProfile s.templateProfiles candidate.templateId fun profile =>
      { profile with candidateIds := appendUnique profile.candidateIds candidate.candidateId } }

def ProjectLearningProfile.add (profile : ProjectLearningProfile) : ProjectLearningProfile :=
  { profile with
    acceptedMemoryIds := appendUnique profile.acceptedMemoryIds memory.memoryId
    successfulCommands := if memory.type = .commandLearning then
      appendUnique profile.successfulCommands memory.title else profile.successfulCommands
    failurePatterns := if memory.type = .failurePattern then
      appendUnique profile.failurePatterns memory.title else profile.failurePatterns
    artifactLessons := if memory.type = .artifactLearning then
      appendUnique profile.artifactLessons memory.title else profile.artifactLessons }

def CountedProfile.add (candidate : MemoryCandidateV2) (profile : CountedProfile) :
    CountedProfile :=
  { profile with
    acceptedMemoryIds := appendUnique profile.acceptedMemoryIds memory.memoryId
    successCount := profile.successCount + if candidate.type ≠ .failurePattern then 1 else 0
    failureCount := profile.failureCount + if candidate.type = .failurePattern then 1 else 0 }

def LearningStore.updateProfilesForMemory (candidate : MemoryCandidateV2) : LearningStore :=
  { s with
    projectProfiles := updateProfile s.projectProfiles memory.projectId
      (ProjectLearningProfile.add memory)
    skillPackProfiles := updateProfile s.skillPackProfiles memory.skillPackId
      (CountedProfile.add memory candidate)
    templateProfiles := updateProfile s.templateProfiles memory.templateId
      (CountedProfile.add memory candidate) }

/-- `extract`: the candidates, the reasons they are blocked for, and the store with the
candidates and the profiles they are written to. -/
def extract (policy : LearningPolicy) (s : LearningStore) (request : LearningExtractionRequest) :
    Except String (List MemoryCandidateV2 × List String × LearningStore) := do
  let blocked := blockedReasons services policy request
  let candidates ← buildCandidates services policy s (sanitizedRequest services request) blocked
  let saved := candidates.foldl (fun s candidate =>
    (s.saveCandidate candidate).updateProfilesForCandidate candidate) s
  pure (candidates, blocked, { saved with drawn := s.drawn + candidates.length })

def getCandidate (candidateId : String) : Option MemoryCandidateV2 :=
  s.candidates.find? fun candidate => candidate.candidateId = candidateId

def acceptBlockReasons : List String :=
  (candidate.blockReasonCodes ++
    (if candidate.evidenceRefs = [] then ["learning_evidence_required"] else []) ++
    (if candidate.containsSecretRisk then ["secret_detected"] else []) ++
    (if candidate.rawLogBlocked then ["raw_log_not_accepted"] else []) ++
    (if candidate.status = .rejected then ["candidate_rejected"]
      else if candidate.status = .archived then ["candidate_archived"] else [])).eraseDups

/-- A review of a candidate: `MemoryReviewRequest`, with the candidate it is about. -/
structure Review where
  candidateId : String
  reviewedBy : String := "codex"
  reason : String := ""

/-- The memory of an accepted candidate. The entry for the reason is first, and the metadata
of the candidate is put over it. -/
def memoryOf (review : Review) (number : ℕ) : MemoryRecord where
  memoryId := "learning_memory_" ++ services.uuid number
  candidateId := candidate.candidateId
  type := candidate.type
  title := candidate.title
  summary := candidate.summary
  reusableWhen := candidate.reusableWhen
  scope := candidate.scope
  confidence := candidate.confidence
  evidenceRefs := candidate.evidenceRefs
  sourceRefs := candidate.sourceRefs
  projectId := candidate.projectId
  skillPackId := candidate.skillPackId
  templateId := candidate.templateId
  tags := candidate.tags
  acceptedBy := review.reviewedBy
  metadataSanitized := candidate.metadataSanitized.foldl
    (fun fields field => Json.setField field.1 field.2 fields)
    [("accepted_reason", .str review.reason)]

/-- What `accept_candidate` returns. -/
inductive Acceptance
  | blocked (candidate : MemoryCandidateV2) (reasons : List String)
  | accepted (candidate : MemoryCandidateV2) (memory : MemoryRecord)

def acceptCandidate (s : LearningStore) (review : Review) :
    Except String (Acceptance × LearningStore) :=
  match getCandidate s review.candidateId with
  | none => .error "FileNotFoundError"
  | some candidate =>
    let reasons := acceptBlockReasons candidate
    if reasons ≠ [] then
      let candidate := { candidate with
        status := .blocked
        blockReasonCodes := (candidate.blockReasonCodes ++ reasons).eraseDups }
      .ok (.blocked candidate reasons, s.saveCandidate candidate)
    else
      let memory := memoryOf services candidate review s.drawn
      let candidate := { candidate with status := .accepted, memoryId := some memory.memoryId }
      let s := ((s.saveMemory memory).saveCandidate candidate).updateProfilesForMemory memory
        candidate
      .ok (.accepted candidate memory, { s with drawn := s.drawn + 1 })

variable (review : Review)

def setCandidateStatus (status : LearningStatus) :
    Except String (MemoryCandidateV2 × LearningStore) :=
  match getCandidate s review.candidateId with
  | none => .error "FileNotFoundError"
  | some candidate =>
    let updated := { candidate with
      status := status
      metadataSanitized := Json.setField "review_reason" (.str review.reason)
        (Json.setField "reviewed_by" (.str review.reviewedBy) candidate.metadataSanitized) }
    .ok (updated, s.saveCandidate updated)

def rejectCandidate := setCandidateStatus s review .rejected

def archiveCandidate := setCandidateStatus s review .archived

def markStale := setCandidateStatus s review .stale

end AIpinho.Memory
