import AIpinho.Approvals.Service
import AIpinho.Lib.Text
import AIpinho.Mission.Contract

/-!
# Curated memory

An approved candidate becomes a memory, and a memory may supersede an older one: the new one
names the old one, which is marked and names the new one. `supersede` looks at the old memory
first; `persist` takes what the request names.
-/

namespace AIpinho.Memory

open Lib
open AIpinho.Approvals (ApprovalRequest)
open AIpinho.Mission (containsText)
open AIpinho.Runtime (isSpace)

/-- `MemoryCandidateKind`. -/
inductive MemoryKind
  | architectureDecision | policyDecision | validationLearning | bugFixSummary | patchOutcome
  | runtimeBehavior | projectConstraint | userInstruction | operationalProcedure
  | knownLimitation | testingGuidance | riskPattern | designRationale
  deriving DecidableEq

def MemoryKind.text : MemoryKind → String
  | .architectureDecision => "architecture_decision"
  | .policyDecision => "policy_decision"
  | .validationLearning => "validation_learning"
  | .bugFixSummary => "bug_fix_summary"
  | .patchOutcome => "patch_outcome"
  | .runtimeBehavior => "runtime_behavior"
  | .projectConstraint => "project_constraint"
  | .userInstruction => "user_instruction"
  | .operationalProcedure => "operational_procedure"
  | .knownLimitation => "known_limitation"
  | .testingGuidance => "testing_guidance"
  | .riskPattern => "risk_pattern"
  | .designRationale => "design_rationale"

/-- `TECHNICAL_KINDS`. -/
def MemoryKind.isTechnical : MemoryKind → Bool
  | .architectureDecision | .policyDecision | .validationLearning | .bugFixSummary
  | .patchOutcome | .runtimeBehavior | .projectConstraint | .testingGuidance
  | .riskPattern => true
  | _ => false

/-- `MemoryCandidateStatus`. -/
inductive CandidateStatus
  | candidate | needsReview | blocked | rejected | duplicate
  deriving DecidableEq

def CandidateStatus.text : CandidateStatus → String
  | .candidate => "candidate"
  | .needsReview => "needs_review"
  | .blocked => "blocked"
  | .rejected => "rejected"
  | .duplicate => "duplicate"

inductive DedupeStatus
  | unique | duplicate | nearDuplicate
  deriving DecidableEq

/-- `MemoryCandidateEvidence`, as far as it is checked. -/
structure CandidateEvidence where
  evidenceId : String
  sourceRef : String
  summary : String

/-- `MemoryCandidate`, as far as it is read. -/
structure MemoryCandidate where
  candidateId : String
  status : CandidateStatus
  kind : MemoryKind
  text : String
  sourceType : String
  sourceId : Option String
  sourceRef : Option String
  scopeType : String
  scopeWorkspace : Option String
  evidence : List CandidateEvidence
  criticalReasons : Option (List String)
  /-- What the comparison with other candidates gave. -/
  dedupe : DedupeStatus
  /-- Whether it contradicts another candidate. -/
  hasConflict : Bool

/-- `CuratedMemoryStatus`. -/
inductive MemoryStatus
  | active | superseded | expired | rejected
  deriving DecidableEq

/-- `CuratedMemory`, as far as it is read. -/
structure CuratedMemory where
  status : MemoryStatus
  kind : MemoryKind
  text : String
  scopeType : String
  candidateId : String
  approvalId : String
  supersedes : Option String
  supersededBy : Option String
  createdAt : String
  updatedAt : String
  deriving DecidableEq

abbrev CuratedStore : Type := Table String CuratedMemory

/-- A compiled pattern. -/
structure TextPattern where
  /-- `pattern.search`. -/
  search : String → Bool
  /-- `pattern.sub`. -/
  sub : String → String → String
  /-- Where nothing is found nothing is replaced. -/
  sub_of_not_search : ∀ mark text, search text = false → sub mark text = text

/-- What the services of the memory look up. -/
structure MemoryServices where
  namedSecret : TextPattern
  privateKey : TextPattern
  /-- The pattern of a key that starts with `sk-`. -/
  secretKey : TextPattern
  /-- `str.lower`. -/
  lower : String → String
  /-- A workspace is below a forbidden root. -/
  isForbidden : String → Bool
  /-- The identifier of the memory to whose file an identifier leads, none outside of the
  store. -/
  fileOf : String → Option String

def present (text : Option String) : Bool := (text.filter (· ≠ "")).isSome

/-- The elements of a list without repetitions, `dict.fromkeys`. -/
def unique (items : List String) : List String := items.eraseDups

namespace MemoryServices

variable (services : MemoryServices)

def scanStep (found : List String × String) (pattern : TextPattern) : List String × String :=
  if pattern.search found.2 then
    (found.1 ++ ["secret_like_text"], pattern.sub "[REDACTED_SECRET]" found.2)
  else found

def secretPatterns : List TextPattern :=
  [services.namedSecret, services.privateKey, services.secretKey]

/-- `MemoryCandidateSensitivityScanner.scan`: the reasons, none of them if the text is safe. -/
def scan (text : String) (evidence : List CandidateEvidence) : List String :=
  let secrets := (services.secretPatterns.foldl scanStep ([], text)).1
  let lowered := services.lower text
  let logs := if containsText lowered "traceback (most recent call last)" ||
    containsText lowered "raw log" then ["raw_log_like_text"] else []
  let dumps := if text.toList.count '\n' > 80 || text.length > 5000 then
    ["full_file_or_dump_like_content"] else []
  let summaries := " ".intercalate (evidence.map (·.summary))
  let proofs := if services.secretPatterns.any fun pattern => pattern.search summaries then
    ["secret_like_evidence"] else []
  unique (secrets ++ logs ++ dumps ++ proofs)

/-- `MemoryCandidateScopeService.validate`. -/
def scopeReasons (candidate : MemoryCandidate) : List String :=
  (if candidate.scopeType = "" then ["scope_missing"] else []) ++
    match candidate.scopeWorkspace.filter (· ≠ "") with
    | some workspace => if services.isForbidden workspace then ["forbidden_root_scope"] else []
    | none => []

/-- `MemoryCandidateEvidenceService.validate`. -/
def evidenceReasons (candidate : MemoryCandidate) : List String :=
  (if candidate.kind.isTechnical && candidate.evidence.isEmpty then
    ["evidence_missing_for_technical_memory"] else []) ++
    candidate.evidence.flatMap fun item =>
      (if item.evidenceId = "" then ["evidence_id_missing"] else []) ++
        (if item.sourceRef = "" then ["evidence_source_ref_missing"] else []) ++
          if item.summary = "" then ["evidence_summary_missing"] else []

/-- `CuratedMemoryValidator.validate_candidate`. -/
def validateCandidate : Option MemoryCandidate → List String
  | none => ["candidate_not_found"]
  | some candidate => unique <|
    (if candidate.status = .candidate ∨ candidate.status = .needsReview then []
      else ["candidate_status_blocked:" ++ candidate.status.text]) ++
    (if candidate.sourceType = "" || !(present candidate.sourceId || present candidate.sourceRef)
      then ["source_missing"] else []) ++
    services.scopeReasons candidate ++ evidenceReasons candidate ++
    services.scan candidate.text candidate.evidence ++
    (if candidate.dedupe = .duplicate then ["duplicate_candidate_blocked"] else []) ++
    (if candidate.hasConflict then ["unresolved_candidate_conflict"] else []) ++
    candidate.criticalReasons.getD []

/-- `CuratedMemoryStore._sanitize` of a text. -/
def sanitize (text : String) : String :=
  services.secretKey.sub "sk-[REDACTED]" (services.namedSecret.sub "\\1=[REDACTED]" text)

/-- `" ".join(text.lower().split())`. -/
def normalized (text : String) : String :=
  " ".intercalate <|
    (((services.lower text).toList.splitOnP isSpace).filter (· ≠ [])).map String.ofList

end MemoryServices

structure CuratedMemoryRequest where
  candidateId : String
  approvalId : String
  operatorConfirmed : Bool
  /-- How a conflict or a likeness is resolved. -/
  resolution : Option String
  supersedeMemoryId : Option String

structure MemorySupersedeRequest where
  candidateId : String
  approvalId : String
  reason : String
  operatorConfirmed : Bool

/-- What a call finds and is given: the candidate and the approval of the request, a new
identifier and the time. -/
structure Findings where
  candidate : Option MemoryCandidate
  approval : Option ApprovalRequest
  /-- `memory_<uuid>`. -/
  memoryId : String
  now : String

/-- `CuratedMemoryResult`, as far as it is read. -/
structure CuratedMemoryResult where
  /-- `active` or `blocked`. -/
  status : String
  memoryId : Option String
  blockedReasons : List String

/-- `approval.policy_snapshot.config_versions.get("memory", {})`. -/
def memoryMeta (approval : ApprovalRequest) : Json :=
  (((approval.members.lookup "policy_snapshot").bind (·.field? "config_versions")).bind
    (·.field? "memory")).getD (.obj [])

def approvalReasons (candidate : Option MemoryCandidate) :
    Option ApprovalRequest → Except String (List String)
  | none => .ok ["approval_missing"]
  | some approval => do
    let status := if approval.status = .approved then []
      else ["approval_not_approved:" ++ approval.status.text]
    let scope := if approval.approvalScope = "curated_memory_persist" then []
      else ["approval_scope_mismatch:" ++ approval.approvalScope]
    match candidate, memoryMeta approval with
    | none, _ => pure (status ++ scope)
    | some candidate, .obj fields =>
      pure (status ++ scope ++
        (if fields.lookup "candidate_id" = some (.str candidate.candidateId) then []
          else ["approval_candidate_mismatch"]) ++
        if fields.lookup "kind" = some (.str candidate.kind.text) then []
          else ["approval_kind_mismatch"])
    | some _, _ => .error "AttributeError"

variable (services : MemoryServices)

variable (request : CuratedMemoryRequest)

/-- `MemoryPersistenceGuard.validate`: the reasons, none of them if it is allowed. -/
def validate (found : Findings) : Except String (List String) := do
  let checked := services.validateCandidate found.candidate
  let checked := match found.candidate with
    | none => checked
    | some candidate =>
      let checked := if candidate.hasConflict && request.resolution = some "supersede_existing" &&
          present request.supersedeMemoryId then
        checked.filter (· ≠ "unresolved_candidate_conflict") else checked
      if candidate.dedupe = .nearDuplicate ∧ (request.resolution = some "supersede_existing" ∨
          request.resolution = some "link_to_existing") then
        checked.filter (· ≠ "duplicate_candidate_blocked") else checked
  let approved ← approvalReasons found.candidate found.approval
  pure <| unique <| checked ++ approved ++
    if request.operatorConfirmed then [] else ["operator_confirmation_required"]

namespace CuratedStore

variable (services : MemoryServices) (s : CuratedStore)

/-- `get_memory`: the memory that is found comes with its own identifier. -/
def getMemory (memoryId : String) : Except String (Option (String × CuratedMemory)) :=
  match services.fileOf memoryId with
  | some file => .ok ((s.get? file).map (file, ·))
  | none => .error "UnsafePathError"

def sanitized (memory : CuratedMemory) : CuratedMemory :=
  { memory with
    text := services.sanitize memory.text
    scopeType := services.sanitize memory.scopeType
    candidateId := services.sanitize memory.candidateId
    approvalId := services.sanitize memory.approvalId
    supersedes := memory.supersedes.map services.sanitize
    supersededBy := memory.supersededBy.map services.sanitize }

def saveMemory (memoryId : String) (memory : CuratedMemory) : CuratedStore :=
  s.insert memoryId (sanitized services memory)

def isAfter (entry other : String × CuratedMemory) : Prop :=
  other.1 ++ ".json" ≤ entry.1 ++ ".json"

instance : DecidableRel isAfter := fun entry other =>
  inferInstanceAs (Decidable (other.1 ++ ".json" ≤ entry.1 ++ ".json"))

def isListed (kind : MemoryKind) (scope : String) (memory : CuratedMemory) : Bool :=
  memory.status = .active && memory.kind = kind && (scope = "" || memory.scopeType = scope)

/-- `list_memories` of the active ones. -/
def listActive (kind : MemoryKind) (scope : String) (limit : ℕ) : List CuratedMemory :=
  (((s.entries.insertionSort isAfter).map Prod.snd).filter (isListed kind scope)).take limit

/-- `_duplicates_active_memory`. -/
def duplicatesActive (candidate : MemoryCandidate) : Bool :=
  (s.listActive candidate.kind candidate.scopeType 10000).any fun memory =>
    services.normalized memory.text = services.normalized candidate.text

end CuratedStore

def newMemory (candidate : MemoryCandidate) (now : String) : CuratedMemory where
  status := .active
  kind := candidate.kind
  text := candidate.text
  scopeType := candidate.scopeType
  candidateId := candidate.candidateId
  approvalId := request.approvalId
  supersedes := if request.resolution = some "supersede_existing" then request.supersedeMemoryId
    else none
  supersededBy := none
  createdAt := now
  updatedAt := now

def markSuperseded (memoryId now : String) (old : CuratedMemory) : CuratedMemory :=
  { old with status := .superseded, supersededBy := some memoryId, updatedAt := now }

def writeMemory (found : Findings) (candidate : MemoryCandidate) (s : CuratedStore) :
    Except String CuratedMemoryResult × CuratedStore :=
  let memory := newMemory request candidate found.now
  let saved (s : CuratedStore) := s.saveMemory services found.memoryId memory
  match memory.supersedes.filter (· ≠ "") with
  | none => (.ok ⟨"active", some found.memoryId, []⟩, saved s)
  | some oldId =>
    match s.getMemory services oldId with
    | .error e => (.error e, s)
    | .ok none => (.ok ⟨"active", some found.memoryId, []⟩, saved s)
    | .ok (some (file, old)) =>
      (.ok ⟨"active", some found.memoryId, []⟩,
        saved (s.saveMemory services file (markSuperseded found.memoryId found.now old)))

/-- `CuratedMemoryPersistenceService.persist`. The events, the versions and the traces are left
out. -/
def persist (found : Findings) (s : CuratedStore) :
    Except String CuratedMemoryResult × CuratedStore :=
  match validate services request found, found.candidate with
  | .error e, _ => (.error e, s)
  | .ok [], some candidate =>
    if s.duplicatesActive services candidate ∧ request.resolution ≠ some "supersede_existing" then
      (.ok ⟨"blocked", none, ["duplicate_curated_memory_blocks_new_memory"]⟩, s)
    else writeMemory services request found candidate s
  | .ok reasons, _ => (.ok ⟨"blocked", none, reasons⟩, s)

/-- `MemorySupersedeService.supersede`. -/
def supersede (memoryId : String) (request : MemorySupersedeRequest) (found : Findings)
    (s : CuratedStore) : Except String (Option CuratedMemoryResult) × CuratedStore :=
  if request.reason = "" then (.ok none, s)
  else
    match s.getMemory services memoryId with
    | .error e => (.error e, s)
    | .ok none => (.ok none, s)
    | .ok (some (_, existing)) =>
      if existing.status ≠ .active then (.ok none, s)
      else
        let (result, s) := persist services
          ⟨request.candidateId, request.approvalId, request.operatorConfirmed,
            some "supersede_existing", some memoryId⟩ found s
        (result.map some, s)

/-- The calls. -/
inductive MemoryOp
  | persist (request : CuratedMemoryRequest) (found : Findings)
  | supersede (memoryId : String) (request : MemorySupersedeRequest) (found : Findings)

def MemoryOp.step (s : CuratedStore) : MemoryOp → CuratedStore
  | .persist request found => (Memory.persist services request found s).2
  | .supersede memoryId request found => (Memory.supersede services memoryId request found s).2

end AIpinho.Memory
