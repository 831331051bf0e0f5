import AIpinho.Lib.Checks
import AIpinho.Lib.Text
import AIpinho.Runtime.Sanitize
import Mathlib.Data.List.Sort
import Mathlib.Data.Prod.Lex
import Mathlib.Order.Lattice.Nat

/-!
# Revisions of a task vocabulary

`TaskSemanticVocabularyRevisionService.revise` adds concepts to a frozen vocabulary. A proposed
concept id is trimmed before it is checked, and is stored as it was proposed.
-/

namespace AIpinho.Semantics

open List Lib
open AIpinho.Runtime (isSpace)

inductive SemanticConceptType
  | useSafety | epistemicProperty | behavioralProperty | structuralProperty | relationship
  | downstreamUse | capability | constraintFamily | workMode | evidenceDomain | effect
  deriving DecidableEq

def SemanticConceptType.text : SemanticConceptType → String
  | .useSafety => "use_safety"
  | .epistemicProperty => "epistemic_property"
  | .behavioralProperty => "behavioral_property"
  | .structuralProperty => "structural_property"
  | .relationship => "relationship"
  | .downstreamUse => "downstream_use"
  | .capability => "capability"
  | .constraintFamily => "constraint_family"
  | .workMode => "work_mode"
  | .evidenceDomain => "evidence_domain"
  | .effect => "effect"

inductive SemanticConceptScope
  | system | task
  deriving DecidableEq

def SemanticConceptScope.text : SemanticConceptScope → String
  | .system => "system"
  | .task => "task"

structure SemanticConceptProvenance where
  sourceKind : String
  sourceRef : String
  sourceField : Option String := none
  sourceSha256 : Option String := none
  deriving DecidableEq

/-- `SemanticConceptDefinition`; a `SemanticScalar` is a value of JSON. -/
structure SemanticConceptDefinition where
  conceptId : String
  conceptType : SemanticConceptType
  scope : SemanticConceptScope
  allowedStates : List Json := []
  requirementStates : List Json := []
  description : Option String := none
  aliases : List String := []
  provenance : List SemanticConceptProvenance := []
  deriving DecidableEq

/-- What the authority hash of a `TaskSemanticVocabulary` is computed from. -/
structure VocabularyContent where
  taskRunId : Option String := none
  taskId : Option String := none
  sourcePlanId : Option String := none
  sourceExecutionId : Option String := none
  sourceSemanticsSha256 : String
  revision : ℤ := 1
  parentVocabularyId : Option String := none
  /-- The hash of the vocabulary it revises. -/
  parentAuthoritySha256 : Option String := none
  revisionReason : Option String := none
  revisionSourceRef : Option String := none
  concepts : List SemanticConceptDefinition := []
  conceptTypeStateDomains : List (String × List Json) := []
  conceptTypeRequirementDomains : List (String × List Json) := []
  schemaVersion : String := "task_semantic_vocabulary.v1"

structure TaskSemanticVocabulary extends VocabularyContent where
  vocabularyId : String
  authoritySha256 : String

structure TaskSemanticVocabularyRevisionRequest where
  parentVocabularyId : String
  /-- The hash of the vocabulary to revise. -/
  parentAuthoritySha256 : String
  reason : String
  conceptsToAdd : List SemanticConceptDefinition := []
  sourceRef : Option String := none

def taskRevisionTypes : List SemanticConceptType :=
  [.epistemicProperty, .behavioralProperty, .structuralProperty, .relationship, .downstreamUse,
    .evidenceDomain]

/-- `SystemSemanticVocabularyService.concept_type_state_domains`. -/
def conceptTypeStateDomain : SemanticConceptType → List Json
  | .useSafety => [.bool true, .str "true_with_limitations", .bool false]
  | .epistemicProperty | .behavioralProperty | .structuralProperty | .relationship =>
    [.str "observed", .str "inferred", .str "derived", .str "unknown", .str "not_applicable"]
  | _ => []

/-- `SystemSemanticVocabularyService.concept_type_requirement_domains`. -/
def conceptTypeRequirementDomain : SemanticConceptType → List Json
  | .useSafety => [.bool true, .str "true_with_limitations"]
  | .epistemicProperty | .behavioralProperty | .structuralProperty | .relationship =>
    [.str "observed", .str "inferred", .str "derived"]
  | _ => []

def isIdChar (c : Char) : Bool := c.isLower || c.isDigit || c == '_'

/-- `re.fullmatch(r"[a-z][a-z0-9_]*", text)`. -/
def isConceptId (text : String) : Bool :=
  match text.toList with
  | [] => false
  | c :: cs => c.isLower && cs.all isIdChar

/-- `_validate_candidate`: why a concept is refused, if it is. -/
def validateCandidate (candidate : SemanticConceptDefinition) (existing seenNew : List String) :
    Option String :=
  let identifier := strip isSpace candidate.conceptId
  let typeStates := conceptTypeStateDomain candidate.conceptType
  let typeRequirementStates := conceptTypeRequirementDomain candidate.conceptType
  if !isConceptId identifier then some "TASK_SEMANTIC_VOCABULARY_CONCEPT_ID_INVALID"
  else if existing.contains identifier || seenNew.contains identifier then
    some "TASK_SEMANTIC_VOCABULARY_CONCEPT_ALREADY_DEFINED"
  else if candidate.scope ≠ .task then some "TASK_SEMANTIC_VOCABULARY_REVISION_SCOPE_INVALID"
  else if !taskRevisionTypes.contains candidate.conceptType then
    some "TASK_SEMANTIC_VOCABULARY_REVISION_TYPE_NOT_ALLOWED"
  else if !candidate.allowedStates.isEmpty &&
      (typeStates.isEmpty || !candidate.allowedStates.all typeStates.contains) then
    some "TASK_SEMANTIC_VOCABULARY_STATE_OUTSIDE_TYPE_DOMAIN"
  else if candidate.requirementStates.isEmpty then none
  else if candidate.allowedStates.isEmpty then
    some "TASK_SEMANTIC_VOCABULARY_REQUIREMENT_STATE_WITHOUT_DOMAIN"
  else if !candidate.requirementStates.all candidate.allowedStates.contains then
    some "TASK_SEMANTIC_VOCABULARY_REQUIREMENT_STATE_OUTSIDE_CONCEPT_DOMAIN"
  else if typeRequirementStates.isEmpty ||
      !candidate.requirementStates.all typeRequirementStates.contains then
    some "TASK_SEMANTIC_VOCABULARY_REQUIREMENT_STATE_OUTSIDE_TYPE_DOMAIN"
  else none

def storedConcept (parent : TaskSemanticVocabulary) (candidate : SemanticConceptDefinition) :
    SemanticConceptDefinition :=
  { candidate with
    scope := .task
    provenance := candidate.provenance ++
      [⟨"deterministic_gate", "task_semantic_vocabulary_revision.v1", some "concepts_to_add",
        some parent.authoritySha256⟩] }

/-- The loop over the proposed concepts. -/
def additionsFrom (parent : TaskSemanticVocabulary) :
    List String → List SemanticConceptDefinition →
      Except String (List SemanticConceptDefinition)
  | _, [] => .ok []
  | seenNew, candidate :: candidates =>
    match validateCandidate candidate (parent.concepts.map (·.conceptId)) seenNew with
    | some reason => .error reason
    | none => do
      let additions ← additionsFrom parent (candidate.conceptId :: seenNew) candidates
      .ok (storedConcept parent candidate :: additions)

def SemanticConceptDefinition.sortKey (concept : SemanticConceptDefinition) :
    String ×ₗ String ×ₗ String :=
  toLex (concept.scope.text, toLex (concept.conceptType.text, concept.conceptId))

def sortConcepts (concepts : List SemanticConceptDefinition) : List SemanticConceptDefinition :=
  concepts.insertionSort fun a b => a.sortKey ≤ b.sortKey

/-- `TaskSemanticVocabularyRevisionService.revise`: the revised vocabulary, or the reason
code of the refusal. The hash of a content is `_sha256` of its payload. -/
def revise (sha256 : VocabularyContent → String) (parent : TaskSemanticVocabulary)
    (request : TaskSemanticVocabularyRevisionRequest) :
    Except String TaskSemanticVocabulary :=
  if request.parentVocabularyId ≠ parent.vocabularyId then
    .error "TASK_SEMANTIC_VOCABULARY_PARENT_ID_MISMATCH"
  else if request.parentAuthoritySha256 ≠ parent.authoritySha256 then
    .error "TASK_SEMANTIC_VOCABULARY_PARENT_HASH_MISMATCH"
  else if strip isSpace request.reason = "" then
    .error "TASK_SEMANTIC_VOCABULARY_REVISION_REASON_REQUIRED"
  else if request.conceptsToAdd.isEmpty then .error "TASK_SEMANTIC_VOCABULARY_REVISION_EMPTY"
  else do
    let additions ← additionsFrom parent [] request.conceptsToAdd
    let content : VocabularyContent :=
      { parent.toVocabularyContent with
        revision := parent.revision + 1
        parentVocabularyId := some parent.vocabularyId
        parentAuthoritySha256 := some parent.authoritySha256
        revisionReason := some request.reason
        revisionSourceRef := request.sourceRef
        concepts := sortConcepts (parent.concepts ++ additions) }
    -- The stored vocabulary has the version of the service, whatever its parent had.
    .ok {
      content with
      schemaVersion := "task_semantic_vocabulary.v1"
      vocabularyId := "task_semantic_vocabulary_" ++ String.ofList ((sha256 content).toList.take 24)
      authoritySha256 := sha256 content }

/-- A chain of accepted revisions. -/
inductive Revises (sha256 : VocabularyContent → String) : TaskSemanticVocabulary →
    List TaskSemanticVocabularyRevisionRequest → TaskSemanticVocabulary → Prop
  | refl (vocabulary) : Revises sha256 vocabulary [] vocabulary
  | step {first middle last request requests} :
    revise sha256 first request = .ok middle → Revises sha256 middle requests last →
      Revises sha256 first (request :: requests) last

theorem isSpace_of_isIdChar {c : Char} (h : isIdChar c = true) : isSpace c = false := by
  have hlower : c.isLower = (decide (c.val ≥ 'a'.val) && decide (c.val ≤ 'z'.val)) := rfl
  simp only [isIdChar, hlower, Char.isDigit, Bool.or_eq_true, Bool.and_eq_true,
    decide_eq_true_eq, beq_iff_eq, UInt32.le_iff_toNat_le, Char.toNat_val] at h
  have hrange : 48 ≤ c.toNat ∧ c.toNat ≤ 122 := by
    rcases h with (h | h) | rfl
    · exact ⟨by simpa using le_trans (by decide) h.1, by simpa using h.2⟩
    · exact ⟨by simpa using h.1, by simpa using le_trans h.2 (by decide)⟩
    · decide
  obtain ⟨hlow, hhigh⟩ := hrange
  rw [isSpace]
  simp only [Bool.or_eq_false_iff, Bool.and_eq_false_iff, decide_eq_false_iff_not,
    beq_eq_false_iff_ne]
  omega

theorem strip_of_isConceptId {text : String} (h : isConceptId text = true) :
    strip isSpace text = text := by
  have hall : ∀ c ∈ text.toList, isSpace c = false := by
    intro c hc
    rw [isConceptId] at h
    split at h
    · cases h
    · rename_i first rest htext
      rw [Bool.and_eq_true, all_eq_true] at h
      rw [htext] at hc
      refine isSpace_of_isIdChar ?_
      rcases mem_cons.mp hc with rfl | hc
      · rw [isIdChar, h.1]
        rfl
      · exact h.2 c hc
  rw [strip, trim_eq_self hall, String.ofList_toList]

/-- The identifier has no blanks at its ends. -/
def SemanticConceptDefinition.IsTrimmed (concept : SemanticConceptDefinition) : Prop :=
  strip isSpace concept.conceptId = concept.conceptId

variable {seenNew : List String} {parent : TaskSemanticVocabulary}
  {additions : List SemanticConceptDefinition}

/-- What an accepted concept was checked for: its trimmed id is an id, and is not in use. -/
theorem validateCandidate_spec {candidate : SemanticConceptDefinition} {existing : List String}
    (h : validateCandidate candidate existing seenNew = none) :
    isConceptId (strip isSpace candidate.conceptId) = true ∧
      strip isSpace candidate.conceptId ∉ existing ∧
      strip isSpace candidate.conceptId ∉ seenNew := by
  rw [validateCandidate] at h
  split at h
  · cases h
  · rename_i hid
    split at h
    · cases h
    · rename_i hnew
      rw [Bool.or_eq_true, contains_iff_mem, contains_iff_mem, not_or] at hnew
      exact ⟨by simpa using hid, hnew⟩

theorem additionsFrom_cons_ok_iff {candidate : SemanticConceptDefinition}
    {candidates : List SemanticConceptDefinition} :
    additionsFrom parent seenNew (candidate :: candidates) = .ok additions ↔
      validateCandidate candidate (parent.concepts.map (·.conceptId)) seenNew = none ∧
      ∃ rest, additionsFrom parent (candidate.conceptId :: seenNew) candidates = .ok rest ∧
        additions = storedConcept parent candidate :: rest := by
  rw [additionsFrom]
  cases validateCandidate candidate (parent.concepts.map (·.conceptId)) seenNew with
  | some reason => simp
  | none =>
    rw [value_bind_ok_iff]
    simp only [Except.ok.injEq, true_and, eq_comm]

theorem additionsFrom_eq {candidates : List SemanticConceptDefinition}
    (h : additionsFrom parent seenNew candidates = .ok additions) :
    additions = candidates.map (storedConcept parent) := by
  induction candidates generalizing seenNew additions with
  | nil =>
    cases h
    rfl
  | cons candidate candidates ih =>
    obtain ⟨-, rest, hrest, rfl⟩ := additionsFrom_cons_ok_iff.mp h
    rw [ih hrest, map_cons]

theorem additionsFrom_distinct {candidates : List SemanticConceptDefinition}
    (h : additionsFrom parent seenNew candidates = .ok additions)
    (htrimmed : ∀ candidate ∈ candidates, candidate.IsTrimmed) :
    (∀ candidate ∈ candidates, isConceptId candidate.conceptId = true ∧
        candidate.conceptId ∉ parent.concepts.map (·.conceptId) ∧
        candidate.conceptId ∉ seenNew) ∧
      (candidates.map (·.conceptId)).Nodup := by
  induction candidates generalizing seenNew additions with
  | nil => exact ⟨fun _ h => absurd h not_mem_nil, nodup_nil⟩
  | cons candidate candidates ih =>
    rw [forall_mem_cons] at htrimmed
    obtain ⟨hvalid, rest, hrest, -⟩ := additionsFrom_cons_ok_iff.mp h
    obtain ⟨hall, hnodup⟩ := ih hrest htrimmed.2
    have hfirst := validateCandidate_spec hvalid
    rw [show strip isSpace candidate.conceptId = candidate.conceptId from htrimmed.1] at hfirst
    rw [forall_mem_cons, map_cons, nodup_cons]
    refine ⟨⟨hfirst, fun other hother => ?_⟩, fun hmem => ?_, hnodup⟩
    · obtain ⟨hid, hnew, hseen⟩ := hall other hother
      exact ⟨hid, hnew, fun hmem => hseen (mem_cons_of_mem _ hmem)⟩
    · obtain ⟨other, hother, hsame⟩ := mem_map.mp hmem
      refine (hall other hother).2.2 ?_
      rw [hsame]
      exact mem_cons_self

section

variable {sha256 : VocabularyContent → String} {first last : TaskSemanticVocabulary}
  {requests : List TaskSemanticVocabularyRevisionRequest}

theorem revise_spec {parent revised : TaskSemanticVocabulary}
    {request : TaskSemanticVocabularyRevisionRequest}
    (h : revise sha256 parent request = .ok revised) :
    ∃ additions, additionsFrom parent [] request.conceptsToAdd = .ok additions ∧
      revised.concepts.Perm (parent.concepts ++ additions) ∧
      revised.revision = parent.revision + 1 := by
  rw [revise] at h
  split_ifs at h
  rw [value_bind_ok_iff] at h
  obtain ⟨additions, hadditions, h⟩ := h
  cases h
  exact ⟨additions, hadditions, perm_insertionSort _ _, rfl⟩

/-- The ids of a vocabulary are ids and distinct. -/
structure TaskSemanticVocabulary.WellFormed (vocabulary : TaskSemanticVocabulary) : Prop where
  ids : ∀ concept ∈ vocabulary.concepts, isConceptId concept.conceptId = true
  distinct : (vocabulary.concepts.map (·.conceptId)).Nodup

/-- A vocabulary after `n` revisions of another one. -/
structure TaskSemanticVocabulary.Extends (last first : TaskSemanticVocabulary) (n : ℕ) : Prop where
  wellFormed : last.WellFormed
  /-- Every concept is still there, unchanged. -/
  kept : ∀ concept ∈ first.concepts, concept ∈ last.concepts
  revision : last.revision = first.revision + n

theorem TaskSemanticVocabulary.WellFormed.revise {parent revised : TaskSemanticVocabulary}
    {request : TaskSemanticVocabularyRevisionRequest} (hparent : parent.WellFormed)
    (h : Semantics.revise sha256 parent request = .ok revised)
    (htrimmed : ∀ candidate ∈ request.conceptsToAdd, candidate.IsTrimmed) :
    revised.WellFormed := by
  obtain ⟨additions, hadditions, hperm, -⟩ := revise_spec h
  obtain ⟨hall, hnodup⟩ := additionsFrom_distinct hadditions htrimmed
  have hids : additions.map (·.conceptId) = request.conceptsToAdd.map (·.conceptId) := by
    rw [additionsFrom_eq hadditions, map_map]
    rfl
  constructor
  · intro concept hconcept
    rcases mem_append.mp (hperm.subset hconcept) with hold | hnew
    · exact hparent.ids concept hold
    · have hmem := mem_map_of_mem (f := (·.conceptId)) hnew
      rw [hids] at hmem
      obtain ⟨candidate, hcandidate, hsame⟩ := mem_map.mp hmem
      rw [← hsame]
      exact (hall candidate hcandidate).1
  · rw [(hperm.map _).nodup_iff, map_append, hids, nodup_append']
    refine ⟨hparent.distinct, hnodup, fun id hold hnew => ?_⟩
    obtain ⟨candidate, hcandidate, rfl⟩ := mem_map.mp hnew
    exact (hall candidate hcandidate).2.1 hold

namespace Revises

theorem revision (h : Revises sha256 first requests last) :
    last.revision = first.revision + requests.length := by
  induction h with
  | refl vocabulary => simp
  | step hrevise hrest ih =>
    obtain ⟨-, -, -, hrevision⟩ := revise_spec hrevise
    rw [ih, hrevision, length_cons]
    omega

theorem kept (h : Revises sha256 first requests last) {concept : SemanticConceptDefinition}
    (hconcept : concept ∈ first.concepts) : concept ∈ last.concepts := by
  induction h with
  | refl vocabulary => exact hconcept
  | step hrevise hrest ih =>
    obtain ⟨additions, -, hperm, -⟩ := revise_spec hrevise
    exact ih (hperm.symm.subset (mem_append_left _ hconcept))

theorem added (h : Revises sha256 first requests last)
    {request : TaskSemanticVocabularyRevisionRequest} (hrequest : request ∈ requests)
    {candidate : SemanticConceptDefinition} (hcandidate : candidate ∈ request.conceptsToAdd) :
    ∃ concept ∈ last.concepts, concept.conceptId = candidate.conceptId := by
  induction h with
  | refl vocabulary => cases hrequest
  | @step first _ _ _ _ hrevise hrest ih =>
    rcases mem_cons.mp hrequest with rfl | hrequest
    · obtain ⟨additions, hadditions, hperm, -⟩ := revise_spec hrevise
      refine ⟨storedConcept first candidate, hrest.kept (hperm.symm.subset ?_), rfl⟩
      rw [additionsFrom_eq hadditions]
      exact mem_append_right _ (mem_map_of_mem hcandidate)
    · exact ih hrequest

theorem wellFormed (h : Revises sha256 first requests last) (hfirst : first.WellFormed)
    (htrimmed : ∀ request ∈ requests, ∀ candidate ∈ request.conceptsToAdd,
      candidate.IsTrimmed) : last.WellFormed := by
  induction h with
  | refl vocabulary => exact hfirst
  | step hrevise hrest ih =>
    rw [forall_mem_cons] at htrimmed
    exact ih (hfirst.revise hrevise htrimmed.1) htrimmed.2

end Revises

/-- A chain of revisions of a well-formed vocabulary extends it exactly if every proposed
id is trimmed. -/
theorem revisions_extend_iff (hfirst : first.WellFormed)
    (h : Revises sha256 first requests last) :
    last.Extends first requests.length ↔
      ∀ request ∈ requests, ∀ candidate ∈ request.conceptsToAdd, candidate.IsTrimmed := by
  constructor
  · intro hextends request hrequest candidate hcandidate
    obtain ⟨concept, hconcept, hid⟩ := h.added hrequest hcandidate
    have hgrammar := hextends.wellFormed.ids concept hconcept
    rw [hid] at hgrammar
    exact strip_of_isConceptId hgrammar
  · intro htrimmed
    exact ⟨h.wellFormed hfirst htrimmed, fun _ => h.kept, h.revision⟩

end

def emptyVocabulary : TaskSemanticVocabulary where
  sourceSemanticsSha256 := "s"
  vocabularyId := "v"
  authoritySha256 := "a"

def addConcept (conceptId : String) : TaskSemanticVocabularyRevisionRequest where
  parentVocabularyId := "v"
  parentAuthoritySha256 := "a"
  reason := "needed"
  conceptsToAdd := [{ conceptId := conceptId, conceptType := .evidenceDomain, scope := .task }]

theorem emptyVocabulary_wellFormed : emptyVocabulary.WellFormed :=
  ⟨fun _ h => absurd h not_mem_nil, nodup_nil⟩

/-- One revision with a trimmed id. -/
theorem trimmed_id_extends :
    ∃ last, Revises (fun _ => "h") emptyVocabulary [addConcept "source_code"] last ∧
      (last.Extends emptyVocabulary 1 ↔ ∀ request ∈ [addConcept "source_code"],
        ∀ candidate ∈ request.conceptsToAdd, candidate.IsTrimmed) := by
  obtain ⟨last, hlast⟩ := exists_ok_of_toOption_isSome
    (show (revise (fun _ => "h") emptyVocabulary
      (addConcept "source_code")).toOption.isSome = true by decide +kernel)
  have hchain := Revises.step hlast (Revises.refl last)
  exact ⟨last, hchain, revisions_extend_iff emptyVocabulary_wellFormed hchain⟩

/-- The id ` alpha` is accepted and stored with its space. -/
theorem untrimmed_id_stored :
    ∃ last, Revises (fun _ => "h") emptyVocabulary [addConcept " alpha"] last ∧
      ¬last.Extends emptyVocabulary 1 := by
  have hids : (revise (fun _ => "h") emptyVocabulary (addConcept " alpha")).toOption.map
      (fun vocabulary => vocabulary.concepts.map (·.conceptId)) = some [" alpha"] := by
    decide +kernel
  cases hrevise : revise (fun _ => "h") emptyVocabulary (addConcept " alpha") with
  | error reason =>
    rw [hrevise] at hids
    cases hids
  | ok last =>
    rw [hrevise] at hids
    simp only [Except.toOption, Option.map_some, Option.some.injEq] at hids
    refine ⟨last, Revises.step hrevise (Revises.refl last), fun hextends => ?_⟩
    have hmem : " alpha" ∈ last.concepts.map (·.conceptId) := by
      rw [hids]
      exact mem_singleton_self _
    obtain ⟨concept, hconcept, hid⟩ := mem_map.mp hmem
    have hgrammar := hextends.wellFormed.ids concept hconcept
    rw [hid] at hgrammar
    exact absurd hgrammar (by decide)

end AIpinho.Semantics
