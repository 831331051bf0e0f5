import AIpinho.Lib.Json
import AIpinho.Lib.Runs
import AIpinho.Lib.Table
import Mathlib.Data.List.Infix

/-!
# Vector ingestion

A text is cut into chunks, the preview is approved, and `RAGIngestionExecutor` writes the chunks
to the index of a namespace. The executor looks up the preview and the approval by their
identifiers and asks only that the approval is approved, not that it is one of this preview.
-/

namespace AIpinho.Rag

open Lib

/-- `RAGChunk`, with the citation of its source. -/
structure RAGChunk where
  chunkId : String
  namespaceId : String
  text : String
  sourceType : String
  citation : Json
  deriving DecidableEq

/-- `VectorNamespace`, as far as an ingestion reads it. -/
structure VectorNamespace where
  namespaceId : String
  enabled : Bool
  path : String
  allowedSources : List String
  embeddingModel : String

structure RAGIngestionRequest where
  namespaceId : String
  sourceType : String
  text : String
  hasSourceRef : Bool
  citation : Option Json

/-- The status of a preview. -/
inductive PreviewStatus
  | ready | blocked
  deriving DecidableEq

structure RAGIngestionPreview where
  ingestionId : String
  status : PreviewStatus
  namespaceId : String
  chunks : List RAGChunk
  blockedReasons : List String

/-- The status of an approval. -/
inductive ApprovalStatus
  | pending | approved
  deriving DecidableEq

/-- The document of an approval. -/
structure IngestionApproval where
  previewId : String
  status : ApprovalStatus
  reason : String
  deriving DecidableEq

/-- The files of an index. -/
structure VectorIndex where
  /-- `chunks.json`. -/
  chunks : List RAGChunk
  /-- `embeddings.json`, with the vectors as they are printed. -/
  embeddings : Table String String
  /-- `citations.json`. -/
  citations : List Json

/-- `RAGIngestionResult` of an ingestion that was carried out. -/
structure RAGIngestionResult where
  ingestionId : String
  namespaceId : String
  approvalId : String
  chunksIndexed : ℕ
  embeddingsSaved : ℕ

/-- What is stored about ingestions. -/
structure RagStore where
  previews : Table String RAGIngestionPreview
  approvals : Table String IngestionApproval
  indexes : Table String VectorIndex
  results : Table String RAGIngestionResult

def RagStore.empty : RagStore where
  previews := ⟨[], List.nodup_nil⟩
  approvals := ⟨[], List.nodup_nil⟩
  indexes := ⟨[], List.nodup_nil⟩
  results := ⟨[], List.nodup_nil⟩

/-- The configuration, and what is asked of the file system and of texts. -/
structure RagServices where
  /-- `VectorIndexRegistry.get_namespace`. -/
  getNamespace : String → Option VectorNamespace
  projectPath : String → String
  /-- `VectorIndexRegistry.is_legacy_path`. -/
  isLegacyPath : String → Bool
  isBelowGovernedRoot : String → Bool
  maxChunkChars : ℕ
  /-- `str.strip`. -/
  strip : String → String
  /-- `str.lower`. -/
  lower : String → String
  /-- Whether one of the sensitive patterns occurs in a text. -/
  isSensitive : String → Bool

section

variable (services : RagServices)

def occursIn (part text : String) : Bool := decide (part.toList <:+: text.toList)

/-- `RAGSensitivityGate.check`: the reasons against a text. -/
def sensitivityReasons (text sourceType : String) : List String :=
  let lowered := services.lower text
  (if ["raw_log", "raw_logs"].contains sourceType || occursIn "raw log" lowered ||
      occursIn "raw_log" lowered then ["raw_log_ingestion_blocked"] else []) ++
    if services.isSensitive text then ["secret_or_sensitive_content_blocked"] else []

/-- `RAGChunkValidator.validate`. Source and citation are objects, which count as true. -/
def chunkReasons (chunk : RAGChunk) : List String :=
  (if services.strip chunk.text = "" then ["empty_chunk"] else []) ++
    (if 5000 < chunk.text.length then ["chunk_too_large"] else []) ++
      sensitivityReasons services chunk.text chunk.sourceType

/-- `RAGChunkValidator.validate_many`. -/
def validateMany (chunks : List RAGChunk) : List String :=
  (chunks.flatMap (chunkReasons services)).eraseDups

/-- `VectorNamespacePolicyService.validate`: the reasons against a source. -/
def namespaceReasons (target : Option VectorNamespace) (sourceType : String) : List String :=
  match target with
  | none => ["unknown_namespace"]
  | some target =>
    (if target.enabled then [] else ["namespace_disabled"]) ++
      (if services.isLegacyPath target.path then ["legacy_vectorstore_blocked"] else []) ++
      (if services.isBelowGovernedRoot (services.projectPath target.path) then []
        else ["path_outside_governed_vectorstore"]) ++
      if sourceType ≠ "" ∧ sourceType ∉ target.allowedSources then
        ["source_not_allowed_for_namespace"] else []

/-- The slices of `CitationPreservingChunker.chunk`. -/
def slices (width : ℕ) (text : String) : List String :=
  (text.toList.toChunks width).map String.ofList

/-- `CitationPreservingChunker.chunk`, with the identifiers that the chunks get. -/
def chunkText (chunkIds : ℕ → String) (request : RAGIngestionRequest) :
    List RAGChunk × List String :=
  match request.hasSourceRef, request.citation with
  | true, some citation =>
    let text := services.strip request.text
    if text = "" then ([], ["empty_source_text"])
    else
      ((slices services.maxChunkChars text).mapIdx fun i part =>
        ⟨chunkIds i, request.namespaceId, part, request.sourceType, citation⟩, [])
  | _, _ => ([], ["missing_source_ref_or_citation"])

/-- `RAGIngestionPreviewService.preview`, with the identifiers that it creates. -/
def preview (ingestionId : String) (chunkIds : ℕ → String) (request : RAGIngestionRequest) :
    RAGIngestionPreview :=
  let chunked := chunkText services chunkIds request
  let blocked := (namespaceReasons services (services.getNamespace request.namespaceId)
      request.sourceType ++ sensitivityReasons services request.text request.sourceType ++
    chunked.2 ++ validateMany services chunked.1).eraseDups
  let status := if blocked = [] ∧ chunked.1 ≠ [] then PreviewStatus.ready else .blocked
  { ingestionId := ingestionId
    status := status
    namespaceId := request.namespaceId
    chunks := if status = .ready then chunked.1 else []
    blockedReasons := blocked }

end

/-- `RAGIngestionApprovalService.create_approval`, with the identifier it creates. -/
def createApproval (store : RagStore) (previewId approvalId reason : String) :
    Except String IngestionApproval × RagStore :=
  match store.previews.get? previewId with
  | none => (.error "preview_not_found", store)
  | some preview =>
    if preview.status ≠ .ready then (.error "preview_not_ready", store)
    else
      let approval : IngestionApproval := ⟨previewId, .pending, reason⟩
      (.ok approval, { store with approvals := store.approvals.insert approvalId approval })

/-- `RAGIngestionApprovalService.approve`. -/
def approve (store : RagStore) (approvalId : String) : Except String IngestionApproval × RagStore :=
  match store.approvals.get? approvalId with
  | none => (.error "approval_not_found", store)
  | some approval =>
    if approval.status ≠ .pending then (.error "approval_not_pending", store)
    else
      let approval := { approval with status := .approved }
      (.ok approval, { store with approvals := store.approvals.insert approvalId approval })

/-- The entries of a dictionary in the order of its keys, a later value in the place of an
earlier one. -/
def mergeChunks (chunks : List RAGChunk) : List RAGChunk :=
  let merged := chunks.foldl (fun (table : Table String RAGChunk) chunk =>
    table.insert chunk.chunkId chunk) ⟨[], List.nodup_nil⟩
  merged.entries.map Prod.snd

variable (services : RagServices)

/-- `VectorNamespacePolicyService.ensure_governed_path`. -/
def ensureGovernedPath (path : String) : Bool :=
  services.isBelowGovernedRoot path && !services.isLegacyPath path

/-- `VectorIndexStore.save_chunks`, on the index of a directory. -/
def VectorIndex.saveChunks (index : VectorIndex) (chunks : List RAGChunk)
    (embeddings : List (String × String)) : VectorIndex :=
  let merged := mergeChunks (index.chunks ++ chunks)
  { chunks := merged
    embeddings := embeddings.foldl (fun table entry => table.insert entry.1 entry.2)
      index.embeddings
    citations := merged.map RAGChunk.citation }

/-- The index of a directory, empty if it is new. -/
def RagStore.indexOf (store : RagStore) (path : String) : VectorIndex :=
  (store.indexes.get? path).getD ⟨[], ⟨[], List.nodup_nil⟩, []⟩

/-- How an execution ends. -/
inductive Execution
  | blocked (ingestionId namespaceId approvalId : String) (reasons : List String)
  /-- The chunks were written. -/
  | indexed (result : RAGIngestionResult)
  /-- An exception. -/
  | raised (e : String)

/-- `RAGIngestionExecutor._blocked`. -/
def Execution.block (ingestionId namespaceId approvalId : String) (reasons : List String) :
    Execution :=
  .blocked ingestionId namespaceId approvalId reasons.eraseDups

/-- What the embedder answers for some chunks: a vector for each of them, or the reasons
against them. -/
abbrev Embedder : Type := String → List RAGChunk → Except (List String) (List (String × String))

/-- `RAGIngestionExecutor.execute`. -/
def execute (store : RagStore) (previewId approvalId : String) (embed : Embedder) :
    Execution × RagStore :=
  match store.previews.get? previewId with
  | none => (.block "unknown" "unknown" approvalId ["preview_not_found"], store)
  | some preview =>
    let block := Execution.block preview.ingestionId preview.namespaceId approvalId
    if (store.approvals.get? approvalId).map IngestionApproval.status ≠ some .approved then
      (block ["approved_approval_required"], store)
    else
      match services.getNamespace preview.namespaceId with
      | none => (block ["unknown_namespace"], store)
      | some target =>
        if validateMany services preview.chunks ≠ [] then
          (block (validateMany services preview.chunks), store)
        else
          match embed target.embeddingModel preview.chunks with
          | .error reasons => (block reasons, store)
          | .ok embeddings =>
            let path := services.projectPath target.path
            if ensureGovernedPath services path = false then
              (.raised "vectorstore_path_not_governed", store)
            else
              let result : RAGIngestionResult :=
                ⟨preview.ingestionId, target.namespaceId, approvalId, preview.chunks.length,
                  embeddings.length⟩
              (.indexed result, { store with
                indexes := store.indexes.insert path
                  ((store.indexOf path).saveChunks preview.chunks embeddings)
                results := store.results.insert preview.ingestionId result })

/-- A call, with the identifiers that it creates and the answers of the embedder. -/
inductive Call
  | preview (previewId ingestionId : String) (chunkIds : ℕ → String) (request : RAGIngestionRequest)
  | createApproval (previewId approvalId reason : String)
  | approve (approvalId : String)
  | execute (previewId approvalId : String) (embed : Embedder)

def step (store : RagStore) : Call → RagStore
  | .preview previewId ingestionId chunkIds request =>
    { store with
      previews := store.previews.insert previewId
        (preview services ingestionId chunkIds request) }
  | .createApproval previewId approvalId reason =>
    (createApproval store previewId approvalId reason).2
  | .approve approvalId => (approve store approvalId).2
  | .execute previewId approvalId embed => (execute services store previewId approvalId embed).2

variable (calls : List Call)

def after : RagStore :=
  run (step services) RagStore.empty calls

def CreatedFor (previewId approvalId : String) : Prop :=
  ∃ before reason later, calls = before ++ .createApproval previewId approvalId reason :: later ∧
    ∃ approval, (createApproval (after services before) previewId approvalId reason).1 =
      .ok approval

def OwnApproval (previewId : String) : Prop :=
  ∃ approvalId approval, CreatedFor services calls previewId approvalId ∧
    (after services calls).approvals.get? approvalId = some approval ∧
      approval.previewId = previewId ∧ approval.status = .approved

def Writes (store : RagStore) (previewId approvalId : String) (embed : Embedder) : Prop :=
  (∃ result, (execute services store previewId approvalId embed).1 = .indexed result) ∨
    (execute services store previewId approvalId embed).2.indexes ≠ store.indexes

/-- Every ingestion that writes has an approval of its own preview. -/
def Governed : Prop :=
  ∀ before previewId approvalId embed later,
    calls = before ++ .execute previewId approvalId embed :: later →
    Writes services (after services before) previewId approvalId embed →
      OwnApproval services before previewId

/-- An approved approval is executed on its own preview. -/
def Matched (store : RagStore) : Call → Prop
  | .execute previewId approvalId _ =>
    ∀ approval, store.approvals.get? approvalId = some approval → approval.status = .approved →
      approval.previewId = previewId
  | _ => True

section

variable {services : RagServices} {store : RagStore}

theorem approved_of_writes {previewId approvalId : String} {embed : Embedder}
    (h : Writes services store previewId approvalId embed) :
    ∃ approval, store.approvals.get? approvalId = some approval ∧ approval.status = .approved := by
  by_contra hnone
  have hstatus : (store.approvals.get? approvalId).map IngestionApproval.status ≠
      some .approved := by
    intro hsome
    obtain ⟨approval, hget, happroved⟩ := Option.map_eq_some_iff.mp hsome
    exact hnone ⟨approval, hget, happroved⟩
  -- Without one the executor stops at the preview or at the approval.
  have hblocked : (∀ result, (execute services store previewId approvalId embed).1 ≠
      .indexed result) ∧ (execute services store previewId approvalId embed).2 = store := by
    rw [execute]
    cases store.previews.get? previewId with
    | none => exact ⟨by simp [Execution.block], rfl⟩
    | some preview =>
      simp only [if_pos hstatus]
      exact ⟨by simp [Execution.block], trivial⟩
  rcases h with ⟨result, hresult⟩ | hindexes
  · exact hblocked.1 result hresult
  · exact hindexes (congrArg RagStore.indexes hblocked.2)

/-- An approval was there before, or was created for its preview. -/
theorem approvals_step {call : Call} {approvalId : String} {approval : IngestionApproval}
    (h : (step services store call).approvals.get? approvalId = some approval) :
    (∃ old, store.approvals.get? approvalId = some old ∧ old.previewId = approval.previewId) ∨
    ∃ reason, call = .createApproval approval.previewId approvalId reason ∧
      ∃ created, (createApproval store approval.previewId approvalId reason).1 = .ok created := by
  cases call with
  | preview previewId ingestionId chunkIds request => exact Or.inl ⟨approval, h, rfl⟩
  | createApproval previewId newId reason =>
    simp only [step] at h
    cases hpreview : store.previews.get? previewId with
    | none =>
      rw [createApproval, hpreview] at h
      exact Or.inl ⟨approval, h, rfl⟩
    | some preview =>
      by_cases hready : preview.status ≠ .ready
      · simp only [createApproval, hpreview, if_pos hready] at h
        exact Or.inl ⟨approval, h, rfl⟩
      · simp only [createApproval, hpreview, if_neg hready] at h
        by_cases hid : approvalId = newId
        · subst hid
          rw [Table.get?_insert_self, Option.some.injEq] at h
          subst h
          refine Or.inr ⟨reason, rfl, ⟨previewId, .pending, reason⟩, ?_⟩
          simp only [createApproval, hpreview, if_neg hready]
        · rw [Table.get?_insert_of_ne hid] at h
          exact Or.inl ⟨approval, h, rfl⟩
  | approve decidedId =>
    refine Or.inl ?_
    simp only [step] at h
    cases hold : store.approvals.get? decidedId with
    | none =>
      rw [approve, hold] at h
      exact ⟨approval, h, rfl⟩
    | some old =>
      by_cases hpending : old.status ≠ .pending
      · simp only [approve, hold, if_pos hpending] at h
        exact ⟨approval, h, rfl⟩
      · simp only [approve, hold, if_neg hpending] at h
        by_cases hid : approvalId = decidedId
        · subst hid
          rw [Table.get?_insert_self, Option.some.injEq] at h
          subst h
          exact ⟨old, hold, rfl⟩
        · rw [Table.get?_insert_of_ne hid] at h
          exact ⟨approval, h, rfl⟩
  | execute previewId givenId embed =>
    refine Or.inl ⟨approval, ?_, rfl⟩
    have hsame : (execute services store previewId givenId embed).2.approvals =
        store.approvals := by
      simp only [execute]
      repeat' split
      all_goals rfl
    rw [← hsame]
    exact h

theorem CreatedFor.append {calls : List Call} {previewId approvalId : String}
    (h : CreatedFor services calls previewId approvalId) (more : List Call) :
    CreatedFor services (calls ++ more) previewId approvalId := by
  obtain ⟨before, reason, later, rfl, hcreated⟩ := h
  exact ⟨before, reason, later ++ more, by simp, hcreated⟩

variable (services) in
theorem createdFor_of_stored (calls : List Call) {approvalId : String}
    {approval : IngestionApproval}
    (h : (after services calls).approvals.get? approvalId = some approval) :
    CreatedFor services calls approval.previewId approvalId := by
  induction calls using List.reverseRecOn generalizing approval with
  | nil => cases h
  | append_singleton calls call ih =>
    rw [after, run_append] at h
    rcases approvals_step h with ⟨old, hold, hsame⟩ | ⟨reason, rfl, hcreated⟩
    · rw [← hsame]
      exact (ih hold).append [call]
    · exact ⟨calls, reason, [], rfl, hcreated⟩

end

/-- In every run in which the executor is not given an approved approval of another preview,
whatever is written is written under an approval that was created for its own preview and is
approved. -/
theorem ingestion_governed_of_matched (services : RagServices) {calls : List Call}
    (h : Along (step services) Matched RagStore.empty calls) : Governed services calls := by
  rintro before previewId approvalId embed later rfl hwrites
  obtain ⟨approval, hget, happroved⟩ := approved_of_writes hwrites
  have hpreview : approval.previewId = previewId := h.of_append approval hget happroved
  have hcreated := createdFor_of_stored services before hget
  rw [hpreview] at hcreated
  exact ⟨approvalId, approval, hcreated, hget, hpreview, happroved⟩

def notesOnly : RagServices where
  getNamespace namespaceId :=
    if namespaceId = "notes" then some ⟨"notes", true, "governed/notes", ["note"], "model"⟩
    else none
  projectPath := id
  isLegacyPath _ := false
  isBelowGovernedRoot _ := true
  maxChunkChars := 900
  strip := id
  lower := id
  isSensitive _ := false

def note (text : String) : RAGIngestionRequest := ⟨"notes", "note", text, true, some (.str text)⟩

def constantEmbedder : Embedder := fun _ chunks =>
  .ok (chunks.map fun chunk => (chunk.chunkId, "[0.0]"))

def firstNoteApproved : List Call :=
  [.preview "preview_1" "ingestion_1" (fun _ => "chunk_1") (note "harmless"),
    .createApproval "preview_1" "approval_1" "reviewed",
    .approve "approval_1"]

/-- The approved note is written under its own approval. -/
theorem first_note_governed :
    Writes notesOnly (after notesOnly firstNoteApproved) "preview_1" "approval_1"
      constantEmbedder ∧
    OwnApproval notesOnly firstNoteApproved "preview_1" := by
  have hwrites : Writes notesOnly (after notesOnly firstNoteApproved) "preview_1" "approval_1"
      constantEmbedder := Or.inl ⟨_, rfl⟩
  have hmatched : Along (step notesOnly) Matched RagStore.empty
      (firstNoteApproved ++ [.execute "preview_1" "approval_1" constantEmbedder]) := by
    refine ⟨trivial, trivial, trivial, ?_, trivial⟩
    intro approval hget _
    obtain rfl := Option.some.inj hget
    rfl
  exact ⟨hwrites, ingestion_governed_of_matched notesOnly hmatched firstNoteApproved _ _ _ [] rfl
    hwrites⟩

/-- A second note is previewed and never approved; given with the approval of the first one it
is written. -/
theorem second_note_written_without_approval : Writes notesOnly
      (after notesOnly (firstNoteApproved ++
        [.preview "preview_2" "ingestion_2" (fun _ => "chunk_2") (note "unseen")]))
      "preview_2" "approval_1" constantEmbedder ∧
    ¬Governed notesOnly (firstNoteApproved ++
      [.preview "preview_2" "ingestion_2" (fun _ => "chunk_2") (note "unseen"),
        .execute "preview_2" "approval_1" constantEmbedder]) := by
  have hwrites : Writes notesOnly
      (after notesOnly (firstNoteApproved ++
        [.preview "preview_2" "ingestion_2" (fun _ => "chunk_2") (note "unseen")]))
      "preview_2" "approval_1" constantEmbedder := Or.inl ⟨_, rfl⟩
  refine ⟨hwrites, fun hgoverned => ?_⟩
  obtain ⟨approvalId, approval, -, hget, hpreview, -⟩ :=
    hgoverned (firstNoteApproved ++ [.preview "preview_2" "ingestion_2" (fun _ => "chunk_2")
      (note "unseen")]) _ _ _ [] rfl hwrites
  -- The only approval names the first preview.
  by_cases hid : approvalId = "approval_1"
  · subst hid
    obtain rfl := Option.some.inj hget
    exact absurd hpreview (by decide)
  · have hnone : ([("approval_1", ⟨"preview_1", .approved, "reviewed"⟩)] :
        List (String × IngestionApproval)).lookup approvalId = none := by
      rw [Table.lookup_eq_none_iff_notMem]
      simpa using hid
    have hsome : ([("approval_1", ⟨"preview_1", .approved, "reviewed"⟩)] :
        List (String × IngestionApproval)).lookup approvalId = some approval := hget
    rw [hnone] at hsome
    cases hsome

end AIpinho.Rag
