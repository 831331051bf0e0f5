import AIpinho.Lib.Listing
import AIpinho.Lib.Table
import AIpinho.Lib.Windows
import AIpinho.Runtime.Store
import AIpinho.Runtime.TidyDocuments

/-!
# Listing the runs by their indexes

Every method that writes the document of a run writes its index after it, so the two agree
whatever was called. A listing takes the newest runs whose indexes match, and reads their
documents only then: a document that cannot be read is skipped after it has taken the place of
an older run.
-/

namespace AIpinho.Runtime

open List Lib

/-- `run_index.json`, as far as listings read it. -/
structure RunIndex where
  runId : String
  status : TaskRunStatus
  sessionId : Option String
  missionId : Option String
  draftId : Option String
  contractType : String
  createdAt : String

namespace TaskRun

/-- `run.mission_binding`; without one there are no members. -/
def missionBinding (run : TaskRun) : List (String × Json) :=
  match run.evidence.lookup "mission_binding" with
  | some (.obj binding) => binding
  | _ => []

/-- The binding of a run to its mission is no reference to a payload: the schema of a
binding knows no other members than its own. -/
def IsBound (run : TaskRun) : Prop := isSpilledPayloadRef run.missionBinding = false

/-- `_run_index_payload`, and what `_write_run_index` collects. -/
def indexPayload (run : TaskRun) : RunIndex where
  runId := run.runId
  status := run.status
  sessionId := textField? run.evidence "session_id"
  missionId := textField? run.missionBinding "mission_id"
  draftId := textField? run.evidence "draft_id"
  contractType := run.contractType
  createdAt := run.createdAt

end TaskRun

/-- A run with a binding that passes the schema. -/
structure BoundRun where
  run : TaskRun
  bound : run.IsBound

/-- An index as `_write` saves it. The identifier of a run holds nothing to redact. -/
def RunIndex.sanitized (index : RunIndex) : RunIndex :=
  { index with
    sessionId := index.sessionId.map sanitizeText
    missionId := index.missionId.map sanitizeText
    draftId := index.draftId.map sanitizeText
    contractType := sanitizeText index.contractType
    createdAt := sanitizeText index.createdAt }

/-- `run.json` and `run_index.json`. -/
structure IndexedRun where
  run : TaskRun
  index : RunIndex

abbrev IndexedRuns := Table String IndexedRun

namespace IndexedRuns

variable (codec : Codec)

/-- `TaskRunStore.update_run`. -/
def updateRun (run : TaskRun) (runs : IndexedRuns) : IndexedRuns :=
  runs.insert run.runId ⟨run.stored codec, run.indexPayload.sanitized⟩

/-- `create_run`, which raises for a run that is there, readable or not. -/
def createRun (run : TaskRun) (runs : IndexedRuns) : IndexedRuns :=
  if (runs.get? run.runId).isSome then runs else runs.updateRun codec run

/-- `_write_run_index_from_data`: the index of a document that was read. -/
def indexFromData (runId : String) (data : TaskRun) : RunIndex :=
  { data.indexPayload with runId := runId }.sanitized

/-- `save_result`. The result itself goes to a file that listings do not read. -/
def saveResult (now runId : String) (result : TaskRunResult) (runs : IndexedRuns) : IndexedRuns :=
  match runs.get? runId with
  | none => runs
  | some files =>
    if files.run.isCoherent result.status then runs
    else
      let data := files.run.cohered now result.status
      runs.insert runId ⟨data.stored codec, indexFromData runId data⟩

/-- `compact_run_storage`. -/
def compactRunStorage (runId : String) (runs : IndexedRuns) : IndexedRuns :=
  match runs.get? runId with
  | none => runs
  | some files =>
    let saved := files.run.stored codec
    runs.insert runId ⟨saved, indexFromData runId saved⟩

end IndexedRuns

/-- A call of the store that writes documents of runs. -/
inductive StoreCall
  | createRun (run : BoundRun)
  | updateRun (run : BoundRun)
  | saveResult (now runId : String) (result : TaskRunResult)
  | compactRunStorage (runId : String)

def StoreCall.apply (codec : Codec) (runs : IndexedRuns) : StoreCall → IndexedRuns
  | .createRun run => runs.createRun codec run.run
  | .updateRun run => runs.updateRun codec run.run
  | .saveResult now runId result => runs.saveResult codec now runId result
  | .compactRunStorage runId => runs.compactRunStorage codec runId

def runsAfter (codec : Codec) (calls : List StoreCall) : IndexedRuns :=
  calls.foldl (StoreCall.apply codec) ⟨[], List.nodup_nil⟩

/-- The filters of `list_runs`. -/
structure RunFilter where
  status : Option String := none
  sessionId : Option String := none
  missionId : Option String := none
  draftId : Option String := none
  contractType : Option String := none
  createdAfter : Option String := none

def passesFilter (wanted value : Option String) : Bool :=
  wanted.getD "" == "" || value == wanted

def RunFilter.runIndexMatches (filter : RunFilter) (index : RunIndex) : Bool :=
  passesFilter filter.status (some index.status.text) &&
    passesFilter filter.sessionId index.sessionId &&
    passesFilter filter.missionId index.missionId &&
    passesFilter filter.draftId index.draftId &&
    passesFilter filter.contractType (some index.contractType) &&
    (filter.createdAfter.getD "" == "" || decide (filter.createdAfter.getD "" ≤ index.createdAt))

/-- A run that `list_runs` may return. It has been read only if its index is not current. -/
structure ListCandidate where
  createdAt : String
  runId : String
  projectedRun : Option TaskRun

section

-- whether the schema accepts the members of a document that the model leaves as they are,
-- and whether the index of a directory is there and not older than the document
variable (accepts : List (String × Json) → Bool) (current : String → Bool)

/-- What `get_run_lightweight` makes of a document, if it passes the schema. -/
def readLightweight (run : TaskRun) : Option TaskRun :=
  if run.projected.isValid && accepts run.projected.evidence then some run.projected else none

def isReadable (run : TaskRun) : Bool := (readLightweight accepts run).isSome

namespace IndexedRuns

/-- `get_run_lightweight`. -/
def getRunLightweight (runs : IndexedRuns) (runId : String) : Option TaskRun :=
  (runs.get? runId).bind fun files => readLightweight accepts files.run

variable (filter : RunFilter)

/-- What `list_runs` finds in a directory. -/
def candidateOf (runs : IndexedRuns) (name : String) : Option ListCandidate :=
  (runs.get? name).bind fun files =>
    if current name then
      if filter.runIndexMatches files.index then
        some ⟨files.index.createdAt, if files.index.runId = "" then name else files.index.runId,
          none⟩
      else none
    else
      (readLightweight accepts files.run).bind fun run =>
        if filter.runIndexMatches run.indexPayload then some ⟨run.createdAt, run.runId, some run⟩
        else none

/-- `list_runs`, with the directories in the order in which they are found. -/
def listRuns (limit : ℕ) (directory : List String) (runs : IndexedRuns) : List TaskRun :=
  let effectiveLimit := max 1 (min limit 1000)
  let candidates := (directory.filterMap (runs.candidateOf accepts current filter)).insertionSort
    fun a b => b.createdAt ≤ a.createdAt
  let shown := (candidates.take effectiveLimit).filterMap fun candidate =>
    candidate.projectedRun.or (runs.getRunLightweight accepts candidate.runId)
  (shown.insertionSort fun a b => b.createdAt ≤ a.createdAt).take effectiveLimit

/-- The documents of the store, the newest first. -/
def records (runs : IndexedRuns) : List TaskRun :=
  (runs.entries.map (·.2.run)).insertionSort fun a b => b.createdAt ≤ a.createdAt

def newestMatching (limit : ℕ) (runs : IndexedRuns) : List TaskRun :=
  (runs.records.filter fun run =>
    isReadable accepts run && filter.runIndexMatches run.indexPayload).take limit

def found (runs : IndexedRuns) : List TaskRun :=
  runs.records.filter fun run =>
    (current run.runId || isReadable accepts run) && filter.runIndexMatches run.indexPayload

/-- A document that cannot be read takes a place before an older one that can. -/
def CrowdsOut (limit : ℕ) (runs : IndexedRuns) : Prop :=
  (∃ run ∈ (runs.found accepts current filter).take limit, isReadable accepts run = false) ∧
    ∃ run ∈ (runs.found accepts current filter).drop limit, isReadable accepts run = true

end IndexedRuns

end

section

variable {codec : Codec} {run : TaskRun} {runs : IndexedRuns} {runId : String}

theorem RunIndex.sanitized_sanitized (index : RunIndex) :
    index.sanitized.sanitized = index.sanitized := by
  have hidem : ∀ text? : Option String,
      (text?.map sanitizeText).map sanitizeText = text?.map sanitizeText := by
    intro text?
    cases text? with
    | none => rfl
    | some text => rw [Option.map_some, Option.map_some, sanitizeText_sanitizeText]
  simp only [RunIndex.sanitized, hidem, sanitizeText_sanitizeText]

namespace TaskRun

theorem missionBinding_stored (codec : Codec) (run : TaskRun) : (run.stored codec).missionBinding =
      lightenFields codec run.runId "mission_binding" (sanitizeFields run.missionBinding) := by
  have hlookup : (run.stored codec).evidence.lookup "mission_binding" =
      (run.evidence.lookup "mission_binding").map fun v =>
        lightenForInline codec run.runId "mission_binding" "mission_binding" (sanitizeValue v) := by
    rw [stored, lightenFields_eq_map,
      lookup_map_snd (fun key v => lightenForInline codec run.runId key (memberPath "" key) v),
      sanitizeFields_eq_map, lookup_map_snd (fun key v => sanitize key v), Option.map_map]
    rfl
  unfold missionBinding
  rw [hlookup]
  cases run.evidence.lookup "mission_binding" with
  | none => rfl
  | some v =>
    cases v with
    | obj binding =>
      have hspill : spills "mission_binding" (.obj (sanitizeFields binding)) = false := rfl
      rw [Option.map_some, sanitizeValue, lightenForInline, hspill]
      rfl
    | list items =>
      have hspill : spills "mission_binding" (.list (sanitizeItems items)) = false := rfl
      rw [Option.map_some, sanitizeValue, lightenForInline, hspill]
      rfl
    | _ => rfl

theorem IsBound.stored (h : run.IsBound) (codec : Codec) : (run.stored codec).IsBound := by
  rw [IsBound, missionBinding_stored, isSpilledPayloadRef_lightenFields,
    isSpilledPayloadRef_sanitizeFields]
  exact h

theorem indexPayload_stored (codec : Codec) (run : TaskRun) :
    (run.stored codec).indexPayload = run.indexPayload.sanitized := by
  have htext : ∀ name, isSensitiveKey name = false → ∀ path fields,
      textField? (lightenFields codec run.runId path (sanitizeFields fields)) name =
        (textField? fields name).map sanitizeText := by
    intro name hname path fields
    rw [textField?_lightenFields, textField?_sanitizeFields hname]
  unfold indexPayload
  rw [missionBinding_stored, htext _ (by decide)]
  simp only [stored, htext _ (by decide : isSensitiveKey "session_id" = false),
    htext _ (by decide : isSensitiveKey "draft_id" = false)]
  rfl

theorem indexPayload_projected (h : run.IsBound) :
    run.projected.indexPayload = run.indexPayload := by
  have htext : ∀ name fields, textField? (projectFields fields) name = textField? fields name := by
    intro name fields
    rw [projectFields_eq_map]
    exact textField?_map (fun _ v => projectPayloadRefsForModel v)
      (fun _ v => text?_projectPayloadRefsForModel v) fields name
  have hbinding : run.projected.missionBinding = projectFields run.missionBinding := by
    unfold IsBound at h
    unfold missionBinding at h ⊢
    rw [projected, projectFields_eq_map, lookup_map_snd (fun _ v => projectPayloadRefsForModel v)]
    cases hlookup : run.evidence.lookup "mission_binding" with
    | none => rfl
    | some v =>
      rw [hlookup] at h
      cases v with
      | obj binding =>
        dsimp only at h
        rw [Option.map_some, projectPayloadRefsForModel, h, if_neg Bool.false_ne_true]
      | _ => rfl
  unfold indexPayload
  rw [hbinding, htext]
  simp only [projected, htext]

end TaskRun

namespace IndexedRuns

/-- The documents lie in the directories of their runs, and the indexes agree with them. -/
def Indexed (runs : IndexedRuns) : Prop :=
  ∀ runId files, runs.get? runId = some files →
    files.run.runId = runId ∧ files.run.IsBound ∧ files.index = files.run.indexPayload

theorem Indexed.insert (h : Indexed runs) {data : TaskRun} {index : RunIndex}
    (hrun : data.runId = runId) (hbound : data.IsBound) (hindex : index = data.indexPayload) :
    Indexed (runs.insert runId ⟨data, index⟩) := by
  intro key files hfiles
  by_cases hkey : key = runId
  · subst hkey
    rw [Table.get?_insert_self] at hfiles
    cases hfiles
    exact ⟨hrun, hbound, hindex⟩
  · rw [Table.get?_insert_of_ne hkey] at hfiles
    exact h key files hfiles

theorem indexFromData_eq {data : TaskRun} (hrun : data.runId = runId) :
    indexFromData runId data = (data.stored codec).indexPayload := by
  subst hrun
  rw [TaskRun.indexPayload_stored]
  rfl

theorem Indexed.updateRun (h : Indexed runs) (hbound : run.IsBound) :
    Indexed (runs.updateRun codec run) :=
  h.insert rfl (hbound.stored codec) (TaskRun.indexPayload_stored codec run).symm

theorem Indexed.saveResult (h : Indexed runs) (now : String) (result : TaskRunResult) :
    Indexed (runs.saveResult codec now runId result) := by
  unfold IndexedRuns.saveResult
  split
  · exact h
  · rename_i files hfiles
    obtain ⟨hrun, hbound, -⟩ := h runId files hfiles
    split
    · exact h
    · have hdata : (files.run.cohered now result.status).IsBound := hbound
      exact h.insert hrun (hdata.stored codec) (indexFromData_eq hrun)

/-- A document that is compacted is sanitized again, which leaves the index as it is. -/
theorem Indexed.compactRunStorage (h : Indexed runs) :
    Indexed (runs.compactRunStorage codec runId) := by
  unfold IndexedRuns.compactRunStorage
  split
  · exact h
  · rename_i files hfiles
    obtain ⟨hrun, hbound, -⟩ := h runId files hfiles
    refine h.insert hrun (hbound.stored codec) ?_
    have hsaved : (files.run.stored codec).runId = runId := hrun
    have hindex : indexFromData runId (files.run.stored codec) =
        ((files.run.stored codec).stored codec).indexPayload := indexFromData_eq hsaved
    rw [hindex, TaskRun.indexPayload_stored, TaskRun.indexPayload_stored,
      RunIndex.sanitized_sanitized]

theorem Indexed.apply (h : Indexed runs) (call : StoreCall) : Indexed (call.apply codec runs) := by
  cases call with
  | createRun run =>
    change Indexed (runs.createRun codec run.run)
    unfold createRun
    split
    · exact h
    · exact h.updateRun run.bound
  | updateRun run => exact h.updateRun run.bound
  | saveResult now runId result => exact h.saveResult now result
  | compactRunStorage runId => exact h.compactRunStorage

theorem indexed_runsAfter (codec : Codec) (calls : List StoreCall) :
    Indexed (runsAfter codec calls) := by
  have hall : ∀ runs : IndexedRuns, Indexed runs →
      Indexed (calls.foldl (StoreCall.apply codec) runs) := by
    induction calls with
    | nil => exact fun runs h => h
    | cons call calls ih => exact fun runs h => ih _ (h.apply call)
  refine hall _ ?_
  intro runId files hfiles
  cases hfiles

end IndexedRuns

end

section

variable {accepts : List (String × Json) → Bool} {current : String → Bool} {filter : RunFilter}
  {limit : ℕ} {directory : List String} {runs : IndexedRuns}

namespace IndexedRuns

/-- What a listing makes of a document that it finds. -/
def candidateFor (accepts : List (String × Json) → Bool) (current : String → Bool)
    (filter : RunFilter) (run : TaskRun) : Option ListCandidate :=
  if (current run.runId || isReadable accepts run) && filter.runIndexMatches run.indexPayload then
    some ⟨run.createdAt, run.runId, if current run.runId then none else some run.projected⟩
  else none

theorem candidateOf_eq (h : runs.Indexed) (name : String) :
    runs.candidateOf accepts current filter name =
      ((runs.get? name).map (·.run)).bind (candidateFor accepts current filter) := by
  unfold candidateOf
  cases hfiles : runs.get? name with
  | none => rfl
  | some files =>
    obtain ⟨rfl, hbound, hindex⟩ := h name files hfiles
    rw [Option.bind_some, Option.map_some, Option.bind_some, candidateFor, hindex]
    split
    · rename_i hcurrent
      have hid : (if files.run.indexPayload.runId = "" then files.run.runId
          else files.run.indexPayload.runId) = files.run.runId := ite_self _
      rw [hcurrent, Bool.true_or, Bool.true_and, hid]
      rfl
    · rename_i hcurrent
      rw [Bool.eq_false_of_not_eq_true hcurrent, Bool.false_or, isReadable, readLightweight]
      split
      · rw [Option.bind_some, TaskRun.indexPayload_projected hbound]
        simp [TaskRun.projected]
      · rfl

theorem perm_filterMap_directory (hdirectory : directory.Perm (runs.entries.map Prod.fst)) :
    (directory.filterMap fun name => (runs.get? name).map (·.run)).Perm
      (runs.entries.map (·.2.run)) := by
  have hentries : (runs.entries.map Prod.fst).filterMap
      (fun name => (runs.get? name).map (·.run)) = runs.entries.map (·.2.run) := by
    rw [filterMap_map, ← filterMap_eq_map]
    refine filterMap_congr fun e he => ?_
    have hget : runs.get? e.1 = some e.2 := Table.get?_eq_some_iff.mpr he
    rw [Function.comp_apply, hget]
    rfl
  rw [← hentries]
  exact hdirectory.filterMap _

theorem mem_records {run : TaskRun} (h : run ∈ runs.records) :
    ∃ name files, runs.get? name = some files ∧ files.run = run := by
  obtain ⟨e, he, hrun⟩ := mem_map.mp ((mem_insertionSort _).mp h)
  exact ⟨e.1, e.2, Table.get?_eq_some_iff.mpr he, hrun⟩

theorem pairwise_records : runs.records.Pairwise fun a b => b.createdAt ≤ a.createdAt := by
  let r : TaskRun → TaskRun → Prop := fun a b => b.createdAt ≤ a.createdAt
  have : Std.Total r := ⟨fun a b => le_total b.createdAt a.createdAt⟩
  have : IsTrans TaskRun r := ⟨fun _ _ _ hab hbc => le_trans hbc hab⟩
  exact pairwise_insertionSort r _

theorem sorted_candidates (h : runs.Indexed)
    (hdirectory : directory.Perm (runs.entries.map Prod.fst))
    (hdistinct : (runs.entries.map (·.2.run.createdAt)).Nodup) :
    (directory.filterMap (runs.candidateOf accepts current filter)).insertionSort
        (fun a b => b.createdAt ≤ a.createdAt) =
      runs.records.filterMap (candidateFor accepts current filter) := by
  let r : TaskRun → TaskRun → Prop := fun a b => b.createdAt ≤ a.createdAt
  have : Std.Total r := ⟨fun a b => le_total b.createdAt a.createdAt⟩
  have : IsTrans TaskRun r := ⟨fun _ _ _ hab hbc => le_trans hbc hab⟩
  have hperm := perm_filterMap_directory hdirectory
  have hrecords : (directory.filterMap fun name => (runs.get? name).map (·.run)).insertionSort r =
      runs.records := by
    refine insertionSort_congr_of_perm hperm fun a ha b hb hab hba => ?_
    have hkeys : ((runs.entries.map (·.2.run)).map (·.createdAt)).Nodup := by
      rw [map_map]
      exact hdistinct
    exact inj_on_of_nodup_map hkeys (hperm.subset ha) (hperm.subset hb) (le_antisymm hba hab)
  have hcandidates : directory.filterMap (runs.candidateOf accepts current filter) =
      (directory.filterMap fun name => (runs.get? name).map (·.run)).filterMap
        (candidateFor accepts current filter) := by
    rw [filterMap_filterMap]
    exact filterMap_congr fun name _ => candidateOf_eq h name
  rw [hcandidates, ← hrecords]
  symm
  apply filterMap_insertionSort (r := r)
  intro a _ b _ a' b' ha hb
  unfold candidateFor at ha hb
  split at ha <;> cases ha
  split at hb <;> cases hb
  rfl

theorem filterMap_candidateFor (rows : List TaskRun) :
    rows.filterMap (candidateFor accepts current filter) = (rows.filter fun run =>
        (current run.runId || isReadable accepts run) &&
          filter.runIndexMatches run.indexPayload).map fun run =>
        ⟨run.createdAt, run.runId, if current run.runId then none else some run.projected⟩ := by
  rw [← filterMap_eq_map, filterMap_filter]
  rfl

/-- An indexed listing is the newest readable runs of the filter, lightened. -/
theorem listRuns_eq (h : runs.Indexed)
    (hdirectory : directory.Perm (runs.entries.map Prod.fst))
    (hdistinct : (runs.entries.map (·.2.run.createdAt)).Nodup) (hpos : 1 ≤ limit)
    (hlimit : limit ≤ 1000) :
    runs.listRuns accepts current filter limit directory =
      (((runs.found accepts current filter).take limit).filter (isReadable accepts)).map
        (·.projected) := by
  have hclamp : max 1 (min limit 1000) = limit := by omega
  have hfound : ∀ run ∈ runs.found accepts current filter,
      (if current run.runId then none else some run.projected).or
        (runs.getRunLightweight accepts run.runId) = readLightweight accepts run := by
    intro run hrun
    obtain ⟨hrecord, hmatch⟩ := mem_filter.mp hrun
    obtain ⟨name, files, hfiles, rfl⟩ := mem_records hrecord
    obtain ⟨hname, -, -⟩ := h name files hfiles
    split
    · rw [Option.none_or, getRunLightweight, hname, hfiles, Option.bind_some]
    · rename_i hcurrent
      rw [Bool.eq_false_of_not_eq_true hcurrent, Bool.false_or, Bool.and_eq_true, isReadable,
        readLightweight] at hmatch
      rw [Option.some_or, readLightweight]
      split
      · rfl
      · rename_i hnot
        rw [if_neg hnot] at hmatch
        cases hmatch.1
  have hread : ((runs.found accepts current filter).take limit).filterMap
      (readLightweight accepts) =
        (((runs.found accepts current filter).take limit).filter (isReadable accepts)).map
          (·.projected) := by
    rw [← filterMap_eq_map, filterMap_filter]
    refine filterMap_congr fun run _ => ?_
    unfold isReadable readLightweight
    split <;> rfl
  have hsorted : ((((runs.found accepts current filter).take limit).filter
      (isReadable accepts)).map (·.projected)).Pairwise fun a b => b.createdAt ≤ a.createdAt := by
    rw [pairwise_map]
    exact ((pairwise_records.filter _).take).filter _
  have hshown : (((runs.found accepts current filter).take limit).map fun run =>
      (⟨run.createdAt, run.runId, if current run.runId then none else some run.projected⟩ :
        ListCandidate)).filterMap (fun candidate =>
          candidate.projectedRun.or (runs.getRunLightweight accepts candidate.runId)) =
      ((runs.found accepts current filter).take limit).filterMap (readLightweight accepts) := by
    rw [filterMap_map]
    exact filterMap_congr fun run hrun => hfound run (mem_of_mem_take hrun)
  unfold listRuns
  rw [sorted_candidates h hdirectory hdistinct, filterMap_candidateFor, hclamp]
  change (((((runs.found accepts current filter).map _).take limit).filterMap _).insertionSort
    _).take limit = _
  rw [← map_take, hshown, hread, hsorted.insertionSort_eq]
  refine take_of_length_le ?_
  rw [length_map]
  exact le_trans (length_filter_le _ _) (length_take_le _ _)

/-- Whatever was called, a listing returns the newest runs that match, exactly if no document
that cannot be read takes the place of an older one. -/
theorem listRuns_eq_newestMatching_iff {codec : Codec} {calls : List StoreCall}
    (hdirectory : directory.Perm ((runsAfter codec calls).entries.map Prod.fst))
    (hdistinct : ((runsAfter codec calls).entries.map (·.2.run.createdAt)).Nodup)
    (hpos : 1 ≤ limit) (hlimit : limit ≤ 1000) :
    ((runsAfter codec calls).listRuns accepts current filter limit directory).map (·.runId) =
        ((runsAfter codec calls).newestMatching accepts filter limit).map (·.runId) ↔
      ¬(runsAfter codec calls).CrowdsOut accepts current filter limit := by
  have hmatching : (runsAfter codec calls).newestMatching accepts filter limit =
      (((runsAfter codec calls).found accepts current filter).filter
        (isReadable accepts)).take limit := by
    unfold newestMatching found
    rw [filter_filter]
    congr 1
    refine filter_congr fun run _ => ?_
    cases isReadable accepts run <;> simp
  rw [listRuns_eq (indexed_runsAfter codec calls) hdirectory hdistinct hpos hlimit, hmatching,
    map_map]
  unfold CrowdsOut
  generalize (runsAfter codec calls).found accepts current filter = rows
  have hstart : (rows.take limit).filter (isReadable accepts) <+:
      (rows.filter (isReadable accepts)).take limit := by
    rw [prefix_take_iff]
    exact ⟨( take_prefix limit rows).filter _, le_trans (length_filter_le _ _) (length_take_le _ _)⟩
  have htake : (((rows.take limit).filter (isReadable accepts)).take limit) =
      (rows.take limit).filter (isReadable accepts) :=
    take_of_length_le (le_trans (length_filter_le _ _) (length_take_le _ _))
  have hiff : ((rows.take limit).filter (isReadable accepts)).take limit =
      (rows.filter (isReadable accepts)).take limit ↔ _ :=
    take_filter_take_eq_iff.trans le_length_filter_take_iff
  rw [htake] at hiff
  have hids : ((rows.take limit).filter (isReadable accepts)).map
      ((·.runId) ∘ (·.projected)) = ((rows.filter (isReadable accepts)).take limit).map (·.runId) ↔
        (rows.take limit).filter (isReadable accepts) =
          (rows.filter (isReadable accepts)).take limit := by
    constructor
    · intro heq
      have hlength := congrArg List.length heq
      rw [length_map, length_map] at hlength
      exact hstart.eq_of_length hlength
    · intro heq
      rw [heq]
      rfl
  rw [hids, hiff, not_and_or]
  simp only [not_exists, not_and, Bool.not_eq_false, Bool.not_eq_true]

def oneStepRun (runId createdAt : String) (status : StepStatus) : BoundRun where
  run :=
    { runId := runId, taskId := none, operationId := none, approvalId := none
      contractType := "readonly_analysis", status := .running
      plan :=
        { status := "ready"
          steps := [⟨"step_1", "execute", "execute", true, false, status, [], []⟩]
          executionId := none }
      workflow := none, executionGraph := none, currentStepId := none, approvalSnapshot := .obj []
      autoRunRequested := false, cancellationRequested := false, cancellationReason := none
      revision := 1, createdAt := createdAt, startedAt := none, finishedAt := none
      warnings := [], blockedReasons := [], evidence := [] }
  bound := rfl

def reportedCalls : List StoreCall :=
  [.createRun (oneStepRun "task_run_a" "2026-01-01" .completed),
    .createRun (oneStepRun "task_run_b" "2026-01-02" (.other "done"))]

def blankCodec : Codec := ⟨fun _ => "", fun _ => ""⟩

/-- A listing of one run is empty, though there is a run that can be read. -/
theorem unreadable_run_hides_older : let runs := runsAfter blankCodec reportedCalls
    (runs.entries.map (·.2.run.createdAt)).Nodup ∧
      runs.entries.map Prod.fst = ["task_run_a", "task_run_b"] ∧
      (runs.listRuns (fun _ => true) (fun _ => true) {} 1 ["task_run_a", "task_run_b"]).map
        (·.runId) = [] ∧
      (runs.newestMatching (fun _ => true) {} 1).map (·.runId) = ["task_run_a"] := by
  decide +kernel

/-- With a place more, the listing returns the older run. -/
theorem listRuns_of_two :
    ((runsAfter blankCodec reportedCalls).listRuns (fun _ => true) (fun _ => true) {} 2
        ["task_run_b", "task_run_a"]).map (·.runId) =
      ((runsAfter blankCodec reportedCalls).newestMatching (fun _ => true) {} 2).map (·.runId) := by
  refine (listRuns_eq_newestMatching_iff (List.Perm.swap _ _ _) (by decide +kernel) (by decide)
    (by decide)).mpr ?_
  rintro ⟨-, run, hrun, -⟩
  revert run
  decide +kernel

end IndexedRuns

end

end AIpinho.Runtime
