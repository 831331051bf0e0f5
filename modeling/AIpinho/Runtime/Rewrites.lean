import AIpinho.Lib.Runs
import AIpinho.Runtime.SavedRuns
import AIpinho.Runtime.TidyDocuments

/-!
# Rewriting a saved run

A saved run is written again when it is read completely and updated, and when its document is
compacted without reading its payloads. What the run reads as stays the same as long as nothing
is spilled that holds a reference whose payload is there.
-/

namespace AIpinho.Runtime

open List Lib

/-- A reading goes through lists and through objects that are no references. -/
structure IsReading (read : Json → Json) : Prop where
  leaf : ∀ v, isLeaf v = true → read v = v
  list : ∀ items, read (.list items) = .list (items.map read)
  /-- The members of an object are read. -/
  obj : ∀ fields, isSpilledPayloadRef fields = false →
    read (.obj fields) = .obj (fields.map fun f => (f.1, read f.2))

theorem isReading_id : IsReading id where
  leaf _ _ := rfl
  list items := by rw [map_id, id_eq]
  obj fields _ := congrArg Json.obj (map_id fields).symm

theorem hydrateItems_eq_map (files : PayloadFiles) (items : List Json) :
    hydrateItems files items = items.map (hydratePayloadRefs files) := by
  induction items with
  | nil => rfl
  | cons v items ih => rw [hydrateItems, ih, map_cons]

theorem isReading_hydrate (files : PayloadFiles) : IsReading (hydratePayloadRefs files) where
  leaf v h := by cases v <;> first | rfl | cases h
  list items := by rw [hydratePayloadRefs, hydrateItems_eq_map]
  obj fields h := by
    rw [hydratePayloadRefs, if_neg (by simp [h]), hydrateFields_eq_map]

/-- A value that is written under a name reads back as it was read before: what is spilled holds
nothing that is read as something else, and a reference without a payload is written as it is. -/
inductive ReadsBack (files : PayloadFiles) (read : Json → Json) : String → Json → Prop
  | leaf {key : String} {v : Json} (h : isLeaf v = true) : ReadsBack files read key v
  | spilled {key : String} {v : Json} (hspill : spills key (sanitizeValue v) = true)
    (hsame : sanitizeValue v = v) (hread : read v = v) : ReadsBack files read key v
  | present {key : String} {fields : List (String × Json)} {w : Json}
    (hspill : spills key (sanitizeValue (.obj fields)) = false)
    (href : isSpilledPayloadRef fields = true) (hfile : files.read fields = some w)
    (hnull : w ≠ .null) (hread : read (.obj fields) = w) : ReadsBack files read key (.obj fields)
  | absent {key : String} {fields : List (String × Json)}
    (hspill : spills key (sanitizeValue (.obj fields)) = false)
    (href : isSpilledPayloadRef fields = true)
    (hfile : files.read fields = none ∨ files.read fields = some .null)
    (hsame : sanitizeFields fields = fields) (hinside : spilledFields fields = [])
    (hread : read (.obj fields) = .obj fields) : ReadsBack files read key (.obj fields)
  | list {key : String} {items : List Json}
    (hspill : spills key (sanitizeValue (.list items)) = false)
    (hitems : ∀ v ∈ items, ReadsBack files read key v) : ReadsBack files read key (.list items)
  | obj {key : String} {fields : List (String × Json)}
    (hspill : spills key (sanitizeValue (.obj fields)) = false)
    (href : isSpilledPayloadRef fields = false)
    (hfields : ∀ f ∈ fields, ReadsBack files read f.1 f.2) : ReadsBack files read key (.obj fields)

section

variable {codec : Codec} {runId : String} {files : PayloadFiles}

theorem sortedItems_eq_map (items : List Json) :
    Json.sortedItems items = items.map Json.sorted := by
  induction items with
  | nil => rfl
  | cons v items ih => rw [Json.sortedItems, ih, map_cons]

theorem sortedFields_congr {α : Type} {rows : List α} {name : α → String} {f g : α → Json}
    (h : ∀ a ∈ rows, (f a).sorted = (g a).sorted) :
    Json.sortedFields (rows.map fun a => (name a, f a)) =
      Json.sortedFields (rows.map fun a => (name a, g a)) := by
  induction rows with
  | nil => rfl
  | cons a rows ih =>
    rw [forall_mem_cons] at h
    rw [map_cons, map_cons, Json.sortedFields, Json.sortedFields, h.1, ih h.2]

variable {fields : List (String × Json)} {key : String} {read : Json → Json}

theorem Tidy.content (h : Tidy (.obj fields)) {ref : String}
    (href : textField? fields "content_ref" = some ref) : sanitizeText ref = ref := by
  cases h with
  | leaf hleaf => cases hleaf
  | ref _ hcontent => exact hcontent ref href
  | obj hfields =>
    obtain ⟨v, hv, htext⟩ := Option.bind_eq_some_iff.mp href
    obtain ⟨before, after, rfl, -⟩ := lookup_eq_some_iff.mp hv
    have htidy : Tidy v := hfields ("content_ref", v) (by simp)
    cases v with
    | str text =>
      obtain rfl := Option.some.inj htext
      cases htidy with
      | leaf _ hsame => exact Json.str.inj hsame
    | _ => cases htext

theorem read_rewritten (h : Tidy (.obj fields)) (path : String) :
    files.read (lightenFields codec runId path (sanitizeFields fields)) = files.read fields := by
  unfold PayloadFiles.read
  rw [textField?_lightenFields, textField?_sanitizeFields (by decide)]
  cases hcontent : textField? fields "content_ref" with
  | none => rfl
  | some ref => rw [Option.map_some, h.content hcontent]

theorem hydrate_payloadRef_of_holds {path : String} {v : Json} (hv : isLeaf v = false)
    (h : files.Holds codec runId v) :
    (hydratePayloadRefs files (payloadRef codec runId key path v)).sorted = v.sorted := by
  obtain ⟨fields, hfields, href, hcontent, -⟩ := lookup_payloadRef codec runId key path v
  obtain ⟨w, hw, hsorted⟩ := h
  have hread : files.read fields = some w := by
    rw [PayloadFiles.read, hcontent, Option.bind_some, hw]
  rw [hfields, hydratePayloadRefs, if_pos href, hread]
  cases w with
  | null =>
    cases v with
    | list | obj => simp [Json.sorted] at hsorted
    | _ => cases hv
  | _ => exact hsorted

theorem hydrateItems_lightenItems {items : List Json}
    (h : ∀ v ∈ items, ∀ path, (hydratePayloadRefs files
      (lightenForInline codec runId key path (sanitizeValue v))).sorted = (read v).sorted)
    (path : String) (index : ℕ) :
    (hydrateItems files (lightenItems codec runId key path index (sanitizeItems items))).map
      Json.sorted = (items.map read).map Json.sorted := by
  induction items generalizing index with
  | nil => rfl
  | cons v items ih =>
    rw [forall_mem_cons] at h
    rw [sanitizeItems, lightenItems, hydrateItems, map_cons, map_cons, map_cons, h.1, ih h.2]

theorem mem_spilledItems {p v : Json} {items : List Json} (hv : v ∈ items)
    (hp : p ∈ spilledPayloads key v) : p ∈ spilledItems key items := by
  induction items with
  | nil => cases hv
  | cons w items ih =>
    rw [spilledItems, mem_append]
    rcases mem_cons.mp hv with rfl | hv
    · exact .inl hp
    · exact .inr (ih hv)

theorem hydrate_member (hreading : IsReading read) {f : String × Json} {path : String}
    (hsensitive : isSensitiveKey f.1 = true → f.2 = omittedMark)
    (h : isSensitiveKey f.1 = false → (hydratePayloadRefs files
      (lightenForInline codec runId f.1 path (sanitizeValue f.2))).sorted = (read f.2).sorted) :
    (hydratePayloadRefs files
      (lightenForInline codec runId f.1 path (sanitize f.1 f.2))).sorted = (read f.2).sorted := by
  rw [sanitize]
  cases hkey : isSensitiveKey f.1 with
  | true =>
    rw [hsensitive hkey]
    exact congrArg Json.sorted (hreading.leaf omittedMark rfl).symm
  | false => exact h hkey

theorem mem_spilledFields_sanitize {p : Json} {f : String × Json}
    (hkey : isSensitiveKey f.1 = false) (hf : f ∈ fields)
    (hp : p ∈ spilledPayloads f.1 (sanitizeValue f.2)) :
    p ∈ spilledFields (sanitizeFields fields) := by
  rw [sanitizeFields_eq_map]
  refine mem_spilledFields (mem_map_of_mem hf) ?_
  dsimp only
  rw [sanitize, hkey]
  exact hp

/-- A member that reads back is the same after it was spilled and filled in again. -/
theorem hydrate_rewritten (hreading : IsReading read) {v : Json}
    (hback : ReadsBack files read key v) (htidy : Tidy v)
    (hholds : ∀ p ∈ spilledPayloads key (sanitizeValue v), files.Holds codec runId p)
    (path : String) :
    (hydratePayloadRefs files
      (lightenForInline codec runId key path (sanitizeValue v))).sorted = (read v).sorted := by
  induction hback generalizing path with
  | @leaf key v hleaf =>
    have hsame : hydratePayloadRefs files
        (lightenForInline codec runId key path (sanitizeValue v)) = sanitizeValue v := by
      cases v <;> first | rfl | cases hleaf
    rw [hsame, hreading.leaf v hleaf]
    cases htidy with
    | leaf _ hv => rw [hv]
    | _ => cases hleaf
  | @spilled key v hspill hsame hread =>
    rw [hsame] at hspill hholds ⊢
    rw [hread]
    cases v with
    | list items =>
      rw [spilledPayloads, if_pos hspill, forall_mem_singleton] at hholds
      rw [lightenForInline, if_pos hspill]
      exact hydrate_payloadRef_of_holds rfl hholds
    | obj fields =>
      rw [spilledPayloads, if_pos hspill, forall_mem_singleton] at hholds
      rw [lightenForInline, if_pos hspill]
      exact hydrate_payloadRef_of_holds rfl hholds
    | _ => rfl
  | @present key fields w hspill href hfile hnull hread =>
    rw [sanitizeValue] at hspill ⊢
    rw [lightenForInline, if_neg (by simp [hspill]), hydratePayloadRefs,
      isSpilledPayloadRef_lightenFields, isSpilledPayloadRef_sanitizeFields, if_pos href,
      read_rewritten htidy, hfile, hread]
    cases w <;> first | rfl | exact absurd rfl hnull
  | @absent key fields hspill href hfile hsame hinside hread =>
    have hsaved : lightenForInline codec runId key path (.obj fields) = .obj fields := by
      apply lighten_eq_self
      rw [sanitizeValue, hsame] at hspill
      rw [spilledPayloads, if_neg (by simp [hspill]), hinside]
    rw [sanitizeValue, hsame, hsaved, hread, hydratePayloadRefs, if_pos href]
    rcases hfile with hfile | hfile <;> rw [hfile]
  | @list key items hspill hitems ih =>
    rw [sanitizeValue] at hspill hholds ⊢
    rw [spilledPayloads, if_neg (by simp [hspill])] at hholds
    rw [lightenForInline, if_neg (by simp [hspill]), hydratePayloadRefs, hreading.list,
      Json.sorted, Json.sorted, sortedItems_eq_map, sortedItems_eq_map]
    refine congrArg Json.list (hydrateItems_lightenItems (fun v hv path => ?_) path 0)
    have htidyItem : Tidy v := by
      cases htidy with
      | leaf hleaf => cases hleaf
      | list h => exact h v hv
    refine ih v hv htidyItem (fun p hp => hholds p ?_) path
    rw [sanitizeItems_eq_map]
    exact mem_spilledItems (mem_map_of_mem hv) hp
  | @obj key fields hspill href hfields ih =>
    rw [sanitizeValue] at hspill hholds ⊢
    rw [spilledPayloads, if_neg (by simp [hspill])] at hholds
    rw [lightenForInline, if_neg (by simp [hspill]), hydratePayloadRefs,
      isSpilledPayloadRef_lightenFields, isSpilledPayloadRef_sanitizeFields,
      if_neg (by simp [href]), hreading.obj fields href, hydrateFields_eq_map,
      lightenFields_eq_map, sanitizeFields_eq_map, map_map, map_map, Json.sorted,
      Json.sorted]
    refine congrArg Json.obj (sortedFields_congr fun f hf => ?_)
    obtain ⟨htidyMember, hsensitive⟩ : Tidy f.2 ∧
        (isSensitiveKey f.1 = true → f.2 = omittedMark) := by
      cases htidy with
      | leaf hleaf => cases hleaf
      | ref href' =>
        rw [href] at href'
        cases href'
      | obj h h' => exact ⟨h f hf, h' f hf⟩
    dsimp only [Function.comp_apply]
    exact hydrate_member hreading hsensitive fun hkey =>
      ih f hf htidyMember (fun p hp => hholds p (mem_spilledFields_sanitize hkey hf hp)) _

end

def TaskRun.members (run : TaskRun) : List (String × Json) :=
  ("approval_snapshot", run.approvalSnapshot) :: run.evidence

/-- The values of these members, changed. -/
def TaskRun.mapMembers (g : Json → Json) (run : TaskRun) : TaskRun :=
  { run with
    approvalSnapshot := g run.approvalSnapshot
    evidence := run.evidence.map fun f => (f.1, g f.2) }

def RunRead.sorted : RunRead → RunRead
  | .found run => .found (run.mapMembers Json.sorted)
  | read => read

/-- A run that the store has written. -/
structure TaskRun.IsTidy (run : TaskRun) : Prop where
  text : run.mapText sanitizeText = run
  members : ∀ f ∈ run.members, Tidy f.2
  sensitive : ∀ f ∈ run.members, isSensitiveKey f.1 = true → f.2 = omittedMark

/-- A way to write a saved run again. -/
inductive Rewriting
  /-- `update_run` of what `get_run` returns. -/
  | update
  /-- `compact_run_storage`, or another write of the document as it is. -/
  | compact
  deriving DecidableEq

namespace RunFiles

def written (files : RunFiles) : Rewriting → Option TaskRun
  | .update =>
    match files.getRun with
    | .found run => some run
    | _ => none
  | .compact => files.run

def rewrite (codec : Codec) (files : RunFiles) (op : Rewriting) : RunFiles :=
  match files.written op with
  | some run => files.updateRun codec run
  | none => files

def readBefore (files : RunFiles) : Rewriting → Json → Json
  | .update => id
  | .compact => hydratePayloadRefs files.payloads

/-- Every member that is written reads back as before. -/
def RewritesSafely (codec : Codec) (files : RunFiles) (op : Rewriting) : Prop :=
  ∀ run, files.written op = some run → ∀ f ∈ run.members,
    ReadsBack (files.updateRun codec run).payloads (files.readBefore op) f.1 f.2

/-- Every payload that is spilled is stored. -/
def WritesDistinct (codec : Codec) (files : RunFiles) (op : Rewriting) : Prop :=
  ∀ run, files.written op = some run → ∀ p ∈ run.spilled,
    (files.updateRun codec run).payloads.Holds codec run.runId p

/-- The store has written the run and its payloads. -/
structure IsStored (runId : String) (files : RunFiles) (run : TaskRun) : Prop where
  /-- `run.json`. -/
  run_eq : files.run = some run
  runId_eq : run.runId = runId
  /-- The run was sanitized when it was written. -/
  tidy : run.IsTidy
  payloads : files.payloads.Sanitized

end RunFiles

section

variable {codec : Codec} {runId : String} {files : RunFiles} {run : TaskRun}

theorem TaskRun.hydrated_eq_mapMembers (payloads : PayloadFiles) (run : TaskRun) :
    run.hydrated payloads = run.mapMembers (hydratePayloadRefs payloads) := by
  rw [TaskRun.hydrated, hydrateFields_eq_map, TaskRun.mapMembers]

theorem TaskRun.mapMembers_id (run : TaskRun) : run.mapMembers id = run := by
  have hevidence : (run.evidence.map fun f => (f.1, id f.2)) = run.evidence := map_id run.evidence
  rw [TaskRun.mapMembers, hevidence, id_eq]

theorem TaskRun.spilled_eq (run : TaskRun) :
    run.spilled = spilledFields (sanitizeFields run.members) := by
  have hkey : isSensitiveKey "approval_snapshot" = false := by decide
  simp only [TaskRun.spilled, TaskRun.members, sanitizeFields, spilledFields, hkey,
    Bool.false_eq_true, if_false]

theorem TaskRun.sanitized_spilled (run : TaskRun) : ∀ p ∈ run.spilled, sanitizeValue p = p := by
  rw [TaskRun.spilled_eq]
  apply sanitized_spilledFields
  exact Json.obj.inj (sanitizeValue_sanitizeValue (.obj run.members))

theorem TaskRun.mapText_mapText {f : String → String} (hf : ∀ s, f (f s) = f s) (run : TaskRun) :
    (run.mapText f).mapText f = run.mapText f := by
  have hcomp : f ∘ f = f := funext hf
  simp only [TaskRun.mapText, TaskRunStep.mapText, WorkflowRuntimeInstance.mapText,
    WorkflowPhase.mapText, WorkflowPhaseDependency.mapText, ExecutionGraph.mapText, hf,
    map_map, Option.map_map, Function.comp_def]

theorem TaskRun.isTidy_stored (hcodec : codec.IsSha256) (hrun : IsRunId run.runId) :
    (run.stored codec).IsTidy := by
  have hmembers : (run.stored codec).members =
      lightenFields codec run.runId "" (sanitizeFields run.members) := by
    have hkey : isSensitiveKey "approval_snapshot" = false := by decide
    simp only [TaskRun.stored, TaskRun.members, sanitizeFields, lightenFields, hkey,
      Bool.false_eq_true, if_false, if_true]
  have hsanitized : Tidy (.obj (sanitizeFields run.members)) :=
    tidy_of_sanitized (sanitizeValue_sanitizeValue (.obj run.members))
  have hfields : ∀ f ∈ sanitizeFields run.members, Tidy f.2 ∧
      (isSensitiveKey f.1 = true → f.2 = omittedMark) := by
    rw [sanitizeFields_eq_map, forall_mem_map]
    intro f _
    dsimp only
    rw [sanitize]
    split
    · exact ⟨tidy_omittedMark, fun _ => rfl⟩
    · rename_i hkey
      exact ⟨tidy_of_sanitized (sanitizeValue_sanitizeValue f.2), fun h => (hkey h).elim⟩
  refine ⟨?_, ?_, ?_⟩
  · exact congrArg (fun texts : TaskRun =>
      { texts with
        approvalSnapshot := (run.stored codec).approvalSnapshot
        evidence := (run.stored codec).evidence })
      (TaskRun.mapText_mapText sanitizeText_sanitizeText run)
  · rw [hmembers, lightenFields_eq_map, forall_mem_map]
    exact fun f hf => (hfields f hf).1.lighten hcodec hrun _ _
  · rw [hmembers, lightenFields_eq_map, forall_mem_map]
    intro f hf hkey
    dsimp only
    rw [(hfields f hf).2 hkey]
    rfl

theorem RunFiles.isStored_updateRun (hcodec : codec.IsSha256) (hrun : IsRunId runId)
    (hid : run.runId = runId) (hpayloads : files.payloads.Sanitized) :
    (files.updateRun codec run).IsStored runId (run.stored codec) := by
  subst hid
  exact ⟨rfl, rfl, TaskRun.isTidy_stored hcodec hrun, hpayloads.writeAll run.sanitized_spilled⟩

theorem RunFiles.hydrated_stored {read : Json → Json} (hreading : IsReading read)
    (htidy : run.IsTidy)
    (hholds : ∀ p ∈ run.spilled, (files.updateRun codec run).payloads.Holds codec run.runId p)
    (hback : ∀ f ∈ run.members, ReadsBack (files.updateRun codec run).payloads read f.1 f.2) :
    ((run.stored codec).hydrated (files.updateRun codec run).payloads).mapMembers Json.sorted =
      (run.mapMembers read).mapMembers Json.sorted := by
  rw [TaskRun.spilled_eq] at hholds
  have hmember : ∀ f ∈ run.members, ∀ path, (hydratePayloadRefs
      (files.updateRun codec run).payloads
      (lightenForInline codec run.runId f.1 path (sanitize f.1 f.2))).sorted =
        (read f.2).sorted := by
    intro f hf path
    exact hydrate_member hreading (htidy.sensitive f hf) fun hkey =>
      hydrate_rewritten hreading (hback f hf) (htidy.members f hf)
        (fun p hp => hholds p (mem_spilledFields_sanitize hkey hf hp)) path
  have hsnapshot : (hydratePayloadRefs (files.updateRun codec run).payloads
      (lightenForInline codec run.runId "approval_snapshot" "approval_snapshot"
        (sanitizeValue run.approvalSnapshot))).sorted = (read run.approvalSnapshot).sorted := by
    have h := hmember _ mem_cons_self "approval_snapshot"
    have hkey : isSensitiveKey "approval_snapshot" = false := by decide
    rwa [sanitize, hkey] at h
  have hevidence : (hydrateFields (files.updateRun codec run).payloads
      (lightenFields codec run.runId "" (sanitizeFields run.evidence))).map
        (fun f => (f.1, f.2.sorted)) = run.evidence.map fun f => (f.1, (read f.2).sorted) := by
    rw [hydrateFields_eq_map, lightenFields_eq_map, sanitizeFields_eq_map, map_map,
      map_map, map_map]
    refine map_congr_left fun f hf => ?_
    exact Prod.ext rfl (hmember f (mem_cons_of_mem _ hf) _)
  have hstored : run.stored codec = { run with
        approvalSnapshot := lightenForInline codec run.runId "approval_snapshot"
          "approval_snapshot" (sanitizeValue run.approvalSnapshot)
        evidence := lightenFields codec run.runId "" (sanitizeFields run.evidence) } := by
    rw [TaskRun.stored, htidy.text]
  rw [hstored]
  simp only [TaskRun.hydrated, TaskRun.mapMembers, hevidence, hsnapshot, map_map, Function.comp_def]

theorem RunFiles.IsStored.getRun (h : files.IsStored runId run) : files.getRun =
    if run.isValid then .found (run.hydrated files.payloads) else .invalid := by
  rw [RunFiles.getRun, h.run_eq, Option.map_some, RunRead.ofRun, TaskRun.hydrated_isValid]

theorem RunFiles.IsStored.isTidy_hydrated (h : files.IsStored runId run) :
    (run.hydrated files.payloads).IsTidy := by
  have hmembers : (run.hydrated files.payloads).members =
      run.members.map fun f => (f.1, hydratePayloadRefs files.payloads f.2) := by
    rw [TaskRun.hydrated_eq_mapMembers]
    rfl
  refine ⟨?_, ?_, ?_⟩
  · exact congrArg (TaskRun.hydrated files.payloads) h.tidy.text
  · rw [hmembers, forall_mem_map]
    exact fun f hf => (h.tidy.members f hf).hydrate h.payloads
  · rw [hmembers, forall_mem_map]
    intro f hf hkey
    dsimp only
    rw [h.tidy.sensitive f hf hkey]
    rfl

theorem RunFiles.IsStored.written (h : files.IsStored runId run) {op : Rewriting} {run' : TaskRun}
    (hwritten : files.written op = some run') :
    run'.runId = runId ∧ run'.IsTidy ∧ run'.isValid = run.isValid ∧
      IsReading (files.readBefore op) ∧
      run'.mapMembers (files.readBefore op) = run.hydrated files.payloads := by
  cases op with
  | update =>
    rw [RunFiles.written, h.getRun] at hwritten
    by_cases hvalid : run.isValid = true
    · rw [if_pos hvalid] at hwritten
      obtain rfl := Option.some.inj hwritten
      exact ⟨h.runId_eq, h.isTidy_hydrated, run.hydrated_isValid _, isReading_id,
        TaskRun.mapMembers_id _⟩
    · rw [if_neg hvalid] at hwritten
      cases hwritten
  | compact =>
    obtain rfl := Option.some.inj (h.run_eq.symm.trans hwritten)
    exact ⟨h.runId_eq, h.tidy, rfl, isReading_hydrate _, (TaskRun.hydrated_eq_mapMembers _ _).symm⟩

theorem RunFiles.IsStored.rewrite (hcodec : codec.IsSha256) (hrun : IsRunId runId)
    (h : files.IsStored runId run) {op : Rewriting} (hsafe : files.RewritesSafely codec op)
    (hdistinct : files.WritesDistinct codec op) :
    (∃ run', (files.rewrite codec op).IsStored runId run') ∧
      (files.rewrite codec op).getRun.sorted = files.getRun.sorted := by
  rw [RunFiles.rewrite]
  cases hwritten : files.written op with
  | none => exact ⟨⟨run, h⟩, rfl⟩
  | some run' =>
    obtain ⟨hid, htidy, hvalid, hreading, hread⟩ := h.written hwritten
    have hstored := RunFiles.isStored_updateRun hcodec hrun hid h.payloads
    refine ⟨⟨_, hstored⟩, ?_⟩
    have hsame := RunFiles.hydrated_stored hreading htidy (hdistinct run' hwritten)
      (hsafe run' hwritten)
    rw [hread] at hsame
    dsimp only
    rw [hstored.getRun, h.getRun, TaskRun.stored_isValid, hvalid]
    split
    · exact congrArg RunRead.found hsame
    · rfl

end

/-- In every sequence of updates and of rewritings of the document as it is, in which every value
that is written reads back and no digests collide, the run reads as it did after it was stored.
-/
theorem rewriting_keeps_read_run (codec : Codec) (hcodec : codec.IsSha256) (runId : String)
    (hrun : IsRunId runId) (files : RunFiles) (hfiles : files.payloads.Sanitized) (run : TaskRun)
    (hid : run.runId = runId) (ops : List Rewriting)
    (hops : Along (RunFiles.rewrite codec)
      (fun files op => files.RewritesSafely codec op ∧ files.WritesDistinct codec op)
      (files.updateRun codec run) ops) :
    (Lib.run (RunFiles.rewrite codec) (files.updateRun codec run) ops).getRun.sorted =
      (files.updateRun codec run).getRun.sorted := by
  have hstart : (files.updateRun codec run).IsStored runId (run.stored codec) :=
    RunFiles.isStored_updateRun hcodec hrun hid hfiles
  have hinvariant := run_invariant (P := fun files' : RunFiles =>
    (∃ run', files'.IsStored runId run') ∧
      files'.getRun.sorted = (files.updateRun codec run).getRun.sorted)
    (fun files' op hP hop => by
      obtain ⟨⟨run', hstored⟩, hread⟩ := hP
      obtain ⟨hstored', hread'⟩ := hstored.rewrite hcodec hrun hop.1 hop.2
      exact ⟨hstored', hread'.trans hread⟩)
    ⟨⟨_, hstart⟩, rfl⟩ hops
  exact hinvariant.2

/-- A stored event holds nothing that sanitizing would change, its references aside. -/
structure TaskRunEvent.IsTidy (e : TaskRunEvent) : Prop where
  type : sanitizeText e.type = e.type
  status : sanitizeText e.status = e.status
  message : sanitizeText e.message = e.message
  metadata : Tidy (.obj e.metadata)

/-- Nothing in the files of a run would be changed by sanitizing it, apart from the references to
spilled payloads, of which only `content_ref` is: their path and summary repeat keys. -/
structure RunFiles.IsTidy (files : RunFiles) : Prop where
  run : ∀ run, files.run = some run → IsRunId run.runId ∧ run.IsTidy
  events : ∀ e ∈ files.events, e.IsTidy
  result : files.result.map (·.mapText sanitizeText) = files.result
  payloads : files.payloads.Sanitized

section

variable {codec : Codec} {runId : String} {files : RunFiles} {events : List TaskRunEvent}

theorem isTidy_storedEvents (hcodec : codec.IsSha256) (hrun : IsRunId runId) :
    ∀ e ∈ storedEvents codec runId events, e.IsTidy := by
  intro e he
  obtain ⟨index, hindex, rfl⟩ := mem_mapIdx.mp he
  refine ⟨sanitizeText_sanitizeText _, sanitizeText_sanitizeText _, sanitizeText_sanitizeText _, ?_⟩
  change Tidy (.obj (storedMetadata codec runId index _))
  rw [obj_storedMetadata]
  exact (tidy_of_sanitized (sanitizeValue_sanitizeValue _)).lighten hcodec hrun _ _

theorem isTidy_appendTerminalizationIgnored (hcodec : codec.IsSha256) (hrun : IsRunId runId)
    (h : ∀ e ∈ events, e.IsTidy) (stamp : Stamp) (terminal : TaskRunEvent)
    (attemptedStatus reasonCode : String) : ∀ e ∈ appendTerminalizationIgnored codec runId stamp
      terminal attemptedStatus reasonCode events, e.IsTidy := by
  unfold appendTerminalizationIgnored
  split
  · exact h
  · exact isTidy_storedEvents hcodec hrun

theorem PayloadFiles.Sanitized.writeEvents (h : files.payloads.Sanitized) :
    (files.payloads.writeAll codec runId (spilledEventPayloads events)).Sanitized := by
  refine h.writeAll fun p hp => ?_
  obtain ⟨e, -, hp⟩ := mem_flatMap.mp hp
  exact sanitized_spilledPayloads (sanitizeValue_sanitizeValue _) p hp

theorem RunFiles.IsTidy.updateRun (h : files.IsTidy) (hcodec : codec.IsSha256) {run : TaskRun}
    (hrun : IsRunId run.runId) : (files.updateRun codec run).IsTidy where
  run := by
    rintro _ ⟨⟩
    exact ⟨hrun, TaskRun.isTidy_stored hcodec hrun⟩
  events := h.events
  result := h.result
  payloads := h.payloads.writeAll run.sanitized_spilled

theorem RunFiles.IsTidy.cohere (h : files.IsTidy) (hcodec : codec.IsSha256) (now : String)
    (status : ResultStatus) : (files.cohereTerminalResult codec now status).IsTidy := by
  unfold RunFiles.cohereTerminalResult
  split
  · exact h
  · rename_i run hrun
    split
    · exact h
    · exact h.updateRun hcodec (h.run run hrun).1

theorem RunFiles.IsTidy.step (h : files.IsTidy) (hcodec : codec.IsSha256) (hrun : IsRunId runId)
    {op : RunOp} (hop : ∀ run, op = .updateRun run → IsRunId run.runId) :
    (runHandler codec runId op files).2.IsTidy := by
  cases op with
  | getRun | getLatest | getRunIndex | getEvents | readResult | executeStep => exact h
  | updateRun run => exact h.updateRun hcodec (hop run rfl)
  | appendEvent e =>
    refine ⟨h.run, ?_, h.result, h.payloads.writeEvents⟩
    change ∀ e ∈ Runtime.appendEvent .., e.IsTidy
    unfold Runtime.appendEvent
    split
    · exact isTidy_appendTerminalizationIgnored hcodec hrun h.events _ _ _ _
    · exact isTidy_storedEvents hcodec hrun
  | ignoreTerminalization attemptedStatus reasonCode timestamp =>
    change (files.ignoreTerminalization codec runId attemptedStatus reasonCode timestamp).IsTidy
    unfold RunFiles.ignoreTerminalization
    split
    · exact h
    · exact ⟨h.run, isTidy_appendTerminalizationIgnored hcodec hrun h.events _ _ _ _, h.result,
        h.payloads.writeEvents⟩
  | saveResult now result =>
    have hsaved : RunFiles.IsTidy { files with result := some (result.mapText sanitizeText) } :=
      ⟨h.run, h.events, by simp [TaskRunResult.mapText, Function.comp_def], h.payloads⟩
    exact hsaved.cohere hcodec now result.status
  | cohereTerminalResult now result => exact h.cohere hcodec now result.status

/-- Whatever services do with a run, outside of references they leave nothing in its files that
sanitizing would change: neither texts nor leaves of metadata nor payloads. -/
theorem files_stay_tidy (hcodec : codec.IsSha256) (hrun : IsRunId runId) (h : files.IsTidy)
    {ops : List RunOp} (hops : ∀ run, .updateRun run ∈ ops → IsRunId run.runId) :
    (Lib.run (fun files op => (runHandler codec runId op files).2) files ops).IsTidy := by
  refine run_of_forall (A := fun op => ∀ run, op = .updateRun run → IsRunId run.runId)
    (fun files op h hop => h.step hcodec hrun hop) h ?_
  rintro op hmem run rfl
  exact hops run hmem

end

def isList : Json → Bool
  | .list _ => true
  | _ => false

def kindCodec : Codec where
  digest v := String.ofList (List.replicate 64 (if isList v then '0' else '1'))
  containerText _ := ""

def emptyFiles : RunFiles := ⟨none, none, [], none, []⟩

def runWith (evidence : List (String × Json)) : TaskRun where
  runId := "task_run_0"
  taskId := none
  operationId := none
  approvalId := none
  contractType := "report"
  status := .completed
  plan := ⟨"ready", [], none⟩
  workflow := none
  executionGraph := none
  currentStepId := none
  approvalSnapshot := .null
  autoRunRequested := false
  cancellationRequested := false
  cancellationReason := none
  revision := 0
  createdAt := ""
  startedAt := none
  finishedAt := none
  warnings := []
  blockedReasons := []
  evidence := evidence

theorem kindCodec_isSha256 : kindCodec.IsSha256 := by
  have hdigit : ∀ b : Bool, isHexDigit (if b then '0' else '1') = true := by decide
  refine ⟨fun v => ?_, fun v => ?_⟩
  · rw [kindCodec, String.toList_ofList, all_replicate, hdigit]
    rfl
  · rw [kindCodec, String.toList_ofList, length_replicate]

theorem isRunId_runWith : IsRunId "task_run_0" := ⟨⟨['0'], by decide, by decide⟩, by decide⟩

section

variable {codec : Codec} {run : TaskRun} {key : String} {v : Json}

theorem stored_single (hevidence : run.evidence = [(key, v)]) (hkey : isSensitiveKey key = false) :
    (run.stored codec).evidence =
      [(key, lightenForInline codec run.runId key key (sanitizeValue v))] := by
  rw [TaskRun.stored, hevidence]
  simp only [sanitizeFields, lightenFields, hkey, Bool.false_eq_true, if_false, if_true]

theorem spilled_single (hevidence : run.evidence = [(key, v)]) (hkey : isSensitiveKey key = false)
    (hsnapshot : run.approvalSnapshot = .null) :
    run.spilled = spilledPayloads key (sanitizeValue v) := by
  rw [TaskRun.spilled, hevidence, hsnapshot]
  simp only [sanitizeFields, spilledFields, hkey, Bool.false_eq_true, if_false, sanitizeValue,
    spilledPayloads, nil_append, append_nil]

theorem writeAll_single (codec : Codec) (runId : String) (v : Json) :
    PayloadFiles.writeAll codec runId [] [v] = [(contentRef runId (codec.digest v), v)] := rfl

theorem lighten_spilled_list {items : List Json} {runId path : String}
    (h : spills key (.list items) = true) :
    lightenForInline codec runId key path (.list items) =
      payloadRef codec runId key path (.list items) := by
  rw [lightenForInline, if_pos h]

end

/-- A list that is spilled because of its length. -/
def manyRows : List Json := List.replicate 101 (.obj [])

def rowsRef : Json :=
  payloadRef kindCodec "task_run_0" "produced_artifacts" "produced_artifacts" (.list manyRows)

def rowsFiles : RunFiles :=
  emptyFiles.updateRun kindCodec (runWith [("produced_artifacts", .list manyRows)])

theorem files_stay_tidy_manyRows :
    (Lib.run (fun files op => (runHandler kindCodec "task_run_0" op files).2) emptyFiles
      [.updateRun (runWith [("produced_artifacts", .list manyRows)])]).IsTidy := by
  have hempty : emptyFiles.IsTidy :=
    ⟨fun _ h => (by cases h), fun _ h => (by cases h), rfl, fun _ _ h => by cases h⟩
  refine files_stay_tidy kindCodec_isSha256 isRunId_runWith hempty fun run hmem => ?_
  cases mem_singleton.mp hmem
  exact isRunId_runWith

theorem spills_manyRows : spills "produced_artifacts" (.list manyRows) = true := by decide

theorem sanitizeValue_emptyRowsRef (n : ℕ) :
    sanitizeValue (payloadRef kindCodec "task_run_0" "produced_artifacts" "produced_artifacts"
        (.list (List.replicate n (.obj [])))) =
      payloadRef kindCodec "task_run_0" "produced_artifacts" "produced_artifacts"
        (.list (List.replicate n (.obj []))) := by
  have hcontent := sanitizeText_contentRef kindCodec_isSha256 isRunId_runWith
    (.list (List.replicate n (.obj [])))
  have hdigest : sanitizeText (kindCodec.digest (.list (List.replicate n (.obj [])))) =
      kindCodec.digest (.list (List.replicate n (.obj []))) := by
    apply sanitizeText_of_hasNoSeparator
    · exact hasNoSeparator_of_hex (kindCodec_isSha256.hex _)
    · rw [kindCodec_isSha256.length, maxTextLength]
      omega
  have hnames : ∀ name ∈ ["content_ref", "hash", "sha256", "size_bytes", "record_count",
      "reason_code", "path", "key", "summary", "type", "count", "sample"],
      isSensitiveKey name = false := by decide
  have htexts : ∀ text ∈ [spilledReason, "produced_artifacts", "list"],
      sanitizeText text = text := by
    decide
  simp only [forall_mem_cons, not_mem_nil, false_imp_iff, implies_true, and_true]
    at hnames htexts
  simp [payloadRef, payloadRefFields, payloadSummary, Json.count?, sanitizeValue, sanitizeFields,
    sanitizeItems_eq_map, lightRow, hcontent, hdigest, hnames, htexts]

theorem spills_rowsRef : spills "produced_artifacts" rowsRef = false := by
  have hsmall : rowsRef.encodedLength < 250000 := by decide +kernel
  obtain ⟨fields, hfields, -⟩ := lookup_payloadRef kindCodec "task_run_0"
    "produced_artifacts" "produced_artifacts"
    (.list manyRows)
  have hobj : rowsRef = .obj fields := hfields
  rw [hobj] at hsmall ⊢
  have hspill : shouldSpill (.obj fields) = false := decide_eq_false (by omega)
  rw [spills, hspill, Bool.and_false]

theorem spilledPayloads_rowsRef : spilledPayloads "produced_artifacts" rowsRef = [] := by
  have hkeys : ∀ key ∈ ["summary", "sample"], ∀ v, spills key v = false := by
    have hcontains : ∀ key ∈ ["summary", "sample"], heavyRuntimeKeys.contains key = false := by
      decide
    intro key hkey v
    rw [spills, hcontains key hkey, Bool.false_and]
  have hspill := spills_rowsRef
  simp only [forall_mem_cons, not_mem_nil, false_imp_iff, implies_true, and_true] at hkeys
  unfold rowsRef at hspill ⊢
  rw [payloadRef] at hspill ⊢
  rw [spilledPayloads, if_neg (by simp [hspill]), payloadRefFields, payloadSummary]
  simp only [spilledFields, spilledPayloads, hkeys.1, hkeys.2, Bool.false_eq_true, if_false,
    append_nil, nil_append]
  rfl

theorem sanitizeValue_manyRows : sanitizeValue (.list manyRows) = .list manyRows := by
  rw [sanitizeValue, sanitizeItems_eq_map, manyRows, map_replicate]
  rfl

/-- A run with a spilled list is read the same after it was compacted. -/
theorem rows_are_kept : (Lib.run (RunFiles.rewrite kindCodec) rowsFiles [.compact]).getRun.sorted =
      rowsFiles.getRun.sorted := by
  have hkey : isSensitiveKey "produced_artifacts" = false := by decide
  let run := (runWith [("produced_artifacts", .list manyRows)]).stored kindCodec
  have hrun : rowsFiles.run = some run := rfl
  have hevidence : run.evidence = [("produced_artifacts", rowsRef)] := by
    rw [stored_single rfl hkey, sanitizeValue_manyRows, lighten_spilled_list spills_manyRows]
    rfl
  have hpayloads : rowsFiles.payloads =
      [(contentRef "task_run_0" (kindCodec.digest (.list manyRows)), .list manyRows)] := by
    change PayloadFiles.writeAll _ _ [] (runWith _).spilled = _
    rw [spilled_single rfl hkey rfl, sanitizeValue_manyRows, spilledPayloads,
      if_pos spills_manyRows]
    rfl
  have hsame : sanitizeValue rowsRef = rowsRef := sanitizeValue_emptyRowsRef 101
  obtain ⟨fields, hfields, href, hcontent, -⟩ := lookup_payloadRef kindCodec "task_run_0"
    "produced_artifacts" "produced_artifacts" (.list manyRows)
  have hobj : rowsRef = .obj fields := hfields
  have hfile : rowsFiles.payloads.lookup (contentRef "task_run_0"
      (kindCodec.digest (.list manyRows))) = some (.list manyRows) := by
    rw [hpayloads, lookup_cons_self]
  have hwritten : ∀ run', rowsFiles.written .compact = some run' → run' = run :=
    fun run' h => Option.some.inj (h.symm.trans hrun)
  have hnothing : run.spilled = [] := by
    rw [spilled_single hevidence hkey rfl, hsame]
    exact spilledPayloads_rowsRef
  refine rewriting_keeps_read_run kindCodec kindCodec_isSha256 "task_run_0" isRunId_runWith
    emptyFiles (fun _ _ h => by cases h) (runWith [("produced_artifacts", .list manyRows)]) rfl
    [.compact] ⟨⟨?_, ?_⟩, trivial⟩
  · intro run' hrun'
    rw [hwritten run' hrun', TaskRun.members, hevidence]
    refine forall_mem_cons.mpr ⟨.leaf rfl, forall_mem_singleton.mpr ?_⟩
    have hread : rowsFiles.payloads.read fields = some (.list manyRows) := by
      rw [PayloadFiles.read, hcontent, Option.bind_some, hfile]
    have hspill := spills_rowsRef
    rw [← hsame, hobj] at hspill
    dsimp only
    rw [hobj]
    have hafter : (rowsFiles.updateRun kindCodec run).payloads = rowsFiles.payloads := by
      rw [RunFiles.updateRun, hnothing, PayloadFiles.writeAll, foldl_nil]
    have hread' : hydratePayloadRefs rowsFiles.payloads (.obj fields) = .list manyRows := by
      rw [← hfields]
      exact hydrate_payloadRef (by simp) hfile
    exact .present hspill href ((congrArg (·.read fields) hafter).trans hread) (by simp) hread'
  · intro run' hrun' p hp
    rw [hwritten run' hrun', hnothing] at hp
    cases hp

/-- A text of the greatest length the store keeps. -/
def longText : String := String.ofList (List.replicate 30000 'a')

def longRow : Json := .obj [("logical_path", .str longText)]

/-- Ten artifacts with long paths. -/
def longRows : List Json := List.replicate 10 longRow

/-- The reference to the artifacts, which shows them all. -/
def longRef : Json :=
  payloadRef kindCodec "task_run_0" "produced_artifacts" "produced_artifacts" (.list longRows)

def longFiles : RunFiles :=
  emptyFiles.updateRun kindCodec (runWith [("produced_artifacts", .list longRows)])

theorem toList_longText : longText.toList = List.replicate 30000 'a' := String.toList_ofList

theorem sanitizeText_longText : sanitizeText longText = longText := by
  apply sanitizeText_of_hasNoSeparator
  · rw [toList_longText, hasNoSeparator, mem_replicate, mem_replicate]
    exact ⟨fun h => absurd h.2 (by decide), fun h => absurd h.2 (by decide)⟩
  · rw [toList_longText, length_replicate, maxTextLength]

theorem sanitizeValue_longRow : sanitizeValue longRow = longRow := by
  have hkey : isSensitiveKey "logical_path" = false := by decide
  rw [longRow, sanitizeValue, sanitizeFields_eq_map, map_cons, map_nil]
  dsimp only
  rw [sanitize, hkey, if_neg Bool.false_ne_true, sanitizeValue, sanitizeText_longText]

theorem lightRow_longRow : lightRow longRow = longRow := by
  have hkey : lightRowKeys.contains "logical_path" = true := by decide
  rw [longRow, lightRow]
  simp only [filter_cons, hkey, filter_nil, if_true]

theorem sanitizeValue_longRows : sanitizeValue (.list longRows) = .list longRows := by
  rw [sanitizeValue, sanitizeItems_eq_map, longRows, map_replicate, sanitizeValue_longRow]

theorem encodedLength_list_replicate (n : ℕ) (v : Json) :
    n * v.encodedLength ≤ (Json.list (List.replicate n v)).encodedLength := by
  have hitems : Json.encodedItemsLength (List.replicate n v) = n * v.encodedLength := by
    induction n with
    | zero => rw [Nat.zero_mul]; rfl
    | succ n ih =>
      rw [replicate_succ, Json.encodedItemsLength_cons, ih, Nat.succ_mul, Nat.add_comm]
  rw [Json.encodedLength_list, hitems]
  omega

theorem encodedLength_le_obj {f : String × Json} {fields : List (String × Json)}
    (hf : f ∈ fields) : f.2.encodedLength ≤ (Json.obj fields).encodedLength := by
  rw [Json.encodedLength_obj]
  refine le_trans ?_ (Nat.le_add_left _ _)
  induction fields with
  | nil => cases hf
  | cons g fields ih =>
    obtain ⟨name, v⟩ := g
    rw [Json.encodedFieldsLength_cons]
    rcases mem_cons.mp hf with rfl | hf
    · dsimp only
      omega
    · have h := ih hf
      omega

theorem encodedLength_replicate (n : ℕ) {c : Char} (hc : Json.escapedLength c = 1) :
    (Json.str (String.ofList (List.replicate n c))).encodedLength = n + 2 := by
  rw [Json.encodedLength, Json.encodedTextLength, String.toList_ofList, map_replicate,
    sum_replicate_nat, hc, Nat.mul_one]

theorem longRows_long : 250000 < (Json.list longRows).encodedLength := by
  have htext : (Json.str longText).encodedLength = 30002 :=
    encodedLength_replicate 30000 (by decide)
  have hrow : (Json.str longText).encodedLength ≤ longRow.encodedLength :=
    encodedLength_le_obj (f := ("logical_path", .str longText)) mem_cons_self
  have hrows : 10 * longRow.encodedLength ≤ (Json.list longRows).encodedLength :=
    encodedLength_list_replicate 10 longRow
  rw [htext] at hrow
  omega

theorem isHeavy_produced_artifacts : heavyRuntimeKeys.contains "produced_artifacts" = true := by
  decide

theorem spills_longRows : spills "produced_artifacts" (.list longRows) = true := by
  rw [spills, isHeavy_produced_artifacts, shouldSpill, decide_eq_true longRows_long, Bool.or_true,
    Bool.and_true]

theorem sanitizeValue_longRef : ∃ fields, sanitizeValue longRef = .obj fields ∧
    spills "produced_artifacts" (.obj fields) = true := by
  have hkeys : isSensitiveKey "summary" = false ∧ isSensitiveKey "sample" = false := by
    decide
  have hsummary : ("summary", payloadSummary (.list longRows)) ∈
      payloadRefFields kindCodec "task_run_0" "produced_artifacts" "produced_artifacts"
        (.list longRows) := by
    rw [payloadRefFields]
    simp only [mem_cons, true_or, or_true]
  have hsample : (Json.list longRows).encodedLength ≤
      (sanitizeValue (payloadSummary (.list longRows))).encodedLength := by
    have htake : (longRows.take 10).map lightRow = longRows := by
      rw [longRows, take_replicate, map_replicate, lightRow_longRow, Nat.min_self]
    rw [payloadSummary, htake, sanitizeValue, sanitizeFields_eq_map]
    refine encodedLength_le_obj (f := ("sample", .list longRows)) ?_
    refine mem_map.mpr ⟨("sample", .list longRows), by simp, ?_⟩
    dsimp only
    rw [sanitize, hkeys.2, if_neg Bool.false_ne_true, sanitizeValue_longRows]
  refine ⟨_, rfl, ?_⟩
  have hlong : 250000 < (Json.obj (sanitizeFields (payloadRefFields kindCodec "task_run_0"
      "produced_artifacts" "produced_artifacts" (.list longRows)))).encodedLength := by
    refine lt_of_lt_of_le (lt_of_lt_of_le longRows_long hsample) ?_
    refine encodedLength_le_obj
      (f := ("summary", sanitizeValue (payloadSummary (.list longRows)))) ?_
    rw [sanitizeFields_eq_map]
    refine mem_map.mpr ⟨_, hsummary, ?_⟩
    dsimp only
    rw [sanitize, hkeys.1]
    rfl
  rw [spills, isHeavy_produced_artifacts, shouldSpill, decide_eq_true hlong, Bool.and_true]
  intro items h
  cases h

def evidenceOf : RunRead → List (String × Json)
  | .found run => run.evidence
  | _ => []

section

variable {key : String} {items : List Json} {fields : List (String × Json)}

theorem files_spilled_list (hkey : isSensitiveKey key = false)
    (hsame : sanitizeValue (.list items) = .list items)
    (hspill : spills key (.list items) = true) :
    ∃ run, (emptyFiles.updateRun kindCodec (runWith [(key, .list items)])).run = some run ∧
      run.evidence = [(key, payloadRef kindCodec "task_run_0" key key (.list items))] ∧
      run.approvalSnapshot = .null ∧ run.runId = "task_run_0" ∧ run.isValid = true ∧
      (emptyFiles.updateRun kindCodec (runWith [(key, .list items)])).payloads =
        [(contentRef "task_run_0" (kindCodec.digest (.list items)), .list items)] := by
  refine ⟨(runWith [(key, .list items)]).stored kindCodec, rfl, ?_, rfl, rfl,
    (TaskRun.stored_isValid ..).trans rfl, ?_⟩
  · rw [stored_single rfl hkey, hsame, lighten_spilled_list hspill]
    rfl
  · have hspilled : (runWith [(key, .list items)]).spilled = [.list items] := by
      rw [spilled_single rfl hkey rfl, hsame, spilledPayloads, if_pos hspill]
    rw [RunFiles.updateRun, hspilled]
    exact writeAll_single _ _ _

theorem read_spilled_list {files : RunFiles} (run : TaskRun)
    (hrun : files.run = some run) (hvalid : run.isValid = true) {v : Json}
    (hevidence : run.evidence = [(key, payloadRef kindCodec "task_run_0" key key v)])
    (hv : v ≠ .null)
    (hfile : files.payloads.lookup (contentRef "task_run_0" (kindCodec.digest v)) = some v) :
    evidenceOf files.getRun.sorted = [(key, v.sorted)] := by
  have hread : files.getRun = .found (run.hydrated files.payloads) := by
    rw [RunFiles.getRun, hrun, Option.map_some, RunRead.ofRun, TaskRun.hydrated_isValid,
      if_pos hvalid]
  have hhydrated : (run.hydrated files.payloads).evidence = [(key, v)] := by
    rw [TaskRun.hydrated, hevidence, hydrateFields_eq_map, map_cons, map_nil]
    dsimp only
    rw [hydrate_payloadRef hv hfile]
  rw [hread]
  change ((run.hydrated files.payloads).mapMembers Json.sorted).evidence = _
  rw [TaskRun.mapMembers, hhydrated]
  rfl

theorem spilled_again (hkey : isSensitiveKey key = false)
    (hsame : sanitizeValue (.list items) = .list items)
    (hspill : spills key (.list items) = true)
    (href : sanitizeValue (payloadRef kindCodec "task_run_0" key key (.list items)) = .obj fields)
    (hagain : spills key (.obj fields) = true) (files : RunFiles)
    (hfiles : files = emptyFiles.updateRun kindCodec (runWith [(key, .list items)])) :
    files.WritesDistinct kindCodec .compact ∧
      evidenceOf files.getRun.sorted = [(key, (Json.list items).sorted)] ∧
      evidenceOf (files.rewrite kindCodec .compact).getRun.sorted =
        [(key, (Json.obj fields).sorted)] := by
  obtain ⟨run, hrun, hevidence, hsnapshot, hid, hvalid, hpayloads⟩ :=
    files_spilled_list hkey hsame hspill
  rw [← hfiles] at hrun hpayloads
  have hspilled : run.spilled = [.obj fields] := by
    rw [spilled_single hevidence hkey hsnapshot, href, spilledPayloads, if_pos hagain]
  have hdiffer : (contentRef "task_run_0" (kindCodec.digest (.obj fields)) ==
      contentRef "task_run_0" (kindCodec.digest (.list items))) = false := by
    have hkinds : (contentRef "task_run_0" (String.ofList (List.replicate 64 '1')) ==
        contentRef "task_run_0" (String.ofList (List.replicate 64 '0'))) = false := by
      decide
    exact hkinds
  have hafter : (files.updateRun kindCodec run).payloads.lookup
      (contentRef "task_run_0" (kindCodec.digest (.obj fields))) = some (.obj fields) := by
    rw [RunFiles.updateRun, hspilled, hpayloads, hid]
    dsimp only
    rw [PayloadFiles.writeAll, foldl_cons, foldl_nil, PayloadFiles.write, lookup_cons, hdiffer]
    simp [lookup_cons, hdiffer]
  have hrewrite : files.rewrite kindCodec .compact = files.updateRun kindCodec run := by
    rw [RunFiles.rewrite, RunFiles.written, hrun]
  refine ⟨?_, ?_, ?_⟩
  · intro run' hrun' p hp
    obtain rfl : run = run' := Option.some.inj (hrun.symm.trans hrun')
    rw [hspilled] at hp
    rw [mem_singleton.mp hp, hid]
    exact ⟨_, hafter, rfl⟩
  · refine read_spilled_list run hrun hvalid hevidence (by simp) ?_
    rw [hpayloads, lookup_cons_self]
  · rw [hrewrite]
    refine read_spilled_list (run.stored kindCodec) rfl
      ((TaskRun.stored_isValid ..).trans hvalid) ?_ (by simp) hafter
    rw [stored_single hevidence hkey, href, lightenForInline, if_pos hagain, hid]

end

/-- After the run was compacted, its artifacts read as the reference to them. -/
theorem long_rows_are_lost : longFiles.WritesDistinct kindCodec .compact ∧
      (longFiles.rewrite kindCodec .compact).getRun.sorted ≠ longFiles.getRun.sorted := by
  have hkey : isSensitiveKey "produced_artifacts" = false := by decide
  obtain ⟨fields, hfields, hspill⟩ := sanitizeValue_longRef
  obtain ⟨hdistinct, hbefore, hlost⟩ :=
    spilled_again hkey sanitizeValue_longRows spills_longRows hfields hspill longFiles
      (by rw [longFiles])
  refine ⟨hdistinct, fun h => ?_⟩
  rw [h, hbefore, Json.sorted, Json.sorted] at hlost
  simp at hlost

end AIpinho.Runtime
