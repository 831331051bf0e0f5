import AIpinho.Lib.Listing
import AIpinho.Lib.Naming
import AIpinho.Lib.Runs
import AIpinho.Mission.Children
import AIpinho.Runtime.TidyDocuments

/-!
# At most one child for a candidate

The calls for one previous run and one candidate create at most one run, as long as the store
keeps the identifier of the candidate and the child is among the newest thousand runs of the
session when a call looks for it.
-/

namespace AIpinho.Mission

open List Lib AIpinho.Runtime
open AIpinho.Queue (newestFirst)

section

variable {codec : Codec} {previous : TaskRun} {candidateId : String}

def shownFields (codec : Codec) (runId path : String) (fields : List (String × Json)) :
    List (String × Json) :=
  projectFields (lightenFields codec runId path (sanitizeFields fields))

variable {name : String} {fields : List (String × Json)}

theorem textField?_shownFields (hname : isSensitiveKey name = false) (runId path : String)
    (fields : List (String × Json)) :
    textField? (shownFields codec runId path fields) name =
      (textField? fields name).map sanitizeText := by
  have hproject : ∀ fields : List (String × Json),
      textField? (projectFields fields) name = textField? fields name := by
    intro fields
    rw [projectFields_eq_map]
    exact textField?_map (fun _ v => projectPayloadRefsForModel v)
      (fun _ v => text?_projectPayloadRefsForModel v) fields name
  rw [shownFields, hproject, textField?_lightenFields, textField?_sanitizeFields hname]

theorem objectField_shownFields (codec : Codec) (hname : isSensitiveKey name = false)
    (hlight : heavyRuntimeKeys.contains name = false) {members : List (String × Json)}
    (hmembers : fields.lookup name = some (.obj members))
    (hcontent : members.lookup "content_ref" = none) (runId path : String) :
    ∃ path', objectField (shownFields codec runId path fields) name =
      shownFields codec runId path' members := by
  have hstored : (lightenFields codec runId path (sanitizeFields fields)).lookup name =
      some (.obj (lightenFields codec runId (memberPath path name) (sanitizeFields members))) := by
    have hspill : spills name (.obj (sanitizeFields members)) = false := by
      rw [spills, hlight, Bool.false_and]
    rw [lightenFields_eq_map,
      lookup_map_snd (fun key v => lightenForInline codec runId key (memberPath path key) v),
      sanitizeFields_eq_map, lookup_map_snd (fun key v => sanitize key v), hmembers,
      Option.map_some, Option.map_some, sanitize, hname, if_neg Bool.false_ne_true,
      sanitizeValue, lightenForInline, if_neg (by simp [hspill])]
  have href : isSpilledPayloadRef
      (lightenFields codec runId (memberPath path name) (sanitizeFields members)) = false := by
    rw [isSpilledPayloadRef_lightenFields, isSpilledPayloadRef_sanitizeFields,
      isSpilledPayloadRef, textField?, hcontent]
    rfl
  refine ⟨memberPath path name, ?_⟩
  rw [objectField, shownFields, projectFields_eq_map,
    lookup_map_snd (fun _ v => projectPayloadRefsForModel v), hstored, Option.map_some,
    projectPayloadRefsForModel, href, if_neg Bool.false_ne_true]
  rfl

theorem textOr_of_textField? {text : String} (h : textField? fields name = some text) :
    textOr codec fields name = text := by
  obtain ⟨v, hv, htext⟩ := Option.bind_eq_some_iff.mp h
  rw [textOr, hv]
  cases v with
  | str s =>
    obtain rfl := Option.some.inj htext
    by_cases hempty : s = ""
    · subst hempty
      rfl
    · have htruthy : (Json.str s).truthy = true := by simpa [Json.truthy] using hempty
      dsimp only
      rw [htruthy, if_pos rfl, valueText]
  | _ => cases htext

/-- An intent map that names a candidate. -/
structure NamesCandidate (candidateId : String) (intent : List (String × Json)) : Prop where
  plain : intent.lookup "content_ref" = none
  names : ∃ payload, intent.lookup "mission_continuation" = some (.obj payload) ∧
    payload.lookup "content_ref" = none ∧ payload.lookup "candidate_id" = some (.str candidateId)

theorem lookup_append_of_none {fields' : List (String × Json)} (h : fields.lookup name = none) :
    (fields ++ fields').lookup name = fields'.lookup name := by
  rw [lookup_append, h, Option.none_or]

theorem namesCandidate_intentMapFor (codec : Codec) (strip : String → String) (parent : TaskRun)
    (candidate : ContinuationCandidate) (evaluation admission contextHandoff : Option Json) :
    NamesCandidate candidate.candidateId
      (intentMapFor codec strip parent candidate evaluation admission contextHandoff) := by
  have hinherited : ∀ name, name ∉ inheritedNames → ((inheritedNames.filterMap fun key =>
      ((intentMap parent).lookup key).map fun v => (key, v)).lookup name) = none := by
    intro name hname
    rw [lookup_eq_none_iff]
    intro f hf
    obtain ⟨key, hkey, hfield⟩ := mem_filterMap.mp hf
    obtain ⟨v, -, rfl⟩ := Option.map_eq_some_iff.mp hfield
    rw [bne_iff_ne]
    rintro rfl
    exact hname hkey
  have hgoal : ∀ name, name ≠ "semantic_goal" →
      (((candidate.semanticGoal.filter (· ≠ "")).map fun goal =>
        ("semantic_goal", Json.str goal)).toList).lookup name = none := by
    intro name hname
    have hne : (name == "semantic_goal") = false := by simpa using hname
    cases candidate.semanticGoal.filter (· ≠ "") with
    | none => rfl
    | some goal =>
      rw [Option.map_some, Option.toList_some, lookup_cons, hne]
      rfl
  constructor
  · rw [intentMapFor, append_assoc, lookup_append_of_none (hinherited _ (by decide)),
      lookup_append_of_none (hgoal _ (by decide))]
    simp [lookup_cons]
  · refine ⟨continuationPayload codec strip parent candidate evaluation admission ++
      (contextHandoff.map fun v => ("context_handoff", v)).toList, ?_, ?_, ?_⟩
    · rw [intentMapFor, append_assoc, lookup_append_of_none (hinherited _ (by decide)),
        lookup_append_of_none (hgoal _ (by decide))]
      simp only [lookup_cons]
      rfl
    · have hrepair : ∀ c : Bool, ∀ v : Json, (if c = true then [("evidence_repair", v)]
          else []).lookup "content_ref" = none := by
        intro c v
        cases c <;> rfl
      rw [continuationPayload]
      cases evaluation <;> cases admission <;> cases contextHandoff <;>
        simp [lookup_append, lookup_cons, hrepair]
    · rw [continuationPayload]
      simp only [cons_append, lookup_cons]
      rfl

theorem isChild_projected_stored {run : TaskRun} {intent : List (String × Json)}
    (hparent : textField? run.evidence "parent_task_id" = some (parentRef previous))
    (hintent : run.evidence.lookup "intent_map" = some (.obj intent))
    (hnames : NamesCandidate candidateId intent)
    (hparentText : sanitizeText (parentRef previous) = parentRef previous)
    (hcandidateText : sanitizeText candidateId = candidateId) :
    IsChild codec previous candidateId (run.stored codec).projected := by
  have hevidence : (run.stored codec).projected.evidence =
      shownFields codec run.runId "" run.evidence := rfl
  obtain ⟨payload, hpayload, hplain, hid⟩ := hnames.names
  constructor
  · rw [parentTaskId, hevidence, textField?_shownFields (by decide), hparent, Option.map_some,
      hparentText, Option.getD_some, parentRef]
    split
    · rename_i taskId htask
      split
      · exact mem_cons_of_mem _ mem_cons_self
      · rw [htask]
        exact mem_cons_self
    · exact mem_cons_of_mem _ mem_cons_self
  · obtain ⟨path, hpath⟩ := objectField_shownFields codec (by decide) (by decide)
      hintent hnames.plain run.runId ""
    obtain ⟨path', hpath'⟩ := objectField_shownFields codec (by decide) (by decide)
      hpayload hplain run.runId path
    rw [continuation, intentMap, hevidence, hpath, hpath']
    apply textOr_of_textField?
    rw [textField?_shownFields (by decide), textField?, hid]
    exact congrArg some hcandidateText

end

def Stores (runs : RunTable) (runId : String) (run : TaskRun) : Prop :=
  ∃ files, runs.get? runId = some files ∧ files.run = some run

variable (codec : Codec)

def HoldsChild (previous : TaskRun) (candidateId : String) (runs : RunTable) (runId : String) :
    Prop :=
  ∃ run, Stores runs runId run ∧ IsChild codec previous candidateId run.projected

def Shown (directory : List String) (session : Option String) (runs : RunTable)
    (runId : String) : Prop :=
  ∃ run, (runId, run) ∈ (candidates directory session runs).take 1000 ∧ run.isValid = true

section

variable {codec : Codec} {runs runs' : RunTable} {runId : String} {run previous : TaskRun}
  {candidateId : String} {directory : List String}

theorem getRun_eq_missing_iff : getRun runs runId = .missing ↔ ∀ run, ¬Stores runs runId run := by
  constructor
  · rintro h run ⟨files, hfiles, hrun⟩
    rw [getRun, hfiles] at h
    dsimp only at h
    rw [RunFiles.getRun, hrun, Option.map_some, RunRead.ofRun] at h
    split at h <;> cases h
  · intro h
    rw [getRun]
    cases hfiles : runs.get? runId with
    | none => rfl
    | some files =>
      cases hrun : files.run with
      | none =>
        dsimp only
        rw [RunFiles.getRun, hrun]
        rfl
      | some run => exact absurd ⟨files, hfiles, hrun⟩ (h run)

theorem stores_of_getRun (h : getRun runs runId = .found run) :
    ∃ saved payloads, Stores runs runId saved ∧ run = saved.hydrated payloads := by
  rw [getRun] at h
  cases hfiles : runs.get? runId with
  | none =>
    rw [hfiles] at h
    cases h
  | some files =>
    rw [hfiles] at h
    dsimp only at h
    cases hrun : files.run with
    | none =>
      rw [RunFiles.getRun, hrun] at h
      cases h
    | some saved =>
      rw [RunFiles.getRun, hrun, Option.map_some, RunRead.ofRun] at h
      split at h
      · exact ⟨saved, files.payloads, ⟨files, hfiles, hrun⟩, (RunRead.found.inj h).symm⟩
      · cases h

theorem getRun_of_stores (h : Stores runs runId run) (hvalid : run.isValid = true) :
    ∃ payloads, getRun runs runId = .found (run.hydrated payloads) := by
  obtain ⟨files, hfiles, hrun⟩ := h
  refine ⟨files.payloads, ?_⟩
  rw [getRun, hfiles]
  dsimp only
  rw [RunFiles.getRun, hrun, Option.map_some, RunRead.ofRun, TaskRun.hydrated_isValid,
    if_pos hvalid]

theorem Stores.inj {run' : TaskRun} (h : Stores runs runId run) (h' : Stores runs runId run') :
    run = run' := by
  obtain ⟨files, hfiles, hrun⟩ := h
  obtain ⟨files', hfiles', hrun'⟩ := h'
  obtain rfl := Option.some.inj (hfiles.symm.trans hfiles')
  exact Option.some.inj (hrun.symm.trans hrun')

theorem stores_congr (h : runs'.get? runId = runs.get? runId) :
    Stores runs' runId run ↔ Stores runs runId run := by
  rw [Stores, Stores, h]

theorem getRun_congr (h : runs'.get? runId = runs.get? runId) :
    getRun runs' runId = getRun runs runId := by
  rw [getRun, getRun, h]

theorem get?_updateRun_of_ne (h : runId ≠ run.runId) :
    (updateRun codec run runs).get? runId = runs.get? runId := Table.get?_insert_of_ne h _ _

theorem stores_updateRun : Stores (updateRun codec run runs) run.runId (run.stored codec) :=
  ⟨_, Table.get?_insert_self _ _ _, rfl⟩

theorem mem_candidates {entry : String × TaskRun} {session : Option String}
    (h : entry ∈ candidates directory session runs) : Stores runs entry.1 entry.2 := by
  rw [candidates, Queue.newestFirst, mem_insertionSort, mem_filterMap] at h
  obtain ⟨runId, -, hentry⟩ := h
  obtain ⟨run, hrun, rfl⟩ := Option.map_eq_some_iff.mp hentry
  obtain ⟨files, hfiles, hcandidate⟩ := Option.bind_eq_some_iff.mp hrun
  exact ⟨files, hfiles, (Option.filter_eq_some_iff.mp hcandidate).1⟩

theorem mem_listRuns {entry : String × TaskRun} {session : Option String} :
    entry ∈ listRuns directory session 1000 runs ↔
      ∃ run, (entry.1, run) ∈ (candidates directory session runs).take 1000 ∧
        run.isValid = true ∧ entry.2 = run.projected := by
  have hlength : ((((candidates directory session runs).take 1000).filter (·.2.isValid)).map
      fun entry => (entry.1, entry.2.projected)).length ≤ 1000 := by
    rw [length_map]
    exact le_trans (length_filter_le _ _) (length_take_le _ _)
  have hmem : entry ∈ listRuns directory session 1000 runs ↔
      entry ∈ (((candidates directory session runs).take 1000).filter (·.2.isValid)).map
        fun entry => (entry.1, entry.2.projected) := by
    rw [listRuns]
    have hlimit : max 1 (min 1000 1000) = 1000 := by decide
    rw [hlimit, take_of_length_le, Queue.newestFirst, mem_insertionSort]
    rw [Queue.newestFirst, length_insertionSort]
    exact hlength
  rw [hmem, mem_map]
  constructor
  · rintro ⟨found, hfound, rfl⟩
    obtain ⟨hwindow, hvalid⟩ := mem_filter.mp hfound
    exact ⟨found.2, hwindow, hvalid, rfl⟩
  · rintro ⟨run, hwindow, hvalid, hrun⟩
    exact ⟨(entry.1, run), mem_filter.mpr ⟨hwindow, hvalid⟩, Prod.ext rfl hrun.symm⟩

theorem holdsChild_of_existingChild {existing : TaskRun}
    (h : existingChild codec directory previous candidateId runs = some existing) :
    ∃ runId saved, Stores runs runId saved ∧
      IsChild codec previous candidateId saved.projected ∧ existing.runId = saved.runId := by
  obtain ⟨entry, hentry, hexisting⟩ := Option.map_eq_some_iff.mp h
  obtain ⟨saved, hwindow, hvalid, hprojected⟩ := mem_listRuns.mp (mem_of_find?_eq_some hentry)
  have hfound := find?_some (p := fun entry : String × TaskRun =>
    decide (IsChild codec previous candidateId entry.2)) hentry
  have hchild := of_decide_eq_true hfound
  have hstores : Stores runs entry.1 saved := mem_candidates (mem_of_mem_take hwindow)
  refine ⟨entry.1, saved, hstores, hprojected ▸ hchild, ?_⟩
  obtain ⟨payloads, hread⟩ := getRun_of_stores hstores hvalid
  rw [hread] at hexisting
  rw [← hexisting]
  rfl

theorem existingChild_of_shown (hchild : HoldsChild codec previous candidateId runs runId)
    (hshown : Shown directory (sessionId previous) runs runId) :
    ∃ existing, existingChild codec directory previous candidateId runs = some existing := by
  obtain ⟨run, hstores, hchild⟩ := hchild
  obtain ⟨run', hwindow, hvalid⟩ := hshown
  obtain rfl : run = run' := hstores.inj (mem_candidates (mem_of_mem_take hwindow))
  have hlisted : (runId, run.projected) ∈ listRuns directory (sessionId previous) 1000 runs :=
    mem_listRuns.mpr ⟨run, hwindow, hvalid, rfl⟩
  rw [existingChild]
  cases hfind : (listRuns directory (sessionId previous) 1000 runs).find? fun entry =>
      decide (IsChild codec previous candidateId entry.2) with
  | none =>
    have hnot := find?_eq_none.mp hfind _ hlisted
    exact absurd (decide_eq_true hchild) hnot
  | some entry => exact ⟨_, rfl⟩

theorem existingChild_eq_none
    (h : ∀ runId, HoldsChild codec previous candidateId runs runId →
      ¬Shown directory (sessionId previous) runs runId) :
    existingChild codec directory previous candidateId runs = none := by
  rw [existingChild, Option.map_eq_none_iff, find?_eq_none]
  intro entry hentry hchild
  obtain ⟨run, hwindow, hvalid, hrun⟩ := mem_listRuns.mp hentry
  rw [hrun] at hchild
  exact h entry.1 ⟨run, mem_candidates (mem_of_mem_take hwindow), of_decide_eq_true hchild⟩
    ⟨run, hwindow, hvalid⟩

end

/-- A call added the child of a previous run and a candidate, and nothing else. -/
structure Adds (codec : Codec) (previous : TaskRun) (candidateId runId : String)
    (runs runs' : RunTable) : Prop where
  fresh : getRun runs runId = .missing
  /-- The other directories are left alone. -/
  others : ∀ other, other ≠ runId → runs'.get? other = runs.get? other
  child : ∃ run, Stores runs' runId run ∧ run.runId = runId ∧
    IsChild codec previous candidateId run.projected

/-- The run is stored under its identifier, with the text of its task sanitized. -/
def SavedTexts (runs : RunTable) (runId : String) : Prop :=
  ∀ run, Stores runs runId run → run.runId = runId ∧ run.taskId.map sanitizeText = run.taskId

section

variable {codec : Codec} {strip : String → String} {runs runs' : RunTable} {previousRunId : String}
  {previous : TaskRun} {candidate : ContinuationCandidate} {answers : Answers}
  {result : Except String Materialization}

theorem sanitizeText_parentRef (hid : sanitizeText previousRunId = previousRunId)
    (hsaved : SavedTexts runs previousRunId)
    (hprevious : getRun runs previousRunId = .found previous) :
    sanitizeText (parentRef previous) = parentRef previous := by
  obtain ⟨saved, payloads, hstores, rfl⟩ := stores_of_getRun hprevious
  obtain ⟨hrunId, htaskId⟩ := hsaved saved hstores
  have hrun : (saved.hydrated payloads).runId = previousRunId := hrunId
  have htask : (saved.hydrated payloads).taskId.map sanitizeText =
      (saved.hydrated payloads).taskId := htaskId
  rw [parentRef]
  split
  · rename_i taskId htaskEq
    rw [htaskEq, Option.map_some, Option.some.injEq] at htask
    split
    · rw [hrun, hid]
    · exact htask
  · rw [hrun, hid]

theorem createRun_eq_ok {run : TaskRun} (h : createRun codec run runs = .ok runs') :
    getRun runs run.runId = .missing ∧ runs' = updateRun codec run runs := by
  rw [createRun] at h
  split at h
  · cases h
  · cases h
  · rename_i hmissing
    exact ⟨hmissing, (Except.ok.inj h).symm⟩

variable {before : RunTable}

theorem Adds.updateRun {runId : String} {run : TaskRun} (hbefore : getRun before runId = .missing)
    (hothers : ∀ other, other ≠ runId → runs.get? other = before.get? other)
    (hrunId : run.runId = runId)
    (hparent : textField? run.evidence "parent_task_id" = some (parentRef previous))
    (hintent : ∃ intent, run.evidence.lookup "intent_map" = some (.obj intent) ∧
      NamesCandidate candidate.candidateId intent)
    (hparentText : sanitizeText (parentRef previous) = parentRef previous)
    (hcandidateText : sanitizeText candidate.candidateId = candidate.candidateId) :
    Adds codec previous candidate.candidateId runId before (updateRun codec run runs) := by
  subst hrunId
  obtain ⟨intent, hintent, hnames⟩ := hintent
  refine ⟨hbefore, fun other hother => ?_, run.stored codec, stores_updateRun, rfl, ?_⟩
  · rw [get?_updateRun_of_ne hother]
    exact hothers other hother
  · exact isChild_projected_stored hparent hintent hnames hparentText hcandidateText

theorem textField?_childMembers (previous : TaskRun) (intent others : List (String × Json)) :
    textField? (childMembers previous intent others) "parent_task_id" =
      some (parentRef previous) := by
  simp [childMembers, textField?, Json.text?]

theorem lookup_childMembers (previous : TaskRun) (intent others : List (String × Json)) :
    (childMembers previous intent others).lookup "intent_map" = some (.obj intent) := by
  simp [childMembers, lookup_cons]

theorem adds_blockReserved {identity : Identity} {workspace : Option String}
    {intent : List (String × Json)} (reason : String) (contextHandoff : Option Json)
    (hbefore : getRun before identity.runId = .missing)
    (hothers : ∀ other, other ≠ identity.runId → runs.get? other = before.get? other)
    (hparentText : sanitizeText (parentRef previous) = parentRef previous)
    (hcandidateText : sanitizeText candidate.candidateId = candidate.candidateId) :
    Adds codec previous candidate.candidateId identity.runId before
      (blockReserved codec strip candidate answers
        (reservedRun previous candidate identity workspace intent) reason contextHandoff runs) := by
  have hcreated : TaskRunStatus.blocked ∈ TaskRunStatus.created.targets := by decide
  have hblocked : TaskRunStatus.blocked ∈
      (reservedRun previous candidate identity workspace intent).status.targets := hcreated
  rw [blockReserved]
  dsimp only
  rw [if_pos hblocked]
  refine Adds.updateRun hbefore hothers rfl ?_ ?_ hparentText hcandidateText
  · dsimp only [TaskRun.moved, reservedRun]
    rw [textField?, Json.lookup_setField, if_neg (by decide)]
    exact textField?_childMembers previous intent _
  · exact ⟨_, (Json.lookup_setField _ _ _ _).trans (if_pos rfl),
      namesCandidate_intentMapFor codec strip _ candidate _ _ _⟩

theorem adds_enrichRun {reserved : TaskRun} {intent : List (String × Json)}
    {enrichment : Except String Enrichment} {made : Except String TaskRun}
    (hadds : Adds codec previous candidate.candidateId reserved.runId before runs)
    (hnames : NamesCandidate candidate.candidateId intent)
    (hparentText : sanitizeText (parentRef previous) = parentRef previous)
    (hcandidateText : sanitizeText candidate.candidateId = candidate.candidateId)
    (h : enrichRun codec candidate previous reserved intent enrichment runs = (made, runs')) :
    Adds codec previous candidate.candidateId reserved.runId before runs' := by
  rw [enrichRun] at h
  split at h
  · obtain rfl := congrArg Prod.snd h
    exact hadds
  · obtain rfl := congrArg Prod.snd h
    exact hadds
  · split at h
    · obtain rfl := congrArg Prod.snd h
      exact hadds
    · split at h
      · obtain rfl := congrArg Prod.snd h
        exact hadds
      · split at h
        · obtain rfl := congrArg Prod.snd h
          exact hadds
        · rename_i latest _ _ _ _ enrichment
          have hsaved : runs' = updateRun codec
              (enrichedRun candidate previous reserved latest intent enrichment) runs := by
            dsimp only at h
            split at h <;> exact (congrArg Prod.snd h).symm
          rw [hsaved]
          exact Adds.updateRun hadds.fresh hadds.others rfl
            (textField?_childMembers previous intent _)
            ⟨intent, lookup_childMembers previous intent _, hnames⟩ hparentText hcandidateText

/-- A reservation adds the child under a new identifier, or leaves the runs. -/
theorem reserveChild_cases {workspace : Option String}
    (hparentText : sanitizeText (parentRef previous) = parentRef previous)
    (hcandidateText : sanitizeText candidate.candidateId = candidate.candidateId)
    (h : reserveChild codec strip previous candidate answers workspace runs = (result, runs')) :
    (runs' = runs ∧ ∀ identity, answers.identity = .ok identity →
        getRun runs identity.runId ≠ .missing) ∨
      ∃ identity, answers.identity = .ok identity ∧
        Adds codec previous candidate.candidateId identity.runId runs runs' := by
  rw [reserveChild] at h
  split at h
  · rename_i e he
    exact .inl ⟨(congrArg Prod.snd h).symm, fun identity hok => by rw [he] at hok; cases hok⟩
  · rename_i identity hidentity
    dsimp only at h
    split at h
    · rename_i e he
      refine .inl ⟨(congrArg Prod.snd h).symm, fun identity' hok hmissing => ?_⟩
      obtain rfl := Except.ok.inj (hidentity.symm.trans hok)
      rw [createRun, reservedRun, hmissing] at he
      cases he
    · rename_i made hmade
      refine .inr ⟨identity, hidentity, ?_⟩
      obtain ⟨hmissing, hsaved⟩ := createRun_eq_ok hmade
      have hadds : Adds codec previous candidate.candidateId identity.runId runs made := by
        rw [hsaved]
        exact Adds.updateRun hmissing (fun _ _ => rfl) rfl (textField?_childMembers previous _ _)
          ⟨_, lookup_childMembers previous _ _,
            namesCandidate_intentMapFor codec strip previous candidate none none none⟩
          hparentText hcandidateText
      split at h
      · obtain rfl := congrArg Prod.snd h
        exact adds_blockReserved _ _ hmissing hadds.others hparentText hcandidateText
      · split at h
        · obtain rfl := congrArg Prod.snd h
          exact adds_blockReserved _ _ hmissing hadds.others hparentText hcandidateText
        · have hnames := namesCandidate_intentMapFor codec strip previous candidate
            (some answers.evaluation.dump) (some answers.admission.dump) answers.contextHandoff
          split at h <;> rename_i henrich
          · obtain rfl := congrArg Prod.snd h
            exact adds_enrichRun hadds hnames hparentText hcandidateText henrich
          · obtain rfl := congrArg Prod.snd h
            exact adds_enrichRun hadds hnames hparentText hcandidateText henrich

theorem materializeNextRun_cases (hid : sanitizeText previousRunId = previousRunId)
    (hcandidateText : sanitizeText candidate.candidateId = candidate.candidateId)
    (hsaved : SavedTexts runs previousRunId)
    (h : materializeNextRun codec strip previousRunId candidate answers runs = (result, runs')) :
    runs' = runs ∨ ∃ previous identity, getRun runs previousRunId = .found previous ∧
      existingChild codec answers.directory previous candidate.candidateId runs = none ∧
      answers.identity = .ok identity ∧
      Adds codec previous candidate.candidateId identity.runId runs runs' := by
  rw [materializeNextRun] at h
  dsimp only at h
  split at h
  · exact .inl (congrArg Prod.snd h).symm
  · split at h
    · exact .inl (congrArg Prod.snd h).symm
    · exact .inl (congrArg Prod.snd h).symm
    · rename_i previous hprevious
      split at h
      · exact .inl (congrArg Prod.snd h).symm
      · split at h
        · exact .inl (congrArg Prod.snd h).symm
        · rename_i hnone
          split at h
          · exact .inl (congrArg Prod.snd h).symm
          · have hparentText := sanitizeText_parentRef hid hsaved hprevious
            rcases reserveChild_cases hparentText hcandidateText h with ⟨hsame, -⟩ | hadds
            · exact .inl hsame
            · obtain ⟨identity, hidentity, hadds⟩ := hadds
              exact .inr ⟨previous, identity, hprevious, hnone, hidentity, hadds⟩

/-- A call that finds a child returns it and leaves the store as it is. -/
theorem materializeNextRun_of_existing (strip : String → String) {existing : TaskRun}
    (hprevious : getRun runs previousRunId = .found previous)
    (hexisting : existingChild codec answers.directory previous candidate.candidateId runs =
      some existing) :
    ∃ m, materializeNextRun codec strip previousRunId candidate answers runs = (.ok m, runs) ∧
      (answers.decision.action = "continue_to_next_phase" →
        answers.decision.hasChildContract = true →
        m.childTaskRunId = some existing.runId ∧ m.reusedExistingChild = true) := by
  rw [materializeNextRun]
  dsimp only
  by_cases haction : answers.decision.action ≠ "continue_to_next_phase"
  · rw [if_pos haction]
    exact ⟨_, rfl, fun h => absurd h haction⟩
  · rw [if_neg haction, hprevious]
    dsimp only
    by_cases hcontract : (!answers.decision.hasChildContract) = true
    · rw [if_pos hcontract]
      refine ⟨_, rfl, fun _ h => ?_⟩
      rw [h] at hcontract
      cases hcontract
    · rw [if_neg hcontract, hexisting]
      exact ⟨_, rfl, fun _ _ => ⟨rfl, rfl⟩⟩

end

/-- The store, and the children that calls have created so far. -/
structure ChildState where
  runs : RunTable
  created : List String

/-- A step of a sequence. -/
inductive ChildOp
  | create (run : TaskRun)
  /-- `materialize_next_run` is called. -/
  | materialize (answers : Answers)

def hasRun (runs : RunTable) (runId : String) : Bool :=
  match getRun runs runId with
  | .missing => false
  | _ => true

def newRuns (answers : Answers) (before after : RunTable) : List String :=
  match answers.identity with
  | .ok identity =>
    if !hasRun before identity.runId && hasRun after identity.runId then [identity.runId] else []
  | .error _ => []

def childStep (strip : String → String) (previousRunId : String)
    (candidate : ContinuationCandidate) (s : ChildState) : ChildOp → ChildState
  | .create run =>
    match createRun codec run s.runs with
    | .ok runs => { s with runs := runs }
    | .error _ => s
  | .materialize answers =>
    let runs := (materializeNextRun codec strip previousRunId candidate answers s.runs).2
    ⟨runs, s.created ++ newRuns answers s.runs runs⟩

/-- No child is created elsewhere, and the listing shows the child that there is. -/
def SeesChildren (previousRunId : String) (candidate : ContinuationCandidate) (s : ChildState) :
    ChildOp → Prop
  | .create run => ∀ previous, getRun s.runs previousRunId = .found previous →
    ¬IsChild codec previous candidate.candidateId (run.stored codec).projected
  | .materialize answers => ∀ previous, getRun s.runs previousRunId = .found previous →
    ∀ runId, HoldsChild codec previous candidate.candidateId s.runs runId →
      Shown answers.directory (sessionId previous) s.runs runId

def OneChild (previousRunId : String) (candidate : ContinuationCandidate) (s : ChildState) : Prop :=
  s.created = [] ∨ ∃ previous runId, getRun s.runs previousRunId = .found previous ∧
    s.created = [runId] ∧ (∃ run, Stores s.runs runId run ∧ run.runId = runId ∧
      IsChild codec previous candidate.candidateId run.projected) ∧
    ∀ other, HoldsChild codec previous candidate.candidateId s.runs other → other = runId

section

variable {codec : Codec} {strip : String → String} {previousRunId : String}
  {candidate : ContinuationCandidate} {s : ChildState} {op : ChildOp}

variable {runId : String}

variable {runs : RunTable} {run : TaskRun}

theorem hasRun_eq_true_of_stores (h : Stores runs runId run) : hasRun runs runId = true := by
  rw [hasRun]
  split
  · rename_i hmissing
    exact absurd h (getRun_eq_missing_iff.mp hmissing run)
  · rfl

theorem newRuns_same (answers : Answers) (runs : RunTable) : newRuns answers runs runs = [] := by
  rw [newRuns]
  split
  · rw [Bool.not_and_self]
    rfl
  · rfl

theorem newRuns_of_adds (answers : Answers) {identity : Identity} {runs' : RunTable}
    {previous : TaskRun} (hidentity : answers.identity = .ok identity)
    (hadds : Adds codec previous candidate.candidateId identity.runId runs runs') :
    newRuns answers runs runs' = [identity.runId] := by
  obtain ⟨run, hstores, -⟩ := hadds.child
  have hbefore : hasRun runs identity.runId = false := by
    rw [hasRun, hadds.fresh]
  rw [newRuns, hidentity]
  dsimp only
  rw [hbefore, hasRun_eq_true_of_stores hstores]
  rfl

theorem OneChild.returned (hone : OneChild codec previousRunId candidate s)
    (hcreated : runId ∈ s.created) {answers : Answers}
    (hsees : SeesChildren codec previousRunId candidate s (.materialize answers)) :
    ∃ m, materializeNextRun codec strip previousRunId candidate answers s.runs = (.ok m, s.runs) ∧
      (answers.decision.action = "continue_to_next_phase" →
        answers.decision.hasChildContract = true →
        m.childTaskRunId = some runId ∧ m.reusedExistingChild = true) := by
  rcases hone with hnone |
    ⟨previous, child, hprevious, hlist, ⟨run, hstores, hrunId, hchild⟩, honly⟩
  · rw [hnone] at hcreated
    cases hcreated
  · rw [hlist, mem_singleton] at hcreated
    subst hcreated
    obtain ⟨existing, hexisting⟩ := existingChild_of_shown ⟨run, hstores, hchild⟩
      (hsees previous hprevious runId ⟨run, hstores, hchild⟩)
    obtain ⟨found, saved, hsaved, hsavedChild, hid⟩ := holdsChild_of_existingChild hexisting
    obtain rfl := honly found ⟨saved, hsaved, hsavedChild⟩
    obtain rfl := hsaved.inj hstores
    obtain ⟨m, hm, hresult⟩ := materializeNextRun_of_existing strip hprevious hexisting
    refine ⟨m, hm, fun haction hcontract => ?_⟩
    obtain ⟨hchildId, hreused⟩ := hresult haction hcontract
    exact ⟨by rw [hchildId, hid, hrunId], hreused⟩

theorem getRun_ne {other : String} (hmissing : getRun runs other = .missing)
    (h : getRun runs runId = .found run) : runId ≠ other := by
  rintro rfl
  rw [hmissing] at h
  cases h

theorem stores_ne {other : String} (hmissing : getRun runs other = .missing)
    (h : Stores runs runId run) : runId ≠ other := by
  rintro rfl
  exact getRun_eq_missing_iff.mp hmissing run h

theorem holdsChild_congr {runs' : RunTable} {previous : TaskRun}
    (h : runs'.get? runId = runs.get? runId) :
    HoldsChild codec previous candidate.candidateId runs' runId ↔
      HoldsChild codec previous candidate.candidateId runs runId := by
  constructor
  · rintro ⟨run, hstores, hchild⟩
    exact ⟨run, (stores_congr h).mp hstores, hchild⟩
  · rintro ⟨run, hstores, hchild⟩
    exact ⟨run, (stores_congr h).mpr hstores, hchild⟩

theorem oneChild_create (hsaved : SavedTexts s.runs previousRunId)
    (hone : OneChild codec previousRunId candidate s)
    (hother : SeesChildren codec previousRunId candidate s (.create run)) :
    SavedTexts (childStep codec strip previousRunId candidate s (.create run)).runs previousRunId ∧
      OneChild codec previousRunId candidate
        (childStep codec strip previousRunId candidate s (.create run)) := by
  rw [childStep]
  cases hcreate : createRun codec run s.runs with
  | error e => exact ⟨hsaved, hone⟩
  | ok runs =>
    obtain ⟨hmissing, rfl⟩ := createRun_eq_ok hcreate
    have hkept : ∀ runId, runId ≠ run.runId →
        (updateRun codec run s.runs).get? runId = s.runs.get? runId :=
      fun runId h => get?_updateRun_of_ne h
    constructor
    · intro found hfound
      by_cases hid : previousRunId = run.runId
      · subst hid
        obtain rfl := hfound.inj stores_updateRun
        refine ⟨rfl, ?_⟩
        change (run.taskId.map sanitizeText).map sanitizeText = run.taskId.map sanitizeText
        rw [Option.map_map]
        exact congrArg (run.taskId.map ·) (funext sanitizeText_sanitizeText)
      · exact hsaved found ((stores_congr (hkept _ hid)).mp hfound)
    · rcases hone with hnone | ⟨previous, runId, hprevious, hlist, ⟨child, hstores, hchild⟩, honly⟩
      · exact .inl hnone
      · have hpreviousId := getRun_ne hmissing hprevious
        have hrunId := stores_ne hmissing hstores
        refine .inr ⟨previous, runId, (getRun_congr (hkept _ hpreviousId)).trans hprevious, hlist,
          ⟨child, (stores_congr (hkept _ hrunId)).mpr hstores, hchild⟩, fun other hholds => ?_⟩
        by_cases hid : other = run.runId
        · subst hid
          obtain ⟨found, hfound, hfoundChild⟩ := hholds
          obtain rfl := hfound.inj stores_updateRun
          exact absurd hfoundChild (hother previous hprevious)
        · exact honly other ((holdsChild_congr (hkept _ hid)).mp hholds)

/-- A materialisation that sees the children makes no second one. -/
theorem oneChild_materialize {answers : Answers} (hid : sanitizeText previousRunId = previousRunId)
    (hcandidateText : sanitizeText candidate.candidateId = candidate.candidateId)
    (hsaved : SavedTexts s.runs previousRunId)
    (hone : OneChild codec previousRunId candidate s)
    (hsees : SeesChildren codec previousRunId candidate s (.materialize answers)) :
    SavedTexts (childStep codec strip previousRunId candidate s (.materialize answers)).runs
        previousRunId ∧
      OneChild codec previousRunId candidate
        (childStep codec strip previousRunId candidate s (.materialize answers)) := by
  rw [childStep]
  generalize hcall : materializeNextRun codec strip previousRunId candidate answers s.runs = made
  obtain ⟨result, runs⟩ := made
  rcases materializeNextRun_cases hid hcandidateText hsaved hcall with
    hsame | ⟨previous, identity, hprevious, hnone, hidentity, hadds⟩
  · subst hsame
    dsimp only
    rw [newRuns_same, append_nil]
    exact ⟨hsaved, hone⟩
  · have hnoChild : ∀ runId, ¬HoldsChild codec previous candidate.candidateId s.runs runId := by
      intro runId hholds
      obtain ⟨existing, hexisting⟩ :=
        existingChild_of_shown hholds (hsees previous hprevious runId hholds)
      rw [hnone] at hexisting
      cases hexisting
    have hcreated : s.created = [] := by
      rcases hone with hempty | ⟨previous', runId, hprevious', -, ⟨run, hstores, -, hchild⟩, -⟩
      · exact hempty
      · obtain rfl := RunRead.found.inj (hprevious.symm.trans hprevious')
        exact absurd ⟨run, hstores, hchild⟩ (hnoChild runId)
    obtain ⟨run, hstores, hchild⟩ := hadds.child
    have hnew := newRuns_of_adds _ hidentity hadds
    have hpreviousId := getRun_ne hadds.fresh hprevious
    have hkept := hadds.others previousRunId hpreviousId
    constructor
    · intro found hfound
      exact hsaved found ((stores_congr hkept).mp hfound)
    · refine .inr ⟨previous, identity.runId, (getRun_congr hkept).trans hprevious, ?_,
        ⟨run, hstores, hchild⟩, fun other hholds => ?_⟩
      · dsimp only
        rw [hcreated, hnew, nil_append]
      · by_contra hne
        exact hnoChild other ((holdsChild_congr (hadds.others other hne)).mp hholds)

end

def afterSteps (strip : String → String) (previousRunId : String)
    (candidate : ContinuationCandidate) (runs : RunTable) (ops : List ChildOp) : ChildState :=
  Lib.run (childStep codec strip previousRunId candidate) ⟨runs, []⟩ ops

/-- The calls for one previous run and one candidate, between which other runs are created,
create at most one child, and every later call returns it: in every sequence in which each
call sees the children that are there among the newest thousand runs of the session. -/
theorem one_child_per_candidate (codec : Codec) (strip : String → String)
    (previousRunId : String) (hid : sanitizeText previousRunId = previousRunId)
    (candidate : ContinuationCandidate)
    (hcandidateText : sanitizeText candidate.candidateId = candidate.candidateId)
    (runs : RunTable) (hsaved : SavedTexts runs previousRunId) (ops : List ChildOp)
    (hops : Along (childStep codec strip previousRunId candidate)
      (SeesChildren codec previousRunId candidate) ⟨runs, []⟩ ops) :
    (afterSteps codec strip previousRunId candidate runs ops).created.length ≤ 1 ∧
      ∀ before answers after, ops = before ++ .materialize answers :: after →
        let s := afterSteps codec strip previousRunId candidate runs before
        ∀ runId ∈ s.created, ∃ m,
          materializeNextRun codec strip previousRunId candidate answers s.runs = (.ok m, s.runs) ∧
          (answers.decision.action = "continue_to_next_phase" →
            answers.decision.hasChildContract = true →
            m.childTaskRunId = some runId ∧ m.reusedExistingChild = true) := by
  have hinvariant : ∀ ops, Along (childStep codec strip previousRunId candidate)
      (SeesChildren codec previousRunId candidate) ⟨runs, []⟩ ops →
      SavedTexts (afterSteps codec strip previousRunId candidate runs ops).runs previousRunId ∧
        OneChild codec previousRunId candidate
          (afterSteps codec strip previousRunId candidate runs ops) := by
    intro ops hops
    refine run_invariant (P := fun s : ChildState =>
      SavedTexts s.runs previousRunId ∧ OneChild codec previousRunId candidate s)
      (fun s op hP hop => ?_) ⟨hsaved, .inl rfl⟩ hops
    cases op with
    | create run => exact oneChild_create hP.1 hP.2 hop
    | materialize answers => exact oneChild_materialize hid hcandidateText hP.1 hP.2 hop
  constructor
  · rcases (hinvariant ops hops).2 with hnone | ⟨-, runId, -, hlist, -⟩
    · rw [hnone]
      exact Nat.zero_le 1
    · rw [hlist]
      exact le_refl 1
  · rintro before answers after rfl
    dsimp only
    intro runId hcreated
    have hbefore := hinvariant before (Along.of_append_left hops)
    exact hbefore.2.returned hcreated (Along.of_append hops)

section

variable {codec : Codec} {strip : String → String} {runs : RunTable} {runId previousRunId : String}
  {run previous : TaskRun} {directory : List String} {session : Option String}
  {candidate : ContinuationCandidate} {answers : Answers} {identity : Identity}

theorem shown_of_few (hdirectory : runId ∈ directory)
    (hstores : ∃ files, runs.get? runId = some files ∧ candidateOf session files = some run)
    (hvalid : run.isValid = true) (hfew : (candidates directory session runs).length ≤ 1000) :
    Shown directory session runs runId := by
  obtain ⟨files, hfiles, hcandidate⟩ := hstores
  refine ⟨run, ?_, hvalid⟩
  rw [take_of_length_le hfew, candidates, Queue.newestFirst, mem_insertionSort, mem_filterMap]
  refine ⟨runId, hdirectory, ?_⟩
  rw [hfiles, Option.bind_some, hcandidate, Option.map_some]

theorem not_shown_of_newer (hstores : Stores runs runId run)
    (hnewer : 1000 ≤ ((candidates directory session runs).filter fun entry =>
      run.createdAt < entry.2.createdAt).length) : ¬Shown directory session runs runId := by
  rintro ⟨run', hwindow, -⟩
  obtain rfl : run = run' := hstores.inj (mem_candidates (mem_of_mem_take hwindow))
  have hperm := (perm_insertionSort
    (fun a b : String × TaskRun => b.2.createdAt ≤ a.2.createdAt)
    (directory.filterMap fun runId =>
      ((runs.get? runId).bind (candidateOf session)).map (runId, ·))).filter
        fun entry => decide (run.createdAt < entry.2.createdAt)
  have hcount := hperm.length_eq
  rw [candidates, Queue.newestFirst, hcount] at hnewer
  rw [candidates, Queue.newestFirst] at hwindow
  have hlt := lt_of_mem_take_sorted (fun entry : String × TaskRun => entry.2.createdAt)
    run.createdAt 1000 hnewer _ hwindow
  exact absurd hlt (lt_irrefl _)

theorem newRuns_of_not_found (codec : Codec) (strip : String → String) (answers : Answers)
    (hid : sanitizeText previousRunId = previousRunId)
    (hcandidateText : sanitizeText candidate.candidateId = candidate.candidateId)
    (hsaved : SavedTexts runs previousRunId)
    (haction : answers.decision.action = "continue_to_next_phase")
    (hcontract : answers.decision.hasChildContract = true)
    (hprevious : getRun runs previousRunId = .found previous)
    (hnone : existingChild codec answers.directory previous candidate.candidateId runs = none)
    (hchecked : ∃ workspace, checkCandidate candidate answers = .ok workspace)
    (hidentity : answers.identity = .ok identity)
    (hfresh : getRun runs identity.runId = .missing) :
    Adds codec previous candidate.candidateId identity.runId runs
      (materializeNextRun codec strip previousRunId candidate answers runs).2 := by
  obtain ⟨workspace, hworkspace⟩ := hchecked
  have hcall : materializeNextRun codec strip previousRunId candidate answers runs =
      reserveChild codec strip previous candidate answers workspace runs := by
    rw [materializeNextRun]
    dsimp only
    rw [if_neg (by simp [haction]), hprevious]
    dsimp only
    rw [if_neg (by simp [hcontract]), hnone, hworkspace]
  rw [hcall]
  generalize hmade : reserveChild codec strip previous candidate answers workspace runs = made
  obtain ⟨result, runs'⟩ := made
  rcases reserveChild_cases (sanitizeText_parentRef hid hsaved hprevious) hcandidateText hmade with
    ⟨-, hnot⟩ | ⟨identity', hidentity', hadds⟩
  · exact absurd hfresh (hnot identity hidentity)
  · obtain rfl := Except.ok.inj (hidentity.symm.trans hidentity')
    exact hadds

end

def plainCodec : Codec := ⟨fun _ => "", fun _ => ""⟩

def plainRun (runId createdAt : String) : TaskRun where
  runId := runId
  taskId := some "task_0"
  operationId := none
  approvalId := none
  contractType := "report"
  status := .completed
  plan := ⟨"ready", [], none⟩
  workflow := none
  executionGraph := none
  currentStepId := none
  approvalSnapshot := .null
  autoRunRequested := false
  cancellationRequested := false
  cancellationReason := none
  revision := 0
  createdAt := createdAt
  startedAt := none
  finishedAt := none
  warnings := []
  blockedReasons := []
  evidence := [("session_id", .str "session_1")]

def oneRun : RunTable := updateRun plainCodec (plainRun "task_run_0" "0") ⟨[], List.nodup_nil⟩

def sampleCandidate : ContinuationCandidate where
  candidateId := "candidate_1"
  plannerRef := "planner"
  dependencyId := "dependency"
  phaseId := "report"
  operationType := "report"
  contractType := "report"
  runtimeProfile := none
  requestedActions := []
  requiredCapabilities := []
  runtimeCapabilitiesRequired := []
  mode := "read_only"
  semanticGoal := none
  requirements := .null
  metadata := []

def sampleAnswers (directory : List String) (runId : String) : Answers where
  directory := directory
  decision := ⟨"continue_to_next_phase", "allowed", true, []⟩
  hasOutcome := true
  workspace := .ok none
  requestedActions := .ok []
  capabilityFor _ := none
  requestError := none
  identity := .ok ⟨runId, "task_1", "op_1", "1", []⟩
  evaluation := ⟨.null, []⟩
  admission := ⟨true, true, "", "", .null⟩
  contextMissing := false
  contextHandoff := none
  enrichment := .ok
    { status := .created
      plan := ⟨"ready", [], none⟩
      workflow := none
      executionGraph := none
      approvalSnapshot := .null
      warnings := []
      blockedReasons := []
      others := []
      failure := none }
  now := "2"

theorem stores_oneRun {runId : String} {run : TaskRun} (h : Stores oneRun runId run) :
    runId = "task_run_0" ∧ run = (plainRun "task_run_0" "0").stored plainCodec := by
  by_cases hid : runId = "task_run_0"
  · subst hid
    exact ⟨rfl, h.inj stores_updateRun⟩
  · obtain ⟨files, hfiles, -⟩ := h
    rw [oneRun, get?_updateRun_of_ne hid] at hfiles
    cases hfiles

theorem savedTexts_oneRun : SavedTexts oneRun "task_run_0" := by
  intro run hrun
  obtain ⟨-, rfl⟩ := stores_oneRun hrun
  exact ⟨rfl, congrArg some (sanitizeText_sanitizeText "task_0")⟩

theorem not_isChild_plainRun (previous : TaskRun) (runId createdAt : String) :
    ¬IsChild plainCodec previous sampleCandidate.candidateId
      ((plainRun runId createdAt).stored plainCodec).projected := by
  rintro ⟨-, hname⟩
  have hempty : "" = "candidate_1" := hname
  exact absurd hempty (by decide)

def firstCall : ChildOp := .materialize (sampleAnswers ["task_run_0"] "task_run_1")

def afterFirst : ChildState :=
  childStep plainCodec id "task_run_0" sampleCandidate ⟨oneRun, []⟩ firstCall

theorem seesChildren_firstCall :
    SeesChildren plainCodec "task_run_0" sampleCandidate ⟨oneRun, []⟩ firstCall := by
  rintro previous - runId ⟨run, hstores, hchild⟩
  obtain ⟨-, rfl⟩ := stores_oneRun hstores
  exact absurd hchild (not_isChild_plainRun previous _ _)

theorem sanitizeText_samples : sanitizeText "task_run_0" = "task_run_0" ∧
    sanitizeText sampleCandidate.candidateId = sampleCandidate.candidateId := by
  decide

theorem oneChild_afterFirst : SavedTexts afterFirst.runs "task_run_0" ∧
    OneChild plainCodec "task_run_0" sampleCandidate afterFirst :=
  oneChild_materialize sanitizeText_samples.1 sanitizeText_samples.2 savedTexts_oneRun (.inl rfl)
    seesChildren_firstCall

theorem created_afterFirst : afterFirst.created = ["task_run_1"] := by decide

theorem stores_afterFirst : ∃ files run, afterFirst.runs.get? "task_run_1" = some files ∧
    files.run = some run ∧ run.isValid = true ∧ run.createdAt = "1" ∧
      sessionId run = some "session_1" := by
  have hfound : (afterFirst.runs.get? "task_run_1").any (fun files =>
      files.run.any fun run => run.isValid && (run.createdAt == "1" &&
        decide (sessionId run = some "session_1"))) = true := by
    decide
  obtain ⟨files, hfiles, hrun⟩ := (Option.any_eq_true _ _).mp hfound
  obtain ⟨run, hrun, hfields⟩ := (Option.any_eq_true _ _).mp hrun
  rw [Bool.and_eq_true, Bool.and_eq_true, beq_iff_eq, decide_eq_true_iff] at hfields
  exact ⟨files, run, hfiles, hrun, hfields⟩

def readSession : RunRead → Option String
  | .found run => sessionId run
  | .missing | .invalid => none

theorem child_afterFirst {previous : TaskRun}
    (hprevious : getRun afterFirst.runs "task_run_0" = .found previous) :
    sessionId previous = some "session_1" ∧ ∀ runId,
      HoldsChild plainCodec previous sampleCandidate.candidateId afterFirst.runs runId →
        runId = "task_run_1" := by
  have hsession : readSession (getRun afterFirst.runs "task_run_0") = some "session_1" := by
    decide
  rw [hprevious] at hsession
  refine ⟨hsession, ?_⟩
  rcases oneChild_afterFirst.2 with hnone | ⟨previous', runId, hprevious', hlist, -, honly⟩
  · rw [created_afterFirst] at hnone
    cases hnone
  · obtain rfl := RunRead.found.inj (hprevious.symm.trans hprevious')
    rw [created_afterFirst, List.cons.injEq] at hlist
    rw [hlist.1]
    exact honly

theorem candidateOf_session {files : RunFiles} {run : TaskRun} {session : Option String}
    (hrun : files.run = some run) (hvalid : run.isValid = true)
    (hsession : sessionId run = session) : candidateOf session files = some run := by
  rw [candidateOf, hrun, Option.filter_some_pos]
  simp [hvalid, hsession]

theorem length_candidates_le (directory : List String) (session : Option String)
    (runs : RunTable) : (candidates directory session runs).length ≤ directory.length := by
  rw [candidates, Queue.newestFirst, length_insertionSort]
  exact length_filterMap_le _ _

/-- A second call returns the child of the first. -/
theorem one_child_for_sample : (afterSteps plainCodec id "task_run_0" sampleCandidate oneRun
      [firstCall, .materialize (sampleAnswers ["task_run_0", "task_run_1"] "task_run_2")]
      ).created.length ≤ 1 := by
  refine (one_child_per_candidate plainCodec id "task_run_0" sanitizeText_samples.1
    sampleCandidate sanitizeText_samples.2 oneRun savedTexts_oneRun
    [firstCall, .materialize (sampleAnswers ["task_run_0", "task_run_1"] "task_run_2")]
    ⟨seesChildren_firstCall, ?_, trivial⟩).1
  intro previous hprevious runId hholds
  obtain ⟨hsession, honly⟩ := child_afterFirst hprevious
  obtain rfl := honly runId hholds
  obtain ⟨files, run, hfiles, hrun, hvalid, -, hchildSession⟩ := stores_afterFirst
  rw [hsession]
  refine shown_of_few (mem_cons_of_mem _ mem_cons_self)
    ⟨files, hfiles, candidateOf_session hrun hvalid hchildSession⟩ hvalid ?_
  exact le_trans (length_candidates_le _ _ _) (by decide)

def otherId (n : ℕ) : String := String.ofList ("task_run_".toList ++ List.replicate n 'x')

def otherRun (n : ℕ) : TaskRun := plainRun (otherId n) "2"

theorem otherId_injective : Function.Injective otherId := padded_injective "task_run_" 'x'

theorem otherId_ne {c : Char} (hc : c ≠ 'x') (n : ℕ) :
    otherId n ≠ String.ofList ("task_run_".toList ++ [c]) := by
  intro h
  have hchars := String.ofList_injective h
  rw [append_cancel_left_eq] at hchars
  have hmem : c ∈ List.replicate n 'x' := by
    rw [hchars]
    exact mem_singleton_self c
  exact hc (eq_of_mem_replicate hmem)

theorem createRun_of_missing {codec : Codec} {runs : RunTable} {run : TaskRun}
    (h : getRun runs run.runId = .missing) :
    createRun codec run runs = .ok (updateRun codec run runs) := by
  rw [createRun, h]

theorem run_creates (s : ChildState) (hfree : ∀ m, s.runs.get? (otherId m) = none) (n : ℕ) :
    let s' := Lib.run (childStep plainCodec id "task_run_0" sampleCandidate) s
      ((List.range n).map fun m => .create (otherRun m))
    s'.created = s.created ∧ (∀ m < n, ∃ files, s'.runs.get? (otherId m) = some files ∧
        files.run = some ((otherRun m).stored plainCodec)) ∧
      ∀ runId, (∀ m < n, runId ≠ otherId m) → s'.runs.get? runId = s.runs.get? runId := by
  induction n with
  | zero => exact ⟨rfl, fun m hm => absurd hm (Nat.not_lt_zero m), fun _ _ => rfl⟩
  | succ n ih =>
    obtain ⟨hcreated, hthere, hkept⟩ := ih
    rw [range_succ, map_append, map_cons, map_nil]
    dsimp only
    rw [run_append]
    generalize Lib.run (childStep plainCodec id "task_run_0" sampleCandidate) s
      ((List.range n).map fun m => .create (otherRun m)) = s' at hcreated hthere hkept
    have hnew : s'.runs.get? (otherId n) = none := by
      rw [hkept (otherId n) fun m hm h => absurd (otherId_injective h) (by omega)]
      exact hfree n
    have hstep : Lib.run (childStep plainCodec id "task_run_0" sampleCandidate) s'
        [.create (otherRun n)] = { s' with runs := updateRun plainCodec (otherRun n) s'.runs } := by
      have hmissing : getRun s'.runs (otherId n) = .missing := by
        rw [getRun, hnew]
      change childStep plainCodec id "task_run_0" sampleCandidate s' (.create (otherRun n)) = _
      rw [childStep, createRun_of_missing hmissing]
    rw [hstep]
    refine ⟨hcreated, fun m hm => ?_, fun runId hne => ?_⟩
    · rcases Nat.lt_succ_iff_lt_or_eq.mp hm with hlt | rfl
      · obtain ⟨files, hfiles, hrun⟩ := hthere m hlt
        refine ⟨files, (get?_updateRun_of_ne fun h => ?_).trans hfiles, hrun⟩
        exact absurd (otherId_injective h) (by omega)
      · exact stores_updateRun
    · have hnotNew : runId ≠ (otherRun n).runId := hne n (Nat.lt_succ_self n)
      exact (get?_updateRun_of_ne hnotNew).trans (hkept runId fun m hm => hne m (by omega))

def manyDirectories : List String := (List.range 1000).map otherId ++ ["task_run_0", "task_run_1"]

def manyRuns : List ChildOp := (List.range 1000).map fun m => .create (otherRun m)

def afterMany : ChildState :=
  Lib.run (childStep plainCodec id "task_run_0" sampleCandidate) afterFirst manyRuns

theorem get?_afterFirst {runId : String} (h : runId ≠ "task_run_0") (h' : runId ≠ "task_run_1") :
    afterFirst.runs.get? runId = none := by
  have hcases := @materializeNextRun_cases plainCodec id _ _ _ _
    (sampleAnswers ["task_run_0"] "task_run_1") _ sanitizeText_samples.1 sanitizeText_samples.2
    savedTexts_oneRun rfl
  have hempty : oneRun.get? runId = none := get?_updateRun_of_ne h
  rcases hcases with hsame | ⟨previous, identity, -, -, hidentity, hadds⟩
  · exact (congrArg (·.get? runId) hsame).trans hempty
  · obtain rfl := Except.ok.inj hidentity
    exact (hadds.others runId h').trans hempty

theorem otherId_ne_samples (m : ℕ) : otherId m ≠ "task_run_0" ∧ otherId m ≠ "task_run_1" := by
  have h0 := otherId_ne (c := '0') (by decide) m
  have h1 := otherId_ne (c := '1') (by decide) m
  exact ⟨h0, h1⟩

theorem afterMany_spec : afterMany.created = ["task_run_1"] ∧
    (∀ m < 1000, ∃ files, afterMany.runs.get? (otherId m) = some files ∧
      files.run = some ((otherRun m).stored plainCodec)) ∧
    ∀ runId, (∀ m < 1000, runId ≠ otherId m) →
      afterMany.runs.get? runId = afterFirst.runs.get? runId := by
  have hspec := run_creates afterFirst (fun m =>
    get?_afterFirst (otherId_ne_samples m).1 (otherId_ne_samples m).2) 1000
  exact ⟨hspec.1.trans created_afterFirst, hspec.2⟩

theorem newer_afterMany : 1000 ≤
    ((candidates manyDirectories (some "session_1") afterMany.runs).filter
    fun entry => "1" < entry.2.createdAt).length := by
  obtain ⟨-, hthere, -⟩ := afterMany_spec
  have hnewer : ∀ m, "1" < ((otherRun m).stored plainCodec).createdAt := by
    intro m
    have hsample : "1" < sanitizeText "2" := by decide
    exact hsample
  have hsession : sanitizeText "session_1" = "session_1" := by decide
  have hfound : ((List.range 1000).map otherId).filterMap (fun runId =>
      ((afterMany.runs.get? runId).bind (candidateOf (some "session_1"))).map (runId, ·)) =
        (List.range 1000).map fun m => (otherId m, (otherRun m).stored plainCodec) := by
    rw [filterMap_map]
    rw [← filterMap_eq_map]
    refine filterMap_congr fun m hm => ?_
    obtain ⟨files, hfiles, hrun⟩ := hthere m (mem_range.mp hm)
    rw [Function.comp_apply, hfiles, Option.bind_some,
      candidateOf_session hrun rfl (congrArg some hsession)]
    rfl
  have hperm := (perm_insertionSort
    (fun a b : String × TaskRun => b.2.createdAt ≤ a.2.createdAt)
    (manyDirectories.filterMap fun runId =>
      ((afterMany.runs.get? runId).bind (candidateOf (some "session_1"))).map (runId, ·))).filter
        fun entry => decide ("1" < entry.2.createdAt)
  rw [candidates, Queue.newestFirst, hperm.length_eq, manyDirectories, filterMap_append,
    hfound, filter_append, length_append]
  have hall : ((List.range 1000).map fun m => (otherId m, (otherRun m).stored plainCodec)).filter
      (fun entry => decide ("1" < entry.2.createdAt)) =
        (List.range 1000).map fun m => (otherId m, (otherRun m).stored plainCodec) := by
    rw [filter_eq_self, forall_mem_map]
    exact fun m _ => decide_eq_true (hnewer m)
  rw [hall, length_map, length_range]
  exact Nat.le_add_right _ _

/-- After a thousand other runs a second child is created. -/
theorem second_child_after_thousand_runs :
    (afterSteps plainCodec id "task_run_0" sampleCandidate oneRun
      (firstCall :: manyRuns ++ [.materialize (sampleAnswers manyDirectories "task_run_2")])
      ).created = ["task_run_1", "task_run_2"] := by
  obtain ⟨hcreated, hthere, hkept⟩ := afterMany_spec
  have hunchanged : ∀ runId, (∀ m, runId ≠ otherId m) →
      afterMany.runs.get? runId = afterFirst.runs.get? runId :=
    fun runId h => hkept runId fun m _ => h m
  have hprevious : getRun afterMany.runs "task_run_0" = getRun afterFirst.runs "task_run_0" :=
    getRun_congr (hunchanged _ fun m h => (otherId_ne_samples m).1 h.symm)
  have hsaved : SavedTexts afterMany.runs "task_run_0" := by
    intro run hrun
    refine oneChild_afterFirst.1 run ((stores_congr (hunchanged _ fun m h => ?_)).mp hrun)
    exact (otherId_ne_samples m).1 h.symm
  have hfound : ∃ previous, getRun afterFirst.runs "task_run_0" = .found previous := by
    rcases oneChild_afterFirst.2 with hnone | ⟨previous, -, h, -⟩
    · rw [created_afterFirst] at hnone
      cases hnone
    · exact ⟨previous, h⟩
  obtain ⟨previous, hfound⟩ := hfound
  obtain ⟨hsession, honly⟩ := child_afterFirst hfound
  have hnone : existingChild plainCodec manyDirectories previous sampleCandidate.candidateId
      afterMany.runs = none := by
    refine existingChild_eq_none fun runId hholds => ?_
    by_cases hother : ∃ m, m < 1000 ∧ runId = otherId m
    · obtain ⟨m, hm, rfl⟩ := hother
      obtain ⟨run, hstores, hchild⟩ := hholds
      obtain rfl := hstores.inj (hthere m hm)
      exact absurd hchild (not_isChild_plainRun previous _ _)
    · have hsame := hkept runId fun m hm h => hother ⟨m, hm, h⟩
      obtain rfl := honly runId ((holdsChild_congr hsame).mp hholds)
      obtain ⟨files, run, hfiles, hrun, -, htime, -⟩ := stores_afterFirst
      rw [hsession]
      refine not_shown_of_newer ⟨files, hsame.trans hfiles, hrun⟩ ?_
      rw [htime]
      exact newer_afterMany
  have hfresh : getRun afterMany.runs "task_run_2" = .missing := by
    have hget : afterMany.runs.get? "task_run_2" = none := by
      rw [hunchanged "task_run_2" fun m h => otherId_ne (c := '2') (by decide) m h.symm]
      exact get?_afterFirst (by decide) (by decide)
    rw [getRun, hget]
  have hadds := newRuns_of_not_found plainCodec id (sampleAnswers manyDirectories "task_run_2")
    sanitizeText_samples.1 sanitizeText_samples.2 hsaved rfl rfl (hprevious.trans hfound) hnone
    ⟨none, rfl⟩ rfl hfresh
  have hnew := newRuns_of_adds (sampleAnswers manyDirectories "task_run_2") rfl hadds
  have hsteps : afterSteps plainCodec id "task_run_0" sampleCandidate oneRun
      (firstCall :: manyRuns ++ [.materialize (sampleAnswers manyDirectories "task_run_2")]) =
        childStep plainCodec id "task_run_0" sampleCandidate afterMany
          (.materialize (sampleAnswers manyDirectories "task_run_2")) := by
    have hfirst : ∀ ops, Lib.run (childStep plainCodec id "task_run_0" sampleCandidate)
        ⟨oneRun, []⟩ (firstCall :: ops) =
          Lib.run (childStep plainCodec id "task_run_0" sampleCandidate) afterFirst ops :=
      fun _ => rfl
    rw [afterSteps, cons_append, hfirst, run_append, ← afterMany]
    rfl
  rw [hsteps, childStep]
  dsimp only
  rw [hnew, hcreated]
  rfl

end AIpinho.Mission
