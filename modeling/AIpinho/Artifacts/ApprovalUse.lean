import AIpinho.Lib.Runs
import AIpinho.Artifacts.WriteAtomicity

/-!
# How often an approval is used

The guard asks whether an approval was executed already, but nothing that writes artifacts says
so. A second run of an approval is stopped only by the file itself.
-/

namespace AIpinho.Artifacts

open List Lib
open Patching (Change Content Workspace)

/-- The stores and the files, with the results that the calls of `execute` have returned. -/
structure WriteSystem where
  store : WriteState
  returned : List ArtifactWriteResult

/-- A call of the service, or a change of a file by someone else. -/
inductive WriteOp
  | create (clock : ℕ) (digits previewId : String) (request : ArtifactWriteRequest)
  | execute (call : ExecuteCall) (writeRunId : String)
  | cancel (writeRunId : String)
  | change (change : Change)

/-- One step on the stores and the files. -/
def writeStep (services : WriteServices) (s : WriteSystem) : WriteOp → WriteSystem
  | .create clock digits previewId request =>
    { s with store := (createRunFromPreview services clock digits previewId request s.store).2 }
  | .execute call writeRunId =>
    let (outcome, store) := execute services call writeRunId s.store
    ⟨store, s.returned ++ outcome.toOption.toList⟩
  | .cancel writeRunId => { s with store := (cancel writeRunId s.store).2 }
  | .change change => { s with store.files := overlay s.store.files [change] }

def initialSystem (files : Workspace) : WriteSystem :=
  ⟨⟨⟨[], List.nodup_nil⟩, ⟨[], List.nodup_nil⟩, files⟩, []⟩

def ArtifactWriteResult.Uses (result : ArtifactWriteResult) (approvalId : String) : Bool :=
  result.status = .completed && result.approvalId = approvalId

/-- The completed results returned for the approval. -/
def WriteSystem.completions (s : WriteSystem) (approvalId : String) : List ArtifactWriteResult :=
  s.returned.filter (·.Uses approvalId)

def WriteState.Used (s : WriteState) (approvalId : String) : Prop :=
  ∃ writeRunId result, s.results.get? writeRunId = some result ∧ result.Uses approvalId = true

/-- The file stands in the way of a write: it is there and may not be overwritten; or it
may, but the preview overwrites nothing, has not seen the file, or has seen another one. -/
def TargetStands (services : WriteServices) (preview : ArtifactPreview)
    (allowOverwrite : Bool) (files : Workspace) : Prop :=
  if allowOverwrite then
    preview.wouldOverwrite = false ∨ preview.existingTargetHash = "" ∨
    ∃ target content,
      guardTarget preview (services.pathGuard preview.workspace preview.target.targetPath files) =
        some target ∧
      target ≠ "" ∧ files target = some content ∧
      services.sha256 content ≠ preview.existingTargetHash
  else (files preview.target.overwritePath).isSome

/-- A run is not written although its approval was never marked: it is blocked or cancelled, it is
not confirmed, the approval has expired, or the file stands in the way. -/
def ArtifactWriteRun.Withheld (run : ArtifactWriteRun) (services : WriteServices) (clock : ℕ)
    (files : Workspace) : Prop :=
  run.status ≠ .readyToExecute ∨ run.operatorConfirmed = false ∨
  (∃ approval, services.approval run.approvalId = some approval ∧
    services.expired clock approval.expiresAt = true) ∨
  ∃ preview, services.preview run.previewId = some preview ∧
    TargetStands services preview run.allowOverwrite files

/-- An execution finds a run of a used approval withheld. -/
def SparesUsed (services : WriteServices) (s : WriteSystem) : WriteOp → Prop
  | .execute call writeRunId =>
    ∀ run, s.store.requireRun writeRunId = .ok run →
      s.store.results.get? writeRunId = none → s.store.Used run.approvalId →
      run.Withheld services call.clock s.store.files
  | _ => True

/-- No completed run is executed again. -/
def AsksOnce (s : WriteSystem) : WriteOp → Prop
  | .execute _ writeRunId =>
    ∀ result, s.store.results.get? writeRunId = some result → result.status ≠ .completed
  | _ => True

@[simp]
theorem reasonIf_eq_nil_iff {fails : Bool} {reason : String} :
    reasonIf fails reason = [] ↔ fails = false := by
  cases fails <;> simp [reasonIf]

variable {services : WriteServices} {s : WriteSystem} {approvalId : String}
  {result : ArtifactWriteResult}

theorem overwriteValidate_ne_nil {preview : ArtifactPreview} {allowOverwrite : Bool}
    {files : Workspace} (h : TargetStands services preview allowOverwrite files) :
    (overwriteValidate preview allowOverwrite
      (services.existingHash (guardTarget preview
        (services.pathGuard preview.workspace preview.target.targetPath files)) files)
      files).1 ≠ [] := by
  intro hnil
  unfold TargetStands at h
  unfold overwriteValidate at hnil
  cases allowOverwrite with
  | false =>
    rw [if_neg Bool.false_ne_true] at h
    simp [h] at hnil
  | true =>
    rw [if_pos rfl] at h
    simp only [Bool.not_true, Bool.and_false, if_true, append_eq_nil_iff,
      reasonIf_eq_nil_iff, Bool.not_eq_false'] at hnil
    obtain ⟨-, hoverwrite, hsnapshot⟩ := hnil
    rcases h with h | h | ⟨target, content, htarget, hne, hcontent, hhash⟩
    · rw [h] at hoverwrite
      cases hoverwrite
    · simp [h] at hsnapshot
    · have hexisting : services.existingHash (guardTarget preview
          (services.pathGuard preview.workspace preview.target.targetPath files)) files =
          some (services.sha256 content) := by
        have hfilter : (some target).filter (· ≠ "") = some target := by
          simp [Option.filter, hne]
        rw [WriteServices.existingHash, htarget, hfilter, Option.bind_some, hcontent]
        rfl
      rw [hexisting] at hsnapshot
      split at hsnapshot
      · cases hsnapshot
      · simp [services.sha256_ne, hhash] at hsnapshot

theorem not_allowed_of_withheld {clock : ℕ} {run : ArtifactWriteRun} {files : Workspace}
    (h : run.Withheld services clock files) (hready : run.status = .readyToExecute) :
    (validateRequest services clock run.request files).allowed = false := by
  cases hallowed : (validateRequest services clock run.request files).allowed with
  | false => rfl
  | true =>
    exfalso
    unfold validateRequest at hallowed
    cases hpreview : services.preview run.request.previewId with
    | none =>
      rw [hpreview] at hallowed
      cases hallowed
    | some preview =>
      rw [hpreview] at hallowed
      simp only [List.isEmpty_iff, append_eq_nil_iff, reasonIf_eq_nil_iff,
        Bool.not_eq_false'] at hallowed
      obtain ⟨⟨⟨⟨⟨⟨⟨hconfirmed, happroval⟩, -⟩, -⟩, -⟩, -⟩, -⟩, hoverwrite⟩ := hallowed
      rcases h with h | h | ⟨approval, hsome, hexpired⟩ | ⟨preview', hpreview', hstands⟩
      · exact h hready
      · rw [ArtifactWriteRun.request] at hconfirmed
        rw [h] at hconfirmed
        cases hconfirmed
      · have hid : run.request.approvalId = run.approvalId := rfl
        rw [hid] at happroval
        split at happroval
        · simp [approvalReasons] at happroval
        · rw [hsome] at happroval
          simp [approvalReasons, hexpired] at happroval
      · have hsame : some preview' = some preview := hpreview'.symm.trans hpreview
        cases hsame
        exact overwriteValidate_ne_nil hstands hoverwrite

theorem executeRun_of_withheld {call : ExecuteCall} {run : ArtifactWriteRun} {files : Workspace}
    (h : run.Withheld services call.clock files) :
    (executeRun services call run files).2.1.status = .blocked := by
  unfold executeRun
  by_cases hready : run.status = .readyToExecute
  · rw [if_neg (not_not_intro hready)]
    dsimp only
    rw [not_allowed_of_withheld h hready]
    rfl
  · rw [if_pos hready]
    rfl

theorem executeRun_approvalId (services : WriteServices) (call : ExecuteCall)
    (run : ArtifactWriteRun) (files : Workspace) :
    (executeRun services call run files).2.1.approvalId = run.approvalId := by
  unfold executeRun
  split
  · rfl
  · dsimp only
    split
    · unfold writeTarget
      dsimp only
      split <;> rfl
    · rfl

theorem execute_cases (services : WriteServices) (call : ExecuteCall) (writeRunId : String)
    (s : WriteState) :
    (∃ error, execute services call writeRunId s = (.error error, s)) ∨
    (∃ result, s.results.get? writeRunId = some result ∧
      execute services call writeRunId s = (.ok result, s)) ∨
    ∃ run result store, s.requireRun writeRunId = .ok run ∧ s.results.get? writeRunId = none ∧
      result = (executeRun services call run s.files).2.1 ∧
      execute services call writeRunId s = (.ok result, store) ∧
      store.results = s.results.insert writeRunId result := by
  unfold execute
  cases hrun : s.requireRun writeRunId with
  | error error => exact Or.inl ⟨error, rfl⟩
  | ok run =>
    right
    cases hresult : s.results.get? writeRunId with
    | some existing => exact Or.inl ⟨existing, rfl, rfl⟩
    | none => exact Or.inr ⟨run, _, _, rfl, rfl, rfl, rfl, rfl⟩

/-- No two results complete a write of one approval, and every result that was returned is
stored. -/
structure UsedOnce (s : WriteSystem) : Prop where
  stored : ∀ result ∈ s.returned, ∃ writeRunId, s.store.results.get? writeRunId = some result
  single : ∀ {approvalId writeRunId writeRunId' result result'},
    s.store.results.get? writeRunId = some result →
    s.store.results.get? writeRunId' = some result' →
    result.Uses approvalId = true → result'.Uses approvalId = true → writeRunId = writeRunId'

theorem UsedOnce.used (h : UsedOnce s) (hresult : result ∈ s.completions approvalId) :
    s.store.Used approvalId := by
  obtain ⟨hreturned, huses⟩ := mem_filter.mp hresult
  obtain ⟨writeRunId, hstored⟩ := h.stored result hreturned
  exact ⟨writeRunId, result, hstored, huses⟩

theorem UsedOnce.eq (h : UsedOnce s) {result' : ArtifactWriteResult}
    (hresult : result ∈ s.completions approvalId) (hresult' : result' ∈ s.completions approvalId) :
    result = result' := by
  obtain ⟨hreturned, huses⟩ := mem_filter.mp hresult
  obtain ⟨hreturned', huses'⟩ := mem_filter.mp hresult'
  obtain ⟨writeRunId, hstored⟩ := h.stored result hreturned
  obtain ⟨writeRunId', hstored'⟩ := h.stored result' hreturned'
  obtain rfl := h.single hstored hstored' huses huses'
  rw [hstored] at hstored'
  exact Option.some.inj hstored'

theorem not_used_of_completed {call : ExecuteCall} {writeRunId : String} {run : ArtifactWriteRun}
    (hcond : SparesUsed services s (.execute call writeRunId))
    (hrun : s.store.requireRun writeRunId = .ok run)
    (hnone : s.store.results.get? writeRunId = none)
    (hresult : result = (executeRun services call run s.store.files).2.1)
    (huses : result.Uses approvalId = true) : ¬s.store.Used approvalId := by
  intro hused
  obtain ⟨hcompleted, hid⟩ : result.status = .completed ∧ result.approvalId = approvalId := by
    simpa [ArtifactWriteResult.Uses] using huses
  have hname : run.approvalId = approvalId := by
    rw [← hid, hresult, executeRun_approvalId]
  have hwithheld := hcond run hrun hnone (by rw [hname]; exact hused)
  rw [hresult, executeRun_of_withheld hwithheld] at hcompleted
  cases hcompleted

theorem UsedOnce.save (h : UsedOnce s) {writeRunId : String} {store : WriteState}
    (hnone : s.store.results.get? writeRunId = none)
    (hresults : store.results = s.store.results.insert writeRunId result)
    (hfirst : ∀ approvalId, result.Uses approvalId = true → ¬s.store.Used approvalId) :
    UsedOnce ⟨store, s.returned ++ [result]⟩ := by
  have hself : store.results.get? writeRunId = some result := by
    rw [hresults, Table.get?_insert_self]
  have hother : ∀ {id}, id ≠ writeRunId → store.results.get? id = s.store.results.get? id := by
    intro id hid
    rw [hresults, Table.get?_insert_of_ne hid]
  constructor
  · intro result' hresult'
    rcases mem_append.mp hresult' with hresult' | hresult'
    · obtain ⟨id, hid⟩ := h.stored result' hresult'
      have hne : id ≠ writeRunId := by
        rintro rfl
        rw [hnone] at hid
        cases hid
      exact ⟨id, (hother hne).trans hid⟩
    · obtain rfl := mem_singleton.mp hresult'
      exact ⟨writeRunId, hself⟩
  · intro approvalId id id' result₁ result₂ hid hid' huses huses'
    dsimp only at hid hid'
    by_cases hsame : id = writeRunId
    · by_cases hsame' : id' = writeRunId
      · rw [hsame, hsame']
      · rw [hsame, hself] at hid
        cases hid
        rw [hother hsame'] at hid'
        exact absurd ⟨id', result₂, hid', huses'⟩ (hfirst approvalId huses)
    · rw [hother hsame] at hid
      by_cases hsame' : id' = writeRunId
      · rw [hsame', hself] at hid'
        cases hid'
        exact absurd ⟨id, result₁, hid, huses⟩ (hfirst approvalId huses')
      · rw [hother hsame'] at hid'
        exact h.single hid hid' huses huses'

theorem createRunFromPreview_results (services : WriteServices) (clock : ℕ)
    (digits previewId : String) (request : ArtifactWriteRequest) (s : WriteState) :
    (createRunFromPreview services clock digits previewId request s).2.results = s.results := by
  unfold createRunFromPreview
  split <;> rfl

theorem cancel_results (writeRunId : String) (s : WriteState) :
    (cancel writeRunId s).2.results = s.results := by
  unfold cancel
  split
  · rfl
  · split <;> rfl

theorem writeStep_usedOnce (services : WriteServices) (s : WriteSystem) (op : WriteOp)
    (h : UsedOnce s) (hcond : SparesUsed services s op) :
    UsedOnce (writeStep services s op) := by
  cases op with
  | create clock digits previewId request =>
    have hresults := createRunFromPreview_results services clock digits previewId request s.store
    exact ⟨by rw [writeStep, hresults]; exact h.stored, by rw [writeStep, hresults]; exact h.single⟩
  | cancel writeRunId =>
    have hresults := cancel_results writeRunId s.store
    exact ⟨by rw [writeStep, hresults]; exact h.stored, by rw [writeStep, hresults]; exact h.single⟩
  | change change => exact ⟨h.stored, h.single⟩
  | execute call writeRunId =>
    rw [writeStep]
    rcases execute_cases services call writeRunId s.store with
      ⟨error, hexecute⟩ | ⟨result, hresult, hexecute⟩ |
        ⟨run, result, store, hrun, hnone, hresult, hexecute, hresults⟩
    · rw [hexecute]
      simpa only [Except.toOption, Option.toList_none, append_nil] using h
    · rw [hexecute]
      refine ⟨fun result' hresult' => ?_, h.single⟩
      rcases mem_append.mp hresult' with hresult' | hresult'
      · exact h.stored result' hresult'
      · obtain rfl : result' = result := by simpa [Except.toOption] using hresult'
        exact ⟨writeRunId, hresult⟩
    · have hfirst : ∀ approvalId, result.Uses approvalId = true → ¬s.store.Used approvalId :=
        fun _ => not_used_of_completed hcond hrun hnone hresult
      rw [hexecute]
      exact h.save hnone hresults hfirst

theorem writeStep_completions (services : WriteServices) (s : WriteSystem) (op : WriteOp)
    (honce : UsedOnce s) (h : ∀ approvalId, (s.completions approvalId).length ≤ 1)
    (hcond : SparesUsed services s op) (hasks : AsksOnce s op) (approvalId : String) :
    ((writeStep services s op).completions approvalId).length ≤ 1 := by
  cases op with
  | create | cancel | change => exact h approvalId
  | execute call writeRunId =>
    rw [writeStep]
    rcases execute_cases services call writeRunId s.store with
      ⟨error, hexecute⟩ | ⟨result, hresult, hexecute⟩ |
        ⟨run, result, store, hrun, hnone, hresult, hexecute, -⟩
    · rw [hexecute]
      simpa only [Except.toOption, Option.toList_none, append_nil] using h approvalId
    · have hstatus := hasks result hresult
      rw [hexecute]
      have hnot : result.Uses approvalId = false := by simp [ArtifactWriteResult.Uses, hstatus]
      simpa [WriteSystem.completions, Except.toOption, hnot] using h approvalId
    · rw [hexecute]
      cases huses : result.Uses approvalId with
      | false => simpa [WriteSystem.completions, Except.toOption, huses] using h approvalId
      | true =>
        have hunused := not_used_of_completed hcond hrun hnone hresult huses
        have hempty : s.completions approvalId = [] :=
          eq_nil_iff_forall_not_mem.mpr fun result' hresult' =>
            hunused (honce.used hresult')
        have hone : (s.returned ++ [result]).filter (·.Uses approvalId) = [result] := by
          rw [filter_append, ← WriteSystem.completions, hempty]
          simp [huses]
        exact (congrArg List.length hone).le

/-- In every sequence of calls and changes in which the runs of a used approval are withheld, all
completed results of an approval are one; it is the only one if no completed write is asked for
again. -/
theorem approval_used_once (services : WriteServices) (files : Workspace) (ops : List WriteOp)
    (h : Along (writeStep services) (SparesUsed services) (initialSystem files) ops)
    (approvalId : String) :
    (∀ result ∈ (run (writeStep services) (initialSystem files) ops).completions approvalId,
      ∀ result' ∈ (run (writeStep services) (initialSystem files) ops).completions approvalId,
        result = result') ∧
    (Along (writeStep services) AsksOnce (initialSystem files) ops →
      ((run (writeStep services) (initialSystem files) ops).completions approvalId).length ≤
        1) := by
  have hinitial : UsedOnce (initialSystem files) := by
    refine ⟨fun result hresult => ?_, fun hid => ?_⟩
    · cases hresult
    · cases hid
  constructor
  · have honce : UsedOnce (run (writeStep services) (initialSystem files) ops) :=
      run_invariant (writeStep_usedOnce services) hinitial h
    exact fun result hresult result' hresult' => honce.eq hresult hresult'
  · intro hasks
    have hboth := along_and.mpr ⟨h, hasks⟩
    have hrun := run_invariant
      (P := fun s => UsedOnce s ∧ ∀ approvalId, (s.completions approvalId).length ≤ 1)
      (fun s op hs hcond => ⟨writeStep_usedOnce services s op hs.1 hcond.1, fun approvalId =>
        writeStep_completions services s op hs.1 hs.2 hcond.1 hcond.2 approvalId⟩)
      ⟨hinitial, fun _ => Nat.zero_le 1⟩ hboth
    exact hrun.2 approvalId

/-- The request of a run that may overwrite the file. -/
def sampleRequest : ArtifactWriteRequest := ⟨"preview", "approval", true, true⟩

/-- Two runs are created while `a` has its old text, and the first is executed; then the
file is as given, and the second is executed. -/
def twoRuns (content : Option Content) : List WriteOp :=
  [.create 0 "a" "preview" sampleRequest, .create 0 "b" "preview" sampleRequest,
    .execute sampleCall "artifact_write_run_a", .change ("a", content),
    .execute sampleCall "artifact_write_run_b"]

/-- The approval is used twice once the old text is back. -/
theorem approval_used_twice : ((run (writeStep sampleServices) (initialSystem oldFiles)
        (twoRuns (some (.text ['o'])))).completions "approval").map (·.writeRunId) =
      ["artifact_write_run_a", "artifact_write_run_b"] := by
  decide +kernel

theorem sample_withheld {run : ArtifactWriteRun} {clock : ℕ} {files : Workspace}
    (h : files "a" = some (.text ['x'])) : run.Withheld sampleServices clock files := by
  right
  right
  right
  refine ⟨_, rfl, ?_⟩
  unfold TargetStands
  cases run.allowOverwrite with
  | false =>
    change (files "a").isSome = true
    rw [h]
    rfl
  | true =>
    right
    right
    refine ⟨"a", .text ['x'], rfl, by decide, h, ?_⟩
    decide

/-- Over another text the second run is withheld, and the approval is used once. -/
theorem approval_used_once_over_change : ((run (writeStep sampleServices) (initialSystem oldFiles)
      (twoRuns (some (.text ['x'])))).completions "approval").length ≤ 1 := by
  have hcreated : ∀ s : WriteSystem, ∀ digits,
      (writeStep sampleServices s (.create 0 digits "preview" sampleRequest)).store.results =
        s.store.results :=
    fun s digits => createRunFromPreview_results _ _ _ _ _ _
  have hchanged : ∀ s : WriteSystem,
      (writeStep sampleServices s (.change ("a", some (.text ['x'])))).store.files "a" =
        some (.text ['x']) := by
    intro s
    exact overlay_single_self s.store.files "a" (some (.text ['x']))
  have hspares : Along (writeStep sampleServices) (SparesUsed sampleServices)
      (initialSystem oldFiles) (twoRuns (some (.text ['x']))) := by
    refine ⟨trivial, trivial, ?_, trivial, ?_, trivial⟩
    · rintro run - - ⟨id, result, hid, -⟩
      rw [hcreated, hcreated] at hid
      cases hid
    · intro run _ _ _
      exact sample_withheld (hchanged _)
  refine (approval_used_once sampleServices oldFiles _ hspares "approval").2 ?_
  refine ⟨trivial, trivial, ?_, trivial, ?_, trivial⟩
  · intro result hresult
    rw [hcreated, hcreated] at hresult
    cases hresult
  · intro result hresult
    have hnone : ((run (writeStep sampleServices) (initialSystem oldFiles)
        ((twoRuns (some (.text ['x']))).take 4)).store.results.get?
          "artifact_write_run_b").isNone = true := by
      decide +kernel
    have hsame : (run (writeStep sampleServices) (initialSystem oldFiles)
        ((twoRuns (some (.text ['x']))).take 4)).store.results.get?
          "artifact_write_run_b" = some result := hresult
    rw [hsame] at hnone
    cases hnone

end AIpinho.Artifacts
