import AIpinho.Lib.Alone
import AIpinho.Runtime.Lifecycle

/-!
# Saved runs

A run that is read completely and written again keeps its plan, its artifacts and everything
else, also what was spilled to files. A run that is read without its payloads and written again
has lost them.
-/

namespace AIpinho.Runtime

open List Lib

def TaskRun.kept (run : TaskRun) : TaskRun :=
  { run with
    status := .created
    currentStepId := none
    approvalSnapshot := .null
    autoRunRequested := false
    cancellationRequested := false
    cancellationReason := none
    revision := 0
    startedAt := none
    finishedAt := none
    blockedReasons := [] }

def TaskRun.withEvidence (evidence : List (String × Json)) (run : TaskRun) : TaskRun :=
  { run with evidence := evidence }

def RunRead.kept : RunRead → RunRead
  | .missing => .missing
  | .invalid => .invalid
  | .found run => .found run.kept

section Kept

variable {run run' : TaskRun} {now : String}

theorem TaskRun.kept_moved (now : String) (target : TaskRunStatus) (run : TaskRun) :
    (run.moved now target).kept = run.kept := rfl

theorem TaskRun.kept_stored (codec : Codec) (run : TaskRun) :
    (run.stored codec).kept = (run.kept.mapText sanitizeText).withEvidence
      (lightenFields codec run.runId "" (sanitizeFields run.evidence)) := rfl

theorem TaskRun.kept_hydrated (payloads : PayloadFiles) (run : TaskRun) :
    (run.hydrated payloads).kept = run.kept.withEvidence (hydrateFields payloads run.evidence) :=
  rfl

theorem TaskRun.kept_projected (run : TaskRun) :
    run.projected.kept = run.kept.withEvidence (projectFields run.evidence) := rfl

theorem TaskRun.kept_transition {target : TaskRunStatus}
    (h : run.transition now target = .ok run') : run'.kept = run.kept := by
  rcases TaskRun.transition_eq_ok h with ⟨rfl, -⟩ | ⟨-, rfl⟩
  · rfl
  · exact TaskRun.kept_moved now target run

theorem TaskRun.evidence_kept (run : TaskRun) : run.kept.evidence = run.evidence := rfl

theorem TaskRun.runId_kept (run : TaskRun) : run.kept.runId = run.runId := rfl

end Kept

/-- Saving the run changes nothing that is kept, and nothing in it reads as a reference
to a payload. -/
structure TaskRun.Storable (runId : String) (run : TaskRun) : Prop where
  runId_eq : run.runId = runId
  text : run.kept.mapText sanitizeText = run.kept
  evidence : sanitizeFields run.evidence = run.evidence
  plain : ∀ f ∈ run.evidence, plain f.2 = true

/-- The files hold a run with all its payloads. -/
structure RunFiles.Saved (codec : Codec) (runId : String) (view : TaskRun) (files : RunFiles) :
    Prop where
  /-- `run.json` is the saved run. -/
  run : files.run = some (view.stored codec)
  storable : view.Storable runId
  present : ∀ p ∈ spilledFields view.evidence,
    files.payloads.lookup (contentRef runId (codec.digest p)) = some p

section Saved

variable {codec : Codec} {runId : String} {view view' run : TaskRun} {files : RunFiles}

theorem TaskRun.Storable.of_kept (h : view.Storable runId) (hkept : run.kept = view.kept) :
    run.Storable runId := by
  have hevidence : run.evidence = view.evidence := by
    rw [← run.evidence_kept, hkept, view.evidence_kept]
  have hid : run.runId = view.runId := by
    rw [← run.runId_kept, hkept, view.runId_kept]
  refine ⟨hid.trans h.runId_eq, ?_, ?_, ?_⟩
  · rw [hkept]
    exact h.text
  · rw [hevidence]
    exact h.evidence
  · rw [hevidence]
    exact h.plain

variable {fields : List (String × Json)}

theorem hydrateFields_lightenFields {payloads : PayloadFiles}
    (hplain : ∀ f ∈ fields, plain f.2 = true) (path : String)
    (hfiles : ∀ p ∈ spilledFields fields,
      payloads.lookup (contentRef runId (codec.digest p)) = some p) :
    hydrateFields payloads (lightenFields codec runId path fields) = fields := by
  rw [hydrateFields_eq_map, lightenFields_eq_map, map_map]
  refine (map_congr_left fun f hf => ?_).trans (map_id fields)
  have hback : hydratePayloadRefs payloads (lightenForInline codec runId f.1
      (memberPath path f.1) f.2) = f.2 :=
    hydrate_lighten (hplain f hf) f.1 _ fun p hp => hfiles p (mem_spilledFields hf hp)
  simp only [Function.comp_apply, hback, id_eq]

theorem projectFields_lightenFields_eq_iff (hplain : ∀ f ∈ fields, plain f.2 = true)
    (path : String) :
    projectFields (lightenFields codec runId path fields) = fields ↔ spilledFields fields = [] := by
  rw [spilledFields_eq_nil_iff, projectFields_eq_map, lightenFields_eq_map, map_map]
  induction fields with
  | nil => simp
  | cons f fields ih =>
    rw [forall_mem_cons] at hplain
    have hf := project_lighten_eq_iff codec runId hplain.1 f.1 (memberPath path f.1)
    rw [map_cons, List.cons.injEq, ih hplain.2, forall_mem_cons, ← hf]
    simp [Prod.ext_iff]

theorem sanitizeFields_projectFields (h : sanitizeFields fields = fields) (path : String) :
    sanitizeFields (projectFields (lightenFields codec runId path fields)) =
      projectFields (lightenFields codec runId path fields) := by
  rw [sanitizeFields_eq_map] at h
  rw [projectFields_eq_map, lightenFields_eq_map, map_map, sanitizeFields_eq_map, map_map]
  refine map_congr_left fun f hf => ?_
  have hf' : sanitize f.1 f.2 = f.2 :=
    congrArg Prod.snd (map_inj_left.mp (h.trans (map_id fields).symm) f hf)
  simp only [Function.comp_apply, Prod.mk.injEq, true_and]
  rw [sanitize] at hf' ⊢
  by_cases hkey : isSensitiveKey f.1 = true
  · rw [if_pos hkey] at hf' ⊢
    rw [← hf']
    rfl
  · rw [if_neg hkey] at hf' ⊢
    exact sanitizeValue_project_lighten codec runId hf' f.1 _

theorem plain_projectFields (fields : List (String × Json)) :
    ∀ f ∈ projectFields fields, plain f.2 = true := by
  rw [projectFields_eq_map, forall_mem_map]
  exact fun f _ => plain_project f.2

theorem spilledFields_projectFields (hplain : ∀ f ∈ fields, plain f.2 = true) (path : String) :
    spilledFields (projectFields (lightenFields codec runId path fields)) = [] := by
  rw [spilledFields_eq_nil_iff, projectFields_eq_map, lightenFields_eq_map, map_map, forall_mem_map]
  exact fun f hf => spilledPayloads_project_lighten codec runId (hplain f hf) f.1 _

/-- What listings see of the kept part of a run. -/
def TaskRun.light (codec : Codec) (run : TaskRun) : TaskRun :=
  run.withEvidence (projectFields (lightenFields codec run.runId "" run.evidence))

theorem TaskRun.kept_light (codec : Codec) (run : TaskRun) : (run.light codec).kept =
      run.kept.withEvidence (projectFields (lightenFields codec run.runId "" run.evidence)) := rfl

theorem TaskRun.Storable.light (h : view.Storable runId) : (view.light codec).Storable runId := by
  refine ⟨h.runId_eq, ?_, sanitizeFields_projectFields h.evidence "", plain_projectFields _⟩
  have hcomm : ∀ evidence, (view.kept.withEvidence evidence).mapText sanitizeText =
      (view.kept.mapText sanitizeText).withEvidence evidence := fun _ => rfl
  rw [TaskRun.kept_light, hcomm, h.text]

theorem TaskRun.Storable.kept_light_eq_iff (h : view.Storable runId) :
    (view.light codec).kept = view.kept ↔ spilledFields view.evidence = [] := by
  rw [← projectFields_lightenFields_eq_iff h.plain ""]
  constructor
  · intro heq
    have hevidence := congrArg TaskRun.evidence heq
    exact hevidence
  · intro heq
    rw [TaskRun.kept_light, heq]
    rfl

namespace RunFiles.Saved

theorem getRun_kept (h : files.Saved codec runId view) (hvalid : view.isValid = true) :
    ∃ run, files.getRun = .found run ∧ run.kept = view.kept := by
  refine ⟨(view.stored codec).hydrated files.payloads, ?_, ?_⟩
  · rw [RunFiles.getRun, h.run, Option.map_some, RunRead.ofRun]
    simp [hvalid]
  · have hevidence : hydrateFields files.payloads (lightenFields codec view.runId ""
        (sanitizeFields view.evidence)) = view.evidence := by
      rw [h.storable.evidence]
      refine hydrateFields_lightenFields h.storable.plain "" fun p hp => ?_
      rw [h.storable.runId_eq]
      exact h.present p hp
    have hread : (view.stored codec).evidence =
        lightenFields codec view.runId "" (sanitizeFields view.evidence) := rfl
    rw [TaskRun.kept_hydrated, TaskRun.kept_stored, h.storable.text, hread, hevidence]
    rfl

theorem kept_of_getRunLightweight (h : files.Saved codec runId view)
    (hread : files.getRunLightweight = .found run) :
    run.kept = (view.light codec).kept ∧ view.isValid = true := by
  rw [RunFiles.getRunLightweight, h.run, Option.map_some, RunRead.ofRun] at hread
  split at hread
  · rename_i hvalid
    have hvalid' : view.isValid = true := by
      rw [← view.stored_isValid codec]
      exact hvalid
    refine ⟨?_, hvalid'⟩
    rw [← RunRead.found.inj hread]
    have hstored : (view.stored codec).evidence =
        lightenFields codec view.runId "" (sanitizeFields view.evidence) := rfl
    rw [TaskRun.kept_projected, TaskRun.kept_stored, h.storable.text, hstored,
      h.storable.evidence, TaskRun.kept_light]
    rfl
  · cases hread

end RunFiles.Saved

theorem RunFiles.saved_updateRun (hrun : run.Storable runId)
    (hpresent : ∀ p ∈ spilledFields run.evidence,
      files.payloads.lookup (contentRef runId (codec.digest p)) = some p) :
    (files.updateRun codec run).Saved codec runId run :=
  ⟨rfl, hrun, fun p hp => PayloadFiles.lookup_writeAll (hpresent p hp) _⟩

theorem RunFiles.Saved.updateRun (h : files.Saved codec runId view)
    (hkept : run.kept = view.kept) : (files.updateRun codec run).Saved codec runId run := by
  refine RunFiles.saved_updateRun (h.storable.of_kept hkept) fun p hp => h.present p ?_
  rw [← view.evidence_kept, ← hkept, run.evidence_kept]
  exact hp

theorem RunFiles.Saved.appendEvent (h : files.Saved codec runId view) (e : TaskRunEvent) :
    (files.appendEvent codec runId e).Saved codec runId view :=
  ⟨h.run, h.storable, fun p hp => PayloadFiles.lookup_writeAll (h.present p hp) _⟩

def RunFiles.Shows (codec : Codec) (runId : String) (kept : TaskRun) (files : RunFiles) : Prop :=
  ∃ view, files.Saved codec runId view ∧ view.kept = kept

theorem RunFiles.Shows.getRun {kept : TaskRun} (h : files.Shows codec runId kept)
    (hvalid : kept.isValid = true) : files.getRun.kept = .found kept := by
  obtain ⟨view, hsaved, rfl⟩ := h
  obtain ⟨run, hrun, hkept⟩ := hsaved.getRun_kept hvalid
  rw [hrun, RunRead.kept, hkept]

theorem RunFiles.Shows.withIndex {kept : TaskRun} (h : files.Shows codec runId kept)
    (index : Option TaskRunStatus) :
    ({ files with index := index } : RunFiles).Shows codec runId kept := by
  obtain ⟨view, hsaved, hkept⟩ := h
  exact ⟨view, ⟨hsaved.run, hsaved.storable, hsaved.present⟩, hkept⟩

theorem cancel_keeps_shows {kept : TaskRun} (hvalid : kept.isValid = true)
    (now reason : String) :
    (cancel now reason).Keeps (runHandler codec runId) (RunFiles.Shows codec runId kept) := by
  rintro files ⟨view, hsaved, rfl⟩
  obtain ⟨run, hread, hkept⟩ := hsaved.getRun_kept hvalid
  have hevent : ∀ e, (files.appendEvent codec runId e).Saved codec runId view :=
    fun e => hsaved.appendEvent e
  dsimp only [cancel, RunProgram.getRun, Program.perform, bind, Program.bind, Program.run,
    runHandler]
  simp only [hread]
  dsimp only [pure, Program.bind]
  by_cases hcan : run.status.canCancel = true
  · simp only [hcan, Bool.not_true, Bool.false_eq_true, if_false]
    by_cases honce : (run.withCancellation reason).status.cancelsAtOnce = true
    · simp only [honce, if_true]
      cases htransition : (run.withCancellation reason).transition now .cancelled with
      | error e => exact ⟨view, hevent _, rfl⟩
      | ok run' =>
        have hkept' : run'.kept = view.kept := (TaskRun.kept_transition htransition).trans hkept
        exact ⟨run', ((hevent _).appendEvent _).updateRun hkept', hkept'⟩
    · simp only [honce]
      exact ⟨run.withCancellation reason, (hevent _).updateRun hkept, hkept⟩
  · simp only [hcan, Bool.not_false, if_true]
    exact ⟨view, hsaved, rfl⟩

end Saved

end AIpinho.Runtime
