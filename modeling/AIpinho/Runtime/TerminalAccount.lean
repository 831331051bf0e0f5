import AIpinho.Lib.Alone
import AIpinho.Runtime.TerminalStates

/-!
# A run and its terminal event

A service that runs alone either leaves a run that has not ended as such, or ends it completely:
with a terminal status, one terminal event of that status, and no result that contradicts them.
-/

namespace AIpinho.Runtime

open Lib

section Log

variable {codec : Codec} {runId : String} {events : List TaskRunEvent} {e : TaskRunEvent}
  {o : RunOutcome}

def OneEnd (o : RunOutcome) (events : List TaskRunEvent) : Prop :=
  ∃ type, terminals events = [(type, o.status.text)]

theorem terminals_pushEvent (codec : Codec) (runId : String) (events : List TaskRunEvent)
    (e : TaskRunEvent) :
    terminals (pushEvent codec runId events e) =
      ((terminals events ++ if e.isTerminal then [(e.type, e.status)] else []).map
        fun t => (sanitizeText t.1, sanitizeText t.2)) := by
  rw [pushEvent, terminals_storedEvents, terminals_append, terminals_singleton]
  rfl

theorem sanitizeText_statusText (o : RunOutcome) : sanitizeText o.status.text = o.status.text := by
  cases o <;> decide

theorem not_hasEnd_iff_terminals : ¬HasEnd events ↔ terminals events = [] := by
  simp [HasEnd, terminals, List.filter_eq_nil_iff]

theorem firstTerminalEvent_isSome_iff : (firstTerminalEvent events).isSome ↔ HasEnd events := by
  constructor
  · intro h
    obtain ⟨e, he⟩ := Option.isSome_iff_exists.mp h
    exact ⟨e, mem_of_firstTerminalEvent he⟩
  · intro h
    by_contra hnone
    exact firstTerminalEvent_eq_none (Option.not_isSome_iff_eq_none.mp hnone) h

theorem OneEnd.hasEnd (h : OneEnd o events) : HasEnd events := by
  by_contra hnot
  obtain ⟨type, htype⟩ := h
  rw [not_hasEnd_iff_terminals.mp hnot] at htype
  cases htype

theorem OneEnd.of_append (h : ¬HasEnd events) (stamp : Stamp) (he : e.isTerminal = true)
    (hstatus : e.status = o.status.text) :
    OneEnd o (Runtime.appendEvent codec runId stamp e events) := by
  have hnone : refusedBy events e = none := by
    rw [refusedBy, if_pos he, ← Option.not_isSome_iff_eq_none, firstTerminalEvent_isSome_iff]
    exact h
  refine ⟨sanitizeText e.type, ?_⟩
  rw [Runtime.appendEvent, hnone]
  simp only
  rw [terminals_pushEvent, not_hasEnd_iff_terminals.mp h, he]
  simp [hstatus, sanitizeText_statusText]

end Log

namespace RunFiles

/-- The run has expired, and nothing else has happened. -/
structure Lapsed (files : RunFiles) : Prop where
  run : ∃ run, files.run = some run ∧ run.status = .expired
  result : files.result = none
  noEnd : ¬HasEnd files.events

/-- The status is written, and what there is of a result belongs to it. -/
structure Closing (o : RunOutcome) (files : RunFiles) : Prop where
  run : ∃ run, files.run = some run ∧ run.status = o.status
  result : ∀ result, files.result = some result → result.status.outcome = o

/-- The run has ended with an outcome. -/
structure EndedAs (o : RunOutcome) (files : RunFiles) : Prop extends Closing o files where
  /-- There is one terminal event, with the status of the run. -/
  oneEnd : OneEnd o files.events

/-- The run has its terminal event, and the status is not written yet. -/
structure Announced (o : RunOutcome) (files : RunFiles) : Prop extends Unsettled files where
  oneEnd : OneEnd o files.events

/-- The run is open, has lapsed, or has the one event of its end. -/
def Accounted (files : RunFiles) : Prop := files.Open ∨ files.Lapsed ∨ ∃ o, files.EndedAs o

end RunFiles

def TaskRunStatus.isEnd : TaskRunStatus → Bool
  | .completed | .partially | .failed | .cancelled | .blocked => true
  | _ => false

/-- A run has ended exactly if its log has one terminal event, of its status. -/
def TerminalEventLaw (files : RunFiles) : Prop :=
  ∀ run, files.run = some run →
    (run.status.isEnd = true ↔
      ∃ e, files.events.filter (·.isTerminal) = [e] ∧ e.status = run.status.text)

theorem OneEnd.exists_event {o : RunOutcome} {events : List TaskRunEvent} (h : OneEnd o events) :
    ∃ e, events.filter (·.isTerminal) = [e] ∧ e.status = o.status.text := by
  obtain ⟨type, htype⟩ := h
  rw [terminals, List.map_eq_singleton_iff] at htype
  obtain ⟨e, he, heq⟩ := htype
  exact ⟨e, he, (Prod.mk.inj heq).2⟩

theorem TaskRunStatus.isEnd_eq_false {status : TaskRunStatus} (h : status.isTerminal = false) :
    status.isEnd = false := by
  cases status <;> first | rfl | cases h

theorem RunOutcome.isEnd_status (o : RunOutcome) : o.status.isEnd = true := by
  cases o <;> rfl

theorem RunFiles.Accounted.law {files : RunFiles} (h : files.Accounted) :
    TerminalEventLaw files := by
  have hnone : ¬HasEnd files.events → ∀ status : TaskRunStatus, status.isEnd = false →
      (status.isEnd = true ↔
        ∃ e, files.events.filter (·.isTerminal) = [e] ∧ e.status = status.text) := by
    intro hnot status hstatus
    rw [hstatus]
    refine iff_of_false (by simp) ?_
    rintro ⟨e, he, -⟩
    have hmem : e ∈ files.events.filter (·.isTerminal) := by simp [he]
    rw [List.mem_filter] at hmem
    exact absurd ⟨e, hmem.1, hmem.2⟩ hnot
  intro run hrun
  rcases h with h | h | ⟨o, h⟩
  · exact hnone h.noEnd _ (TaskRunStatus.isEnd_eq_false (h.run run hrun))
  · obtain ⟨run', hrun', hstatus⟩ := h.run
    rw [hrun, Option.some.injEq] at hrun'
    subst hrun'
    exact hnone h.noEnd _ (by rw [hstatus]; rfl)
  · obtain ⟨run', hrun', hstatus⟩ := h.run
    rw [hrun, Option.some.injEq] at hrun'
    subst hrun'
    rw [hstatus]
    exact iff_of_true o.isEnd_status h.oneEnd.exists_event

section Step

variable {codec : Codec} {runId : String} {files : RunFiles} {o : RunOutcome}

theorem RunFiles.Open.announce (h : files.Open) {e : TaskRunEvent} (he : e.isTerminal = true)
    (hstatus : e.status = o.status.text) :
    (runHandler codec runId (.appendEvent e) files).2.Announced o :=
  ⟨⟨h.run, h.result⟩, OneEnd.of_append h.noEnd _ he hstatus⟩

theorem RunFiles.Announced.end (h : files.Announced o) {run : TaskRun}
    (hrun : run.status = o.status) :
    (files.updateRun codec run).EndedAs o := by
  refine ⟨⟨⟨_, rfl, hrun⟩, ?_⟩, h.oneEnd⟩
  intro result hresult
  have hnone : files.result = none := h.result
  change files.result = some result at hresult
  rw [hnone] at hresult
  cases hresult

theorem RunFiles.EndedAs.updateRun (h : files.EndedAs o) {run : TaskRun}
    (hrun : run.status = o.status) :
    (files.updateRun codec run).EndedAs o :=
  ⟨⟨⟨_, rfl, hrun⟩, h.result⟩, h.oneEnd⟩

theorem RunFiles.Closing.cohere (h : files.Closing o) (now : String) {status : ResultStatus}
    (hstatus : status.outcome = o) :
    (files.cohereTerminalResult codec now status).Closing o := by
  obtain ⟨run, hrun, hrunStatus⟩ := h.run
  simp only [RunFiles.cohereTerminalResult, hrun]
  split
  · exact h
  · refine ⟨⟨_, rfl, ?_⟩, h.result⟩
    change status.runStatus = o.status
    rw [status.runStatus_eq, hstatus]

theorem events_cohereTerminalResult (now : String) (status : ResultStatus) (files : RunFiles) :
    (files.cohereTerminalResult codec now status).events = files.events := by
  rw [RunFiles.cohereTerminalResult]
  split
  · rfl
  · split <;> rfl

theorem RunFiles.Closing.saveResult (h : files.Closing o) (now : String) {result : TaskRunResult}
    (hresult : result.status.outcome = o) :
    (files.saveResult codec now result).Closing o := by
  have hsaved : ({ files with result := some (result.mapText sanitizeText) } :
      RunFiles).Closing o := by
    refine ⟨h.run, ?_⟩
    rintro result' ⟨⟩
    exact hresult
  exact hsaved.cohere now hresult

theorem RunFiles.EndedAs.saveResult (h : files.EndedAs o) (now : String) {result : TaskRunResult}
    (hresult : result.status.outcome = o) :
    (files.saveResult codec now result).EndedAs o := by
  refine ⟨h.toClosing.saveResult now hresult, ?_⟩
  rw [RunFiles.saveResult, events_cohereTerminalResult]
  exact h.oneEnd

theorem RunFiles.EndedAs.cohere (h : files.EndedAs o) (now : String) {status : ResultStatus}
    (hstatus : status.outcome = o) :
    (files.cohereTerminalResult codec now status).EndedAs o := by
  refine ⟨h.toClosing.cohere now hstatus, ?_⟩
  rw [events_cohereTerminalResult]
  exact h.oneEnd

theorem RunFiles.Closing.announce (h : files.Closing o) (hnoEnd : ¬HasEnd files.events)
    {e : TaskRunEvent} (he : e.isTerminal = true) (hstatus : e.status = o.status.text) :
    (files.appendEvent codec runId e).EndedAs o :=
  ⟨⟨h.run, h.result⟩, OneEnd.of_append hnoEnd _ he hstatus⟩

end Step

section Services

variable {codec : Codec} {runId : String} {files : RunFiles} {P : RunFiles → Prop}

/-- The stored run has the status. -/
def RunFiles.HasStatus (status : TaskRunStatus) (files : RunFiles) : Prop :=
  ∃ run, files.run = some run ∧ run.status = status

variable {run : TaskRun} {result : TaskRunResult}

theorem RunFiles.hasStatus_of_getRun (h : files.getRun = .found run) :
    files.HasStatus run.status := RunFiles.exists_run_of_getRun h

theorem getRun_holds (notFound : String) :
    (RunProgram.getRun notFound).Holds (runHandler codec runId) P
      fun r files => P files ∧ ∀ run, r = .ok run → files.HasStatus run.status := by
  intro files h
  have hread : ∀ run, files.getRun = .found run → files.HasStatus run.status :=
    fun _ => RunFiles.hasStatus_of_getRun
  dsimp only [RunProgram.getRun, Program.perform, bind, Program.bind, Program.run, runHandler]
  cases hrun : files.getRun with
  | missing | invalid => exact ⟨h, fun run hrun => by cases hrun⟩
  | found run =>
    refine ⟨h, ?_⟩
    rintro run' ⟨⟩
    exact hread run hrun

namespace RunFiles

variable {status : TaskRunStatus}

theorem Open.hasStatus (h : files.Open) (hstatus : files.HasStatus status) :
    status.isTerminal = false := by
  obtain ⟨run, hrun, rfl⟩ := hstatus
  exact h.run run hrun

theorem Lapsed.hasStatus (h : files.Lapsed) (hstatus : files.HasStatus status) :
    status = .expired := by
  obtain ⟨run, hrun, rfl⟩ := hstatus
  obtain ⟨run', hrun', hexpired⟩ := h.run
  rw [hrun, Option.some.injEq] at hrun'
  rw [hrun', hexpired]

theorem EndedAs.hasStatus {o : RunOutcome} (h : files.EndedAs o)
    (hstatus : files.HasStatus status) : status = o.status := by
  obtain ⟨run, hrun, rfl⟩ := hstatus
  obtain ⟨run', hrun', hended⟩ := h.run
  rw [hrun, Option.some.injEq] at hrun'
  rw [hrun', hended]

theorem Accounted.open_of_hasStatus (h : files.Accounted) (hstatus : files.HasStatus status)
    (hopen : status.isTerminal = false) : files.Open := by
  rcases h with h | h | ⟨o, h⟩
  · exact h
  · rw [h.hasStatus hstatus] at hopen
    cases hopen
  · rw [h.hasStatus hstatus, o.isTerminal_status] at hopen
    cases hopen

end RunFiles

theorem TaskRunStatus.not_isTerminal_of_canCancel {status : TaskRunStatus}
    (h : status.canCancel = true) : status.isTerminal = false := by
  cases status <;> first | rfl | cases h

variable (now : String)

theorem TaskRunStatus.transition_cancelled (h : run.status.cancelsAtOnce = true) :
    run.transition now .cancelled = .ok (run.moved now .cancelled) := by
  have hmem : .cancelled ∈ run.status.targets ∧ run.status ≠ .cancelled := by
    revert h
    cases run.status <;> decide
  exact TaskRun.transition_of_mem hmem.1 hmem.2

theorem cancel_keeps_accounted (reason : String) :
    (cancel now reason).Keeps (runHandler codec runId) RunFiles.Accounted := by
  refine Program.Holds.bind (getRun_holds _) (fun run => ?_) fun e files h => h.1
  rintro files ⟨h, hread⟩
  have hstatus := hread run rfl
  by_cases hcan : run.status.canCancel = true
  · have hopen := h.open_of_hasStatus hstatus (TaskRunStatus.not_isTerminal_of_canCancel hcan)
    simp only [hcan, Bool.not_true, Bool.false_eq_true, if_false]
    have hrequested : ∀ e : TaskRunEvent, e.isTerminal = false →
        (runHandler codec runId (.appendEvent e) files).2.Open := fun e he => hopen.step he
    by_cases honce : (run.withCancellation reason).status.cancelsAtOnce = true
    · simp only [honce, if_true, TaskRunStatus.transition_cancelled now honce]
      refine .inr (.inr ⟨.cancelled, ?_⟩)
      exact ((hrequested _ rfl).announce rfl rfl).end rfl
    · simp only [honce]
      have hrun : (run.withCancellation reason).status.isTerminal = false := hopen.hasStatus hstatus
      exact .inl ((hrequested _ rfl).step hrun)
  · simp only [hcan, Bool.not_false, if_true]
    exact h

def StoreServices.AgreesOn (services : StoreServices) (files : RunFiles) : Prop :=
  ∀ run, files.getRun = .found run → run.status.isTerminal = true →
    ∀ result, services.finalizer run = some result → result.status.runStatus = run.status

variable {services : StoreServices} {clock : Clock} {o : RunOutcome}

theorem RunFiles.Open.close (h : files.Open) (hrun : run.status = o.status) :
    (files.updateRun codec run).Closing o := by
  refine ⟨⟨_, rfl, hrun⟩, ?_⟩
  intro result hresult
  have hnone : files.result = none := h.result
  change files.result = some result at hresult
  rw [hnone] at hresult
  cases hresult

theorem RunFiles.Open.terminalize (h : files.Open) (now : String) (hrun : run.status = o.status)
    (hresult : result.status.outcome = o) {e : TaskRunEvent} (he : e.isTerminal = true)
    (hstatus : e.status = o.status.text) :
    (((files.updateRun codec run).saveResult codec now result).appendEvent codec runId e).EndedAs
      o := by
  refine ((h.close hrun).saveResult now hresult).announce ?_ he hstatus
  rw [RunFiles.saveResult, events_cohereTerminalResult]
  exact h.noEnd

def TaskRun.stalled (services : StoreServices) (now reason logicalPath : String)
    (row : List (String × Json)) (run : TaskRun) : TaskRun :=
  let finishedAt := if run.finishedAt.getD "" = "" then some now else run.finishedAt
  let blocked := run.blockedBy finishedAt reason "artifact_creation_stall_terminalized"
  { blocked with
    evidence := Json.setField "produced_artifacts"
      (.list ((withStalledRow services.codec run logicalPath row).map .obj)) blocked.evidence }

/-- What the watchdog of silent artifacts does to a run that goes on. -/
inductive StallWatch (services : StoreServices) (clock : Clock) (maxSilence : ℤ) (codec : Codec)
    (runId : String) (run : TaskRun) (files : RunFiles) :
    Except String (Option TaskRunResult) × RunFiles → Prop
  | quiet (h : stalledArtifact services.codec clock maxSilence files.events = none) :
      StallWatch services clock maxSilence codec runId run files (.ok none, files)
  /-- The time at which the artifact was begun cannot be read. -/
  | fails (artifactEvent : TaskRunEvent)
      (h : stalledArtifact services.codec clock maxSilence files.events = some artifactEvent)
      (helapsed : clock.elapsed artifactEvent.timestamp = none) :
      StallWatch services clock maxSilence codec runId run files (.error "TypeError", files)
  | blocks (artifactEvent failed ended : TaskRunEvent) (result : TaskRunResult)
      (reason : String) (row : List (String × Json))
      (h : stalledArtifact services.codec clock maxSilence files.events = some artifactEvent)
      (helapsed : (clock.elapsed artifactEvent.timestamp).isSome)
      (hfailed : failed.type = "artifact_failed") (hended : ended.type = "run_blocked")
      (hstatus : ended.status = "blocked") (hresult : result.status = .blocked) :
      StallWatch services clock maxSilence codec runId run files
        (.ok (some result),
          (((files.appendEvent codec runId failed).updateRun codec
            (run.stalled services clock.now reason
              (memberText services.codec artifactEvent.metadata "logical_path") row)).saveResult
                codec clock.now result).appendEvent codec runId ended)

theorem stallWatch_of_active (hresult : files.result = none) (hread : files.getRun = .found run)
    (hactive : run.status.isActive = true) (hnoEnd : ¬HasEnd files.events) (maxSilence : ℤ)
    (reasonCode source : String) :
    StallWatch services clock maxSilence codec runId run files
      ((terminalizeIfArtifactCreationStalled services clock maxSilence reasonCode source).run
        (runHandler codec runId) files) := by
  have hnone : (firstTerminalEvent files.events).isSome = false := by
    rw [Bool.eq_false_iff, Ne, firstTerminalEvent_isSome_iff]
    exact hnoEnd
  dsimp only [terminalizeIfArtifactCreationStalled, RunProgram.readResult, RunProgram.getRun?,
    Program.perform, bind, Program.bind, Program.run, runHandler]
  simp only [hresult]
  dsimp only [Program.bind, Program.run, runHandler]
  simp only [hread]
  dsimp only [pure, Program.bind]
  simp only [hactive, Bool.not_true, Bool.false_eq_true, if_false]
  dsimp only [RunProgram.getEvents, Program.perform, Program.bind, Program.run, runHandler]
  simp only [hnone, Bool.false_eq_true, if_false]
  cases hstalled : stalledArtifact services.codec clock maxSilence files.events with
  | none => exact .quiet hstalled
  | some artifactEvent =>
    cases helapsed : clock.elapsed artifactEvent.timestamp with
    | none =>
      simp only [helapsed]
      exact .fails artifactEvent hstalled helapsed
    | some elapsed =>
      simp only [helapsed]
      exact .blocks artifactEvent _ _ _ _ _ hstalled (by simp [helapsed]) rfl rfl rfl rfl

theorem run_terminalize_of_found (hresult : files.result = none) (hread : files.getRun = .found run)
    (hquiet : run.status.isActive = false ∨ HasEnd files.events) (maxSilence : ℤ)
    (reasonCode source : String) :
    (terminalizeIfArtifactCreationStalled services clock maxSilence reasonCode source).run
      (runHandler codec runId) files = (.ok none, files) := by
  dsimp only [terminalizeIfArtifactCreationStalled, RunProgram.readResult, RunProgram.getRun?,
    Program.perform, bind, Program.bind, Program.run, runHandler]
  simp only [hresult]
  dsimp only [Program.bind, Program.run, runHandler]
  simp only [hread]
  dsimp only [pure, Program.bind]
  cases hactive : run.status.isActive with
  | false =>
    simp only [Bool.not_false, if_true]
    rfl
  | true =>
    have hsome : (firstTerminalEvent files.events).isSome = true :=
      firstTerminalEvent_isSome_iff.mpr (hquiet.resolve_left (by simp [hactive]))
    have hopen := TaskRunStatus.not_isTerminal_of_isActive hactive
    simp only [Bool.not_true, Bool.false_eq_true, if_false]
    dsimp only [RunProgram.getEvents, Program.perform, Program.bind, Program.run, runHandler]
    simp only [hsome, if_true]
    dsimp only [ensureTerminalResult, RunProgram.readResult, RunProgram.getRun?,
      Program.perform, bind, Program.bind, Program.run, runHandler]
    simp only [hresult]
    dsimp only [Program.bind, Program.run, runHandler]
    simp only [hread]
    dsimp only [pure, Program.bind]
    simp only [hopen, Bool.not_false, if_true]
    rfl

theorem run_terminalize_of_result {existing : TaskRunResult}
    (hresult : files.result = some existing) (maxSilence : ℤ) (reasonCode source : String) :
    (terminalizeIfArtifactCreationStalled services clock maxSilence reasonCode source).run
      (runHandler codec runId) files = (.ok (some existing), files) := by
  dsimp only [terminalizeIfArtifactCreationStalled, RunProgram.readResult,
    Program.perform, bind, Program.bind, Program.run, runHandler]
  rw [hresult]
  rfl

theorem run_terminalize_of_inactive (maxSilence : ℤ) (reasonCode source : String)
    (h : files.result.isSome ∨ ∀ run, files.getRun = .found run → run.status.isActive = false) :
    ((terminalizeIfArtifactCreationStalled services clock maxSilence reasonCode source).run
      (runHandler codec runId) files).2 = files := by
  cases hresult : files.result with
  | some existing => rw [run_terminalize_of_result hresult]
  | none =>
    cases hread : files.getRun with
    | found run =>
      have hactive := (h.resolve_left (by simp [hresult])) run hread
      rw [run_terminalize_of_found hresult hread (.inl hactive)]
    | missing | invalid =>
      dsimp only [terminalizeIfArtifactCreationStalled, RunProgram.readResult, RunProgram.getRun?,
        Program.perform, bind, Program.bind, Program.run, runHandler]
      simp only [hresult]
      dsimp only [Program.bind, Program.run, runHandler]
      simp only [hread]
      rfl

theorem terminalize_keeps_accounted (maxSilence : ℤ) (reasonCode source : String) :
    (terminalizeIfArtifactCreationStalled services clock maxSilence reasonCode source).Keeps
      (runHandler codec runId) RunFiles.Accounted := by
  intro files h
  by_cases hactive : ∃ run, files.getRun = .found run ∧ run.status.isActive = true
  · obtain ⟨run, hread, hactive⟩ := hactive
    have hopen := h.open_of_hasStatus (RunFiles.hasStatus_of_getRun hread)
      (TaskRunStatus.not_isTerminal_of_isActive hactive)
    have hwatch : StallWatch services clock maxSilence codec runId run files _ :=
      stallWatch_of_active hopen.result hread hactive hopen.noEnd maxSilence reasonCode source
    generalize (terminalizeIfArtifactCreationStalled services clock maxSilence reasonCode
      source).run (runHandler codec runId) files = r at hwatch ⊢
    cases hwatch with
    | quiet | fails => exact h
    | blocks artifactEvent failed ended result reason row _ _ hfailed hended hstatus hresult =>
      have hwork : failed.isTerminal = false := by
        rw [TaskRunEvent.isTerminal, hfailed]
        decide
      have hopen' : (runHandler codec runId (.appendEvent failed) files).2.Open := hopen.step hwork
      have hend : ended.isTerminal = true := isTerminal_of_type (o := .blocked) hended
      have hblocked : result.status.outcome = .blocked := by
        rw [hresult]
        rfl
      exact .inr (.inr ⟨.blocked, hopen'.terminalize clock.now rfl hblocked hend hstatus⟩)
  · rw [run_terminalize_of_inactive]
    · exact h
    · right
      intro run hread
      by_contra hnot
      exact hactive ⟨run, hread, by simpa using hnot⟩

theorem TaskRunStatus.outcome_conservativeResult (o : RunOutcome) :
    o.status.conservativeResult.outcome = o := by
  cases o <;> rfl

variable (reasonCode : Option String)

theorem saveTerminalResult_ended (source : String) (hresult : result.status.outcome = o) :
    (saveTerminalResult clock reasonCode source result).Keeps (runHandler codec runId)
      (RunFiles.EndedAs o) := by
  intro files h
  have hsaved : (files.saveResult codec clock.now result).EndedAs o :=
    h.saveResult clock.now hresult
  have hsome := firstTerminalEvent_isSome_iff.mpr hsaved.oneEnd.hasEnd
  dsimp only [saveTerminalResult, RunProgram.saveResult, RunProgram.getEvents, Program.perform,
    bind, Program.bind, Program.run, runHandler]
  rw [if_pos hsome]
  exact hsaved

theorem saveTerminalResult_lapsed (source : String) (hresult : result.status = .blocked) :
    (saveTerminalResult clock reasonCode source result).Holds (runHandler codec runId)
      RunFiles.Lapsed fun _ files => files.EndedAs .blocked := by
  intro files h
  obtain ⟨run, hrun, hexpired⟩ := h.run
  have hsaved : (files.saveResult codec clock.now result).Closing .blocked := by
    have hnot : run.isCoherent result.status = false := by
      simp [TaskRun.isCoherent, hexpired, hresult, ResultStatus.runStatus]
    simp only [RunFiles.saveResult, RunFiles.cohereTerminalResult, hrun, hnot]
    refine ⟨⟨_, rfl, ?_⟩, ?_⟩
    · change result.status.runStatus = _
      rw [hresult]
      rfl
    · rintro result' ⟨⟩
      change result.status.outcome = _
      rw [hresult]
      rfl
  have hevents : (files.saveResult codec clock.now result).events = files.events := by
    rw [RunFiles.saveResult, events_cohereTerminalResult]
  have hnone : ¬(firstTerminalEvent (files.saveResult codec clock.now result).events).isSome := by
    rw [firstTerminalEvent_isSome_iff, hevents]
    exact h.noEnd
  dsimp only [saveTerminalResult, RunProgram.saveResult, RunProgram.getEvents, Program.perform,
    bind, Program.bind, Program.run, runHandler]
  rw [if_neg hnone]
  refine hsaved.announce (by rw [hevents]; exact h.noEnd) ?_ ?_
  · rw [isTerminal_newEvent, hresult]
    rfl
  · change result.status.text = _
    rw [hresult]
    rfl

/-- A result that is made up for an accounted run leaves it accounted. -/
theorem ensureTerminalResult_accounts :
    (ensureTerminalResult services clock reasonCode).Holds (runHandler codec runId)
      (fun files => files.Accounted ∧ services.AgreesOn files)
      fun _ files => files.Accounted := by
  rintro files ⟨h, hagrees⟩
  dsimp only [ensureTerminalResult, RunProgram.readResult, RunProgram.getRun?, Program.perform,
    bind, Program.bind, Program.run, runHandler]
  cases hresult : files.result with
  | some existing => exact h
  | none =>
    dsimp only [Program.bind, Program.run, runHandler]
    cases hread : files.getRun with
    | missing | invalid => exact h
    | found run =>
      have hstatus := RunFiles.hasStatus_of_getRun hread
      dsimp only [pure, Program.bind]
      by_cases hterminal : run.status.isTerminal = true
      · simp only [hterminal, Bool.not_true, Bool.false_eq_true, if_false]
        dsimp only [RunProgram.getEvents, Program.perform, Program.bind, Program.run, runHandler]
        rcases h with h | h | ⟨o, h⟩
        · rw [h.hasStatus hstatus] at hterminal
          cases hterminal
        · have hexpired := h.hasStatus hstatus
          cases hfinal : services.finalizer run with
          | some result =>
            have hnot := hagrees run hread hterminal result hfinal
            rw [hexpired] at hnot
            cases hresult : result.status <;> rw [hresult] at hnot <;> cases hnot
          | none =>
            refine .inr (.inr ⟨.blocked, ?_⟩)
            dsimp only
            rw [Program.run_map]
            refine saveTerminalResult_lapsed _ _ ?_ files h
            change run.status.conservativeResult = .blocked
            rw [hexpired]
            rfl
        · have hended := h.hasStatus hstatus
          cases hfinal : services.finalizer run with
          | some result =>
            have hagree := hagrees run hread hterminal result hfinal
            rw [hended, result.status.runStatus_eq] at hagree
            refine .inr (.inr ⟨o, ?_⟩)
            dsimp only
            rw [Program.run_map]
            exact saveTerminalResult_ended _ _ (RunOutcome.status_injective hagree) files h
          | none =>
            refine .inr (.inr ⟨o, ?_⟩)
            dsimp only
            rw [Program.run_map]
            refine saveTerminalResult_ended _ _ ?_ files h
            change run.status.conservativeResult.outcome = o
            rw [hended, TaskRunStatus.outcome_conservativeResult]
      · simp only [hterminal, Bool.not_false, if_true]
        exact h

theorem getResult_accounts : (getResult services clock).Holds (runHandler codec runId)
      (fun files => files.Accounted ∧ services.AgreesOn files)
      fun _ files => files.Accounted := by
  rintro files ⟨h, hagrees⟩
  dsimp only [getResult, RunProgram.readResult, RunProgram.getRunIndex, Program.perform, bind,
    Program.bind, Program.run, runHandler]
  cases hresult : files.result with
  | some result =>
    rcases h with h | h | ⟨o, h⟩
    · rw [h.result] at hresult
      cases hresult
    · rw [h.result] at hresult
      cases hresult
    · exact .inr (.inr ⟨o, h.cohere clock.now (h.result result hresult)⟩)
  | none =>
    dsimp only [Program.bind, Program.run, runHandler]
    cases files.index with
    | none => exact h
    | some status =>
      dsimp only
      split
      · exact ensureTerminalResult_accounts none files ⟨h, hagrees⟩
      · exact h

theorem run_getResult_of_open (h : files.Open) :
    ((getResult services clock).run (runHandler codec runId) files).2 = files := by
  dsimp only [getResult, RunProgram.readResult, RunProgram.getRunIndex, Program.perform, bind,
    Program.bind, Program.run, runHandler]
  simp only [h.result]
  dsimp only [Program.bind, Program.run, runHandler]
  cases files.index with
  | none => rfl
  | some status =>
    dsimp only
    split
    · dsimp only [ensureTerminalResult, RunProgram.readResult, RunProgram.getRun?,
        Program.perform, bind, Program.bind, Program.run, runHandler]
      simp only [h.result]
      dsimp only [Program.bind, Program.run, runHandler]
      cases hread : files.getRun with
      | missing | invalid => rfl
      | found run =>
        have hopen := h.hasStatus (RunFiles.hasStatus_of_getRun hread)
        dsimp only [pure, Program.bind]
        simp only [hopen, Bool.not_false, if_true]
        rfl
    · rfl

theorem createEvent_announces (now message : String) (metadata : List (String × Json)) :
    (createEvent now o.eventType o.status.text message metadata).Holds (runHandler codec runId)
      RunFiles.Open fun r files => (∃ a, r = .ok a) ∧ files.Announced o :=
  fun _ h => ⟨⟨_, rfl⟩, h.announce (isTerminal_of_type rfl) rfl⟩

theorem createEvent_open (status message : String) {type : String}
    (metadata : List (String × Json)) (htype : terminalEventTypes.contains type = false) :
    (createEvent now type status message metadata).Holds (runHandler codec runId)
      RunFiles.Open fun r files => (∃ a, r = .ok a) ∧ files.Open :=
  fun _ h => ⟨⟨_, rfl⟩, h.step htype⟩

theorem open_keeps {α : Type} {p : RunProgram α} {Q : Except String α → Prop}
    (hp : p.Ensures RunOp.IsWork Q) :
    p.Holds (runHandler codec runId) RunFiles.Open fun r files => Q r ∧ files.Open :=
  hp.holds fun _ _ hop h => h.step hop

theorem recordBlock_announces (now message : String) :
    (recordBlock now message).Holds (runHandler codec runId) RunFiles.Open
      fun r files => (∃ a, r = .ok a) ∧ files.Announced .blocked := by
  refine (createEvent_open now _ _ _ (by decide)).next fun _ => ?_
  refine (createEvent_open now _ _ _ (by decide)).next fun _ => ?_
  refine Program.Holds.next (createEvent_announces (o := .blocked) now _ _) fun _ => ?_
  exact fun _ h => ⟨⟨_, rfl⟩, h⟩

theorem recordEnd_announces (terminal : RunOutcome) :
    (recordEnd now terminal).Holds (runHandler codec runId) RunFiles.Open
      fun r files => (∃ a, r = .ok a) ∧ files.Announced terminal := by
  rw [recordEnd]
  split
  · rename_i hblocked
    subst hblocked
    exact recordBlock_announces now _
  · refine (createEvent_open now _ _ _ (by decide)).next fun _ => ?_
    refine (createEvent_announces now _ _).next fun _ => ?_
    exact fun _ h => ⟨⟨_, rfl⟩, h⟩

section Loop

variable {inputs : LoopInputs} (hinputs : inputs.KeepsCompleted)
include hinputs

theorem finalizeResult_ended {run : TaskRun} (hrun : run.status = o.status)
    (context : TaskRunContext) (completion : Option TaskCompletionEvaluation) :
    (finalizeResult inputs run context completion).Holds (runHandler codec runId)
      (RunFiles.EndedAs o) fun r files => (∃ a, r = .ok a) ∧ files.EndedAs o := by
  intro files h
  have hwritten : ∀ (run' : TaskRun) (result : TaskRunResult), run'.status = o.status →
      result.status.outcome = o →
      ((files.updateRun codec run').saveResult codec inputs.clock.now result).EndedAs o :=
    fun _ _ hrun' hresult => (h.updateRun hrun').saveResult inputs.clock.now hresult
  refine ⟨⟨_, rfl⟩, hwritten { run with evidence := _ } (buildResult _ run context completion _ _)
    hrun ?_⟩
  exact buildResult_outcome hinputs hrun context completion files.events files.events.length

theorem finalize_announced {run : TaskRun} (hrun : run.status = o.status)
    (context : TaskRun → TaskRunContext) (completion : Option TaskCompletionEvaluation)
    {next : TaskRun × TaskRunResult → RunProgram LoopReturn}
    (hnext : ∀ written, ∃ a, next written = .done a) :
    (RunProgram.updateRun run >>= fun _ =>
      finalizeResult inputs run (context run) completion >>= next).Holds (runHandler codec runId)
        (RunFiles.Announced o) fun _ files => files.Accounted := by
  intro files h
  have hended : (files.updateRun codec run).EndedAs o := h.end hrun
  have hrest : (finalizeResult inputs run (context run) completion >>= next).Holds
      (runHandler codec runId) (RunFiles.EndedAs o) fun _ files => files.EndedAs o := by
    refine (finalizeResult_ended hinputs hrun (context run) completion).next fun written => ?_
    obtain ⟨a, ha⟩ := hnext written
    rw [ha]
    exact fun _ h => h
  exact .inr (.inr ⟨o, hrest _ hended⟩)

theorem blockBeforeStart_accounts (reasons : List String) (message : String) (run : TaskRun) :
    (blockBeforeStart inputs reasons message run).Holds (runHandler codec runId) RunFiles.Open
      fun _ files => files.Accounted := by
  refine (open_keeps (ofExcept_works _)).bind (fun run' => ?_) fun e files h => .inl h.2
  intro files h
  have hstatus : run'.status = RunOutcome.blocked.status := TaskRun.transition_status h.1.symm
  refine Program.Holds.next (Q := fun _ files => files.Accounted) (recordBlock_announces _ message)
    (fun _ => ?_) files h.2
  exact finalize_announced hinputs hstatus inputs.buildContext none fun written => ⟨_, rfl⟩

theorem finishRun_accounts (s : LoopState) (proposed : RunOutcome) :
    (finishRun inputs s proposed).Holds (runHandler codec runId) RunFiles.Open
      fun _ files => files.Accounted := by
  refine (open_keeps (recordCompletion_works _ _)).bind (fun _ => ?_) fun e files h => .inl h.2
  refine Program.Holds.mono (P := RunFiles.Open) ?_ (fun _ h => h.2) fun _ _ h => h
  refine (open_keeps (ofExcept_works _)).bind (fun run' => ?_) fun e files h => .inl h.2
  intro files h
  have hstatus : run'.status = (s.terminal inputs proposed).status :=
    TaskRun.transition_status h.1.symm
  refine Program.Holds.next (Q := fun _ files => files.Accounted) (recordEnd_announces _ _)
    (fun _ => ?_) files h.2
  have hclosed : ({ run' with currentStepId := none } : TaskRun).status =
      (s.terminal inputs proposed).status := hstatus
  exact finalize_announced hinputs hclosed (fun _ => s.finalContext inputs proposed)
    (some (s.completion inputs proposed)) fun written => ⟨_, rfl⟩

theorem startSteps_accounts (run : TaskRun) : (startRun inputs run >>= fun run =>
      runSteps inputs 0 run.plan.steps ⟨run, inputs.buildContext run, false, []⟩ >>= fun r =>
        finishRun inputs r.1 (proposedOutcome r.1 r.2)).Holds (runHandler codec runId)
          RunFiles.Open fun _ files => files.Accounted := by
  refine (open_keeps (startRun_works inputs run)).bind (fun run' => ?_) fun e files h => .inl h.2
  intro files h
  have hrunning : run'.status = .running := h.1 run' rfl
  have hopen : (LoopState.mk run' (inputs.buildContext run') false []).run.status.isTerminal =
      false := by
    rw [show (LoopState.mk run' (inputs.buildContext run') false []).run = run' from rfl, hrunning]
    rfl
  have hsteps : (runSteps inputs 0 run'.plan.steps
      ⟨run', inputs.buildContext run', false, []⟩).Ensures RunOp.IsWork _ :=
    runSteps_works inputs 0 hopen run'.plan.steps
  refine ((open_keeps hsteps).bind (Q := fun _ files => files.Accounted) (fun r => ?_)
    fun e files h => .inl h.2) files h.2
  exact (finishRun_accounts hinputs _ _).mono (fun _ h => h.2) fun _ _ h => h

theorem supervisedRun_accounts : (supervisedRun inputs).Holds (runHandler codec runId)
      (fun files => files.Accounted ∧ inputs.services.AgreesOn files)
      fun _ files => files.Accounted := by
  refine (getRun_holds _).bind (fun run => ?_) fun e files h => h.1.1
  rintro files ⟨⟨h, hagrees⟩, hread⟩
  have hstatus := hread run rfl
  by_cases hdone : run.status.isTerminal = true ∨ run.status = .running
  · refine (Program.Holds.bind (Q := fun _ files => files.Accounted) getResult_accounts
      (fun existing => ?_) fun e files h => h) files ⟨h, hagrees⟩
    rw [if_pos hdone]
    exact fun _ h => h
  · have hopen : files.Open := by
      refine h.open_of_hasStatus hstatus ?_
      by_contra hterminal
      exact hdone (.inl (by simpa using hterminal))
    have hresult : (getResult inputs.services inputs.clock).Holds (runHandler codec runId)
        (fun files' => files' = files) fun _ files' => files'.Open := by
      rintro files' rfl
      rw [run_getResult_of_open hopen]
      exact hopen
    refine (hresult.bind (Q := fun _ files => files.Accounted) (fun existing => ?_)
      fun e files h => .inl h) files rfl
    rw [if_neg hdone]
    intro files hopen
    dsimp only [RunProgram.getEvents, Program.perform, bind, Program.bind, Program.run, runHandler]
    split
    · exact blockBeforeStart_accounts hinputs _ _ run files hopen
    · split
      · exact blockBeforeStart_accounts hinputs _ _ run files hopen
      · exact startSteps_accounts hinputs run files hopen

end Loop

end Services

end AIpinho.Runtime
