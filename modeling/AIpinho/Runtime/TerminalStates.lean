import AIpinho.Runtime.TerminalWrites

/-!
# Terminal states beside the watchdogs

The loop and the watchdogs write the document of a run from their own copies, so a run that has
ended can be changed again. It stays as it is if no watchdog blocks the run while the loop
executes it, if the validation gate does not lower a completed result, and if the finalizer
agrees with the status of the run.
-/

namespace AIpinho.Runtime

open List Lib

section Log

variable {codec : Codec} {runId : String} {events : List TaskRunEvent} {e : TaskRunEvent}

def EndTypes (P : String → Prop) (events : List TaskRunEvent) : Prop :=
  ∀ e ∈ events, e.isTerminal = true → P e.type

def HasEnd (events : List TaskRunEvent) : Prop := ∃ e ∈ events, e.isTerminal = true

theorem type_storedEvent (index : ℕ) (h : e.isTerminal = true) :
    (storedEvent codec runId index e).type = e.type :=
  (terminalEventTypes_settled _ (contains_iff_mem.mp h)).1

theorem EndTypes.pushEvent {P : String → Prop} (h : EndTypes P events)
    (he : e.isTerminal = true → P e.type) : EndTypes P (pushEvent codec runId events e) := by
  intro e' hmem hterminal
  rw [Runtime.pushEvent, storedEvents, mem_mapIdx] at hmem
  obtain ⟨i, hi, rfl⟩ := hmem
  rw [isTerminal_storedEvent] at hterminal
  rw [type_storedEvent i hterminal]
  have hlast := getElem_mem hi
  rcases mem_append.mp hlast with hold | hnew
  · exact h _ hold hterminal
  · rw [mem_singleton] at hnew
    rw [hnew] at hterminal ⊢
    exact he hterminal

theorem HasEnd.pushEvent (h : HasEnd events ∨ e.isTerminal = true) :
    HasEnd (pushEvent codec runId events e) := by
  have hmem : ∃ e' ∈ events ++ [{ e with sequence := nextSequence events }],
      e'.isTerminal = true := by
    rcases h with ⟨e', he', hterminal⟩ | h
    · exact ⟨e', mem_append_left _ he', hterminal⟩
    · exact ⟨_, mem_append_right _ (mem_singleton_self _), h⟩
  obtain ⟨e', he', hterminal⟩ := hmem
  obtain ⟨i, hi, rfl⟩ := getElem_of_mem he'
  refine ⟨storedEvent codec runId i _, ?_, by rwa [isTerminal_storedEvent]⟩
  rw [Runtime.pushEvent, storedEvents, mem_mapIdx]
  exact ⟨i, hi, rfl⟩

theorem mem_of_firstTerminalEvent (h : firstTerminalEvent events = some e) :
    e ∈ events ∧ e.isTerminal = true := by
  have hmem := mem_of_find?_eq_some h
  rw [bySequence, mem_insertionSort] at hmem
  exact ⟨hmem, by simpa using find?_some h⟩

theorem firstTerminalEvent_eq_none (h : firstTerminalEvent events = none) : ¬HasEnd events := by
  rintro ⟨e, he, hterminal⟩
  have hnone := find?_eq_none.mp h e
  rw [bySequence, mem_insertionSort] at hnone
  exact hnone he hterminal

theorem EndTypes.appendTerminalizationIgnored {P : String → Prop} (h : EndTypes P events)
    (stamp : Stamp) (terminal : TaskRunEvent) (attemptedStatus reasonCode : String) :
    EndTypes P (appendTerminalizationIgnored codec runId stamp terminal attemptedStatus reasonCode
      events) := by
  rw [Runtime.appendTerminalizationIgnored]
  split
  · exact h
  · refine h.pushEvent fun hterminal => ?_
    rw [isTerminal_ignoredEvent] at hterminal
    cases hterminal

theorem HasEnd.appendTerminalizationIgnored (h : HasEnd events) (stamp : Stamp)
    (terminal : TaskRunEvent) (attemptedStatus reasonCode : String) :
    HasEnd (appendTerminalizationIgnored codec runId stamp terminal attemptedStatus reasonCode
      events) := by
  rw [Runtime.appendTerminalizationIgnored]
  split
  · exact h
  · exact .pushEvent (.inl h)

theorem EndTypes.appendEvent {P : String → Prop} (h : EndTypes P events) (stamp : Stamp)
    (he : e.isTerminal = true → P e.type) :
    EndTypes P (appendEvent codec runId stamp e events) := by
  rw [Runtime.appendEvent]
  split
  · exact h.appendTerminalizationIgnored _ _ _ _
  · exact h.pushEvent he

theorem HasEnd.appendEvent (h : HasEnd events ∨ e.isTerminal = true) (stamp : Stamp) :
    HasEnd (appendEvent codec runId stamp e events) := by
  rw [Runtime.appendEvent]
  split
  · rename_i terminal hterminal
    rw [refusedBy] at hterminal
    split at hterminal
    · have hend : HasEnd events := ⟨terminal, mem_of_firstTerminalEvent hterminal⟩
      exact hend.appendTerminalizationIgnored ..
    · cases hterminal
  · exact .pushEvent h

end Log

namespace RunFiles

variable {files : RunFiles} {o o' : RunOutcome}

/-- The stored status is not terminal, and there is no result. -/
structure Unsettled (files : RunFiles) : Prop where
  run : ∀ run, files.run = some run → run.status.isTerminal = false
  result : files.result = none

/-- The run has not ended in any of its documents. -/
structure Open (files : RunFiles) : Prop extends Unsettled files where
  noEnd : ¬HasEnd files.events

/-- The terminal event is there, and the status is not written yet. -/
structure Ending (o : RunOutcome) (files : RunFiles) : Prop extends Unsettled files where
  hasEnd : HasEnd files.events
  events : EndTypes (· = o.eventType) files.events

/-- The status is written, and the terminal event and the result belong to it, if
they are there. -/
structure Settled (o : RunOutcome) (files : RunFiles) : Prop where
  run : ∃ run, files.run = some run ∧ run.status = o.status
  result : ∀ result, files.result = some result → result.status.outcome = o
  events : EndTypes (· = o.eventType) files.events

/-- What is stored about the end of a run does not contradict itself. -/
def Coherent (files : RunFiles) : Prop :=
  files.Open ∨ (∃ o, files.Ending o) ∨ ∃ o, files.Settled o

theorem Settled.unique (h : files.Settled o) (h' : files.Settled o') : o = o' := by
  obtain ⟨run, hrun, hstatus⟩ := h.run
  obtain ⟨run', hrun', hstatus'⟩ := h'.run
  rw [hrun, Option.some.injEq] at hrun'
  subst hrun'
  exact RunOutcome.status_injective (hstatus.symm.trans hstatus')

theorem Settled.not_unsettled (h : files.Settled o) : ¬files.Unsettled := by
  intro h'
  obtain ⟨run, hrun, hstatus⟩ := h.run
  have hopen := h'.run run hrun
  rw [hstatus, o.isTerminal_status] at hopen
  cases hopen

theorem Ending.unique (h : files.Ending o) (h' : files.Ending o') : o = o' := by
  obtain ⟨e, he, hterminal⟩ := h.hasEnd
  exact RunOutcome.eventType_injective
    ((h.events e he hterminal).symm.trans (h'.events e he hterminal))

theorem Coherent.settled (h : files.Coherent) {run : TaskRun} (hrun : files.run = some run)
    (hstatus : run.status = o.status) : files.Settled o := by
  have hnot : ¬files.Unsettled := by
    intro h'
    have hopen := h'.run run hrun
    rw [hstatus, o.isTerminal_status] at hopen
    cases hopen
  rcases h with h | ⟨o', h⟩ | ⟨o', h⟩
  · exact absurd h.toUnsettled hnot
  · exact absurd h.toUnsettled hnot
  · obtain ⟨run', hrun', hstatus'⟩ := h.run
    rw [hrun, Option.some.injEq] at hrun'
    subst hrun'
    rw [RunOutcome.status_injective (hstatus.symm.trans hstatus')]
    exact h

theorem Coherent.settled_of_result (h : files.Coherent) {result : TaskRunResult}
    (hresult : files.result = some result) : files.Settled result.status.outcome := by
  rcases h with h | ⟨o', h⟩ | ⟨o', h⟩
  · rw [h.result] at hresult
    cases hresult
  · rw [h.result] at hresult
    cases hresult
  · rw [h.result result hresult]
    exact h

theorem Coherent.outcome (h : files.Coherent) {run : TaskRun} (hrun : files.run = some run)
    (hstatus : run.status.isTerminal = true) : ∃ o, files.Settled o ∧ run.status = o.status := by
  have hnot : ¬files.Unsettled := by
    intro h'
    rw [h'.run run hrun] at hstatus
    cases hstatus
  rcases h with h | ⟨o', h⟩ | ⟨o', h⟩
  · exact absurd h.toUnsettled hnot
  · exact absurd h.toUnsettled hnot
  · obtain ⟨run', hrun', hstatus'⟩ := h.run
    rw [hrun, Option.some.injEq] at hrun'
    subst hrun'
    exact ⟨o', h, hstatus'⟩

end RunFiles

theorem isTerminal_of_type {o : RunOutcome} {e : TaskRunEvent} (h : e.type = o.eventType) :
    e.isTerminal = true := by
  rw [TaskRunEvent.isTerminal, h, contains_iff_mem]
  exact o.isTerminal_eventType

theorem exists_outcome_of_isTerminal {e : TaskRunEvent} (h : e.isTerminal = true) :
    ∃ o : RunOutcome, e.type = o.eventType := by
  simp only [TaskRunEvent.isTerminal, terminalEventTypes, contains_iff_mem, mem_cons,
    not_mem_nil, or_false] at h
  rcases h with h | h | h | h | h
  · exact ⟨.completed, h⟩
  · exact ⟨.partially, h⟩
  · exact ⟨.failed, h⟩
  · exact ⟨.cancelled, h⟩
  · exact ⟨.blocked, h⟩

def RunOp.AgreesWith (o : RunOutcome) : RunOp → Prop
  | .updateRun run => run.status = o.status
  | .saveResult _ result => result.status.outcome = o
  | .cohereTerminalResult _ result => result.status.outcome = o
  | .appendEvent e => e.isTerminal = true → e.type = o.eventType
  | _ => True

section Step

variable {codec : Codec} {runId : String} {files : RunFiles} {o : RunOutcome}

theorem RunFiles.Settled.cohere (h : files.Settled o) (now : String) {status : ResultStatus}
    (hstatus : status.outcome = o) :
    (files.cohereTerminalResult codec now status).Settled o := by
  obtain ⟨run, hrun, hrunStatus⟩ := h.run
  simp only [RunFiles.cohereTerminalResult, hrun]
  split
  · exact h
  · refine ⟨⟨_, rfl, ?_⟩, h.result, h.events⟩
    change status.runStatus = o.status
    rw [status.runStatus_eq, hstatus]

variable {op : RunOp}

theorem RunFiles.Settled.step (h : files.Settled o) (hop : op.AgreesWith o) :
    (runHandler codec runId op files).2.Settled o := by
  cases op with
  | updateRun run => exact ⟨⟨_, rfl, hop⟩, h.result, h.events⟩
  | saveResult now result =>
    have hsaved : ({ files with result := some (result.mapText sanitizeText) } :
        RunFiles).Settled o := by
      refine ⟨h.run, ?_, h.events⟩
      rintro result' ⟨⟩
      exact hop
    exact hsaved.cohere now hop
  | cohereTerminalResult now result => exact h.cohere now hop
  | appendEvent e => exact ⟨h.run, h.result, h.events.appendEvent _ hop⟩
  | ignoreTerminalization status reasonCode timestamp =>
    simp only [runHandler, RunFiles.ignoreTerminalization]
    split
    · exact h
    · exact ⟨h.run, h.result, h.events.appendTerminalizationIgnored _ _ _ _⟩
  | _ => exact h

theorem RunFiles.Unsettled.step (h : files.Unsettled) (hop : op.IsWork) :
    (runHandler codec runId op files).2.Unsettled := by
  cases op with
  | updateRun run =>
    refine ⟨?_, h.result⟩
    rintro run' ⟨⟩
    exact hop
  | saveResult | cohereTerminalResult => exact hop.elim
  | appendEvent e => exact ⟨h.run, h.result⟩
  | ignoreTerminalization status reasonCode timestamp =>
    simp only [runHandler, RunFiles.ignoreTerminalization]
    split
    · exact h
    · exact ⟨h.run, h.result⟩
  | _ => exact h

theorem EndTypes.step {P : String → Prop} (h : EndTypes P files.events) (hop : op.IsWork) :
    EndTypes P (runHandler codec runId op files).2.events := by
  cases op with
  | saveResult | cohereTerminalResult => exact hop.elim
  | appendEvent e =>
    refine h.appendEvent _ fun he => ?_
    have hwork : e.isTerminal = false := hop
    exact absurd (hwork.symm.trans he) (by simp)
  | ignoreTerminalization status reasonCode timestamp =>
    simp only [runHandler, RunFiles.ignoreTerminalization]
    split
    · exact h
    · exact h.appendTerminalizationIgnored _ _ _ _
  | _ => exact h

theorem HasEnd.step (h : HasEnd files.events) (hop : op.IsWork) :
    HasEnd (runHandler codec runId op files).2.events := by
  cases op with
  | saveResult | cohereTerminalResult => exact hop.elim
  | appendEvent e => exact .appendEvent (.inl h) _
  | ignoreTerminalization status reasonCode timestamp =>
    simp only [runHandler, RunFiles.ignoreTerminalization]
    split
    · exact h
    · exact h.appendTerminalizationIgnored _ _ _ _
  | _ => exact h

theorem not_hasEnd_iff {events : List TaskRunEvent} :
    ¬HasEnd events ↔ EndTypes (fun _ => False) events := by
  simp [HasEnd, EndTypes]

theorem RunFiles.Open.step (h : files.Open) (hop : op.IsWork) :
    (runHandler codec runId op files).2.Open :=
  ⟨h.toUnsettled.step hop, not_hasEnd_iff.mpr ((not_hasEnd_iff.mp h.noEnd).step hop)⟩

theorem RunFiles.Ending.step (h : files.Ending o) (hop : op.IsWork) :
    (runHandler codec runId op files).2.Ending o :=
  ⟨h.toUnsettled.step hop, h.hasEnd.step hop, h.events.step hop⟩

theorem RunFiles.Open.appendEnd (h : files.Open) {e : TaskRunEvent} (he : e.isTerminal = true)
    (htype : e.type = o.eventType) :
    (runHandler codec runId (.appendEvent e) files).2.Ending o := by
  refine ⟨⟨h.run, h.result⟩, HasEnd.appendEvent (.inr (by exact he)) _, ?_⟩
  have hnone : EndTypes (· = o.eventType) files.events := fun e' he' hterminal =>
    absurd ⟨e', he', hterminal⟩ h.noEnd
  exact hnone.appendEvent _ fun _ => htype

theorem RunFiles.Unsettled.settle (h : files.Unsettled)
    (hevents : EndTypes (· = o.eventType) files.events) {run : TaskRun}
    (hrun : run.status = o.status) :
    (runHandler codec runId (.updateRun run) files).2.Settled o := by
  refine ⟨⟨_, rfl, hrun⟩, ?_, hevents⟩
  intro result hresult
  change files.result = some result at hresult
  rw [h.result] at hresult
  cases hresult

end Step

/-- A call of one of the two watchdogs. -/
inductive Watchdog
  /-- `terminalize_if_runtime_budget_exceeded`. -/
  | runtimeBudget (clock : Clock) (maxRuntime : ℤ) (reasonCode : String)
      (recordIgnoredAttempt : Bool)
  /-- `terminalize_if_artifact_creation_stalled`. -/
  | artifactCreation (clock : Clock) (maxSilence : ℤ) (reasonCode source : String)

/-- What a call does. -/
def Watchdog.program (services : StoreServices) : Watchdog → RunProgram (Option TaskRunResult)
  | .runtimeBudget clock maxRuntime reasonCode recordIgnoredAttempt =>
    terminalizeIfRuntimeBudgetExceeded services clock maxRuntime reasonCode recordIgnoredAttempt
  | .artifactCreation clock maxSilence reasonCode source =>
    terminalizeIfArtifactCreationStalled services clock maxSilence reasonCode source

/-- The parties of a run that is watched: the loop, and any number of calls of the
watchdogs. -/
inductive Worker (ω : Type)
  | loop
  | watchdog (w : ω)
  deriving DecidableEq

abbrev Worker.Result {ω : Type} : Worker ω → Type
  | .loop => LoopReturn
  | .watchdog _ => Option TaskRunResult

section Watched

variable {ω : Type}

def watchedRun (inputs : LoopInputs) (calls : ω → Watchdog) (files : RunFiles) :
    Pool runStore RunFiles (Worker.Result (ω := ω)) where
  threads
    | .loop => supervisedRun inputs
    | .watchdog w => (calls w).program inputs.services
  state := files

/-- The operations of the parties, in their order. -/
abbrev WatchedTrace (ω : Type) : Type := List (Worker ω × runStore.Exchange)

def NoLoopSince (w : ω) (tr : WatchedTrace ω) : Prop :=
  ∀ before x after, tr = before ++ (.watchdog w, x) :: after → ∀ y ∈ after, y.1 ≠ .loop

/-- No watchdog blocks the run while the loop executes it: the loop does not move
between the first operation of a watchdog and the write by which it blocks the
run, and it has not begun then, or does not move any more. -/
def NoBlockDuringLoop (tr : WatchedTrace ω) : Prop :=
  ∀ before w run u after, tr = before ++ (.watchdog w, ⟨.updateRun run, u⟩) :: after →
    NoLoopSince w before ∧ ((∀ y ∈ before, y.1 ≠ .loop) ∨ ∀ y ∈ after, y.1 ≠ .loop)

def Undisturbed (tr : WatchedTrace ω) : Prop :=
  ∀ before x after, tr = before ++ (.loop, x) :: after →
    ∀ w run u, (Worker.watchdog w, (⟨.updateRun run, u⟩ : runStore.Exchange)) ∉ after

def LoopEnded (o : RunOutcome) (tr : WatchedTrace ω) : Prop :=
  ∃ e id, (Worker.loop, (⟨.appendEvent e, id⟩ : runStore.Exchange)) ∈ tr ∧ e.type = o.eventType

variable {tr : WatchedTrace ω} {x : Worker ω × runStore.Exchange} {w : ω} {o : RunOutcome}

theorem NoBlockDuringLoop.of_append {tr' : WatchedTrace ω}
    (h : NoBlockDuringLoop (tr ++ tr')) : NoBlockDuringLoop tr := by
  rintro before w run u after rfl
  obtain ⟨hsince, hloop⟩ := h before w run u (after ++ tr') (by simp)
  refine ⟨hsince, hloop.imp_right fun hloop y hy => hloop y (mem_append_left _ hy)⟩

theorem NoBlockDuringLoop.noLoopSince {run : TaskRun} {u : Unit}
    (h : NoBlockDuringLoop (tr ++ [(.watchdog w, ⟨.updateRun run, u⟩)])) : NoLoopSince w tr :=
  (h tr w run u [] rfl).1

theorem NoBlockDuringLoop.undisturbed {y : runStore.Exchange}
    (h : NoBlockDuringLoop (tr ++ [(.loop, y)])) : Undisturbed tr := by
  rintro before x after rfl w run u hmem
  obtain ⟨l, l', rfl⟩ := append_of_mem hmem
  obtain ⟨-, hloop | hloop⟩ := h (before ++ (.loop, x) :: l) w run u (l' ++ [(.loop, y)]) (by simp)
  · exact hloop (.loop, x) (by simp) rfl
  · exact hloop (.loop, y) (by simp) rfl

theorem NoLoopSince.of_append (h : NoLoopSince w (tr ++ [x])) : NoLoopSince w tr := by
  rintro before y after rfl z hz
  exact h before y (after ++ [x]) (by simp) z (mem_append_left _ hz)

theorem NoLoopSince.not_loop (h : NoLoopSince w (tr ++ [x])) {y : runStore.Exchange}
    (hy : (Worker.watchdog w, y) ∈ tr) : x.1 ≠ .loop := by
  obtain ⟨before, after, rfl⟩ := append_of_mem hy
  exact h before y (after ++ [x]) (by simp) x (by simp)

theorem Undisturbed.of_append (h : Undisturbed (tr ++ [x])) : Undisturbed tr := by
  rintro before y after rfl w run u hmem
  exact h before y (after ++ [x]) (by simp) w run u (mem_append_left _ hmem)

theorem LoopEnded.append (h : LoopEnded o tr) (tr' : WatchedTrace ω) : LoopEnded o (tr ++ tr') := by
  obtain ⟨e, id, hmem, htype⟩ := h
  exact ⟨e, id, mem_append_left _ hmem, htype⟩

/-- What an operation of a party does to the files. -/
inductive Move (files : RunFiles) (i : Worker ω) (op : RunOp) : Prop
  | agrees (o : RunOutcome) (h : files.Settled o) (hop : op.AgreesWith o)
  /-- The run goes on. -/
  | works (h : files.Open) (hop : op.IsWork)
  /-- The terminal event is there, and the status is not written yet. -/
  | waits (o : RunOutcome) (h : files.Ending o) (hop : op.IsWork)
  | ends (o : RunOutcome) (e : TaskRunEvent) (h : files.Open) (hi : i = .loop)
      (hop : op = .appendEvent e) (he : e.isTerminal = true) (htype : e.type = o.eventType)
  /-- The loop writes the terminal status. -/
  | settles (o : RunOutcome) (run : TaskRun) (h : files.Ending o) (hi : i = .loop)
      (hop : op = .updateRun run) (hrun : run.status = o.status)
  | blocks (w : ω) (run : TaskRun) (h : files.Open) (hi : i = .watchdog w)
      (hop : op = .updateRun run) (hrun : run.status = .blocked)

namespace Move

variable {codec : Codec} {runId : String} {files : RunFiles} {i : Worker ω} {op : RunOp}
  (hmove : Move files i op)
include hmove

theorem coherent : (runHandler codec runId op files).2.Coherent := by
  cases hmove with
  | agrees o h hop => exact .inr (.inr ⟨o, h.step hop⟩)
  | works h hop => exact .inl (h.step hop)
  | waits o h hop => exact .inr (.inl ⟨o, h.step hop⟩)
  | ends o e h hi hop he htype =>
    subst hop
    exact .inr (.inl ⟨o, h.appendEnd he htype⟩)
  | settles o run h hi hop hrun =>
    subst hop
    exact .inr (.inr ⟨o, h.toUnsettled.settle h.events hrun⟩)
  | blocks w run h hi hop hrun =>
    subst hop
    refine .inr (.inr ⟨.blocked, h.toUnsettled.settle ?_ hrun⟩)
    exact fun e he hterminal => absurd ⟨e, he, hterminal⟩ h.noEnd

theorem settled (h : files.Settled o) : (runHandler codec runId op files).2.Settled o := by
  cases hmove with
  | agrees o' h' hop =>
    obtain rfl := h.unique h'
    exact h.step hop
  | works h' => exact absurd h'.toUnsettled h.not_unsettled
  | waits o' h' => exact absurd h'.toUnsettled h.not_unsettled
  | ends o' e h' => exact absurd h'.toUnsettled h.not_unsettled
  | settles o' run h' => exact absurd h'.toUnsettled h.not_unsettled
  | blocks w run h' => exact absurd h'.toUnsettled h.not_unsettled

theorem of_settled (h : (runHandler codec runId op files).2.Settled o) :
    files.Settled o ∨ (i = .loop ∧ files.Ending o) ∨
      ∃ w run, i = .watchdog w ∧ op = .updateRun run ∧ o = .blocked := by
  cases hmove with
  | agrees o' h' hop =>
    obtain rfl := (h'.step hop).unique h
    exact .inl h'
  | works h' hop => exact absurd (h'.toUnsettled.step hop) h.not_unsettled
  | waits o' h' hop => exact absurd (h'.toUnsettled.step hop) h.not_unsettled
  | ends o' e h' hi hop he htype =>
    subst hop
    exact absurd (h'.appendEnd he htype).toUnsettled h.not_unsettled
  | settles o' run h' hi hop hrun =>
    subst hop
    obtain rfl := (h'.toUnsettled.settle h'.events hrun).unique h
    exact .inr (.inl ⟨hi, h'⟩)
  | blocks w run h' hi hop hrun =>
    subst hop
    have hevents : EndTypes (· = RunOutcome.blocked.eventType) files.events :=
      fun e he hterminal => absurd ⟨e, he, hterminal⟩ h'.noEnd
    obtain rfl := (h'.toUnsettled.settle hevents hrun).unique h
    exact .inr (.inr ⟨w, run, hi, rfl, rfl⟩)

/-- A run with its terminal event stays so, or its status is written. -/
theorem ending (h : files.Ending o) : (runHandler codec runId op files).2.Ending o ∨
    (runHandler codec runId op files).2.Settled o := by
  cases hmove with
  | agrees o' h' => exact absurd h.toUnsettled h'.not_unsettled
  | works h' => exact absurd h.hasEnd h'.noEnd
  | waits o' h' hop => exact .inl (h.step hop)
  | ends o' e h' => exact absurd h.hasEnd h'.noEnd
  | settles o' run h' hi hop hrun =>
    subst hop
    obtain rfl := h.unique h'
    exact .inr (h.toUnsettled.settle h.events hrun)
  | blocks w run h' => exact absurd h.hasEnd h'.noEnd

theorem of_ending (h : (runHandler codec runId op files).2.Ending o) :
    files.Ending o ∨ i = .loop ∧ ∃ e, op = .appendEvent e ∧ e.type = o.eventType := by
  cases hmove with
  | agrees o' h' hop => exact absurd h.toUnsettled (h'.step hop).not_unsettled
  | works h' hop => exact absurd h.hasEnd (h'.step hop).noEnd
  | waits o' h' hop =>
    obtain rfl := (h'.step hop).unique h
    exact .inl h'
  | ends o' e h' hi hop he htype =>
    subst hop
    obtain rfl := (h'.appendEnd he htype).unique h
    exact .inr ⟨hi, e, rfl, htype⟩
  | settles o' run h' hi hop hrun =>
    subst hop
    exact absurd h.toUnsettled (h'.toUnsettled.settle h'.events hrun).not_unsettled
  | blocks w run h' hi hop hrun =>
    subst hop
    have hevents : EndTypes (· = RunOutcome.blocked.eventType) files.events :=
      fun e he hterminal => absurd ⟨e, he, hterminal⟩ h'.noEnd
    exact absurd h.toUnsettled (h'.toUnsettled.settle hevents hrun).not_unsettled

/-- A terminal event is accepted, or agrees with the outcome there is. -/
theorem ended {e : TaskRunEvent} (hop : op = .appendEvent e) (htype : e.type = o.eventType) :
    (runHandler codec runId op files).2.Ending o ∨
      (runHandler codec runId op files).2.Settled o := by
  have he := isTerminal_of_type htype
  have hnotWork : ¬op.IsWork := by
    intro hwork
    rw [hop] at hwork
    have hfalse : e.isTerminal = false := hwork
    exact absurd (hfalse.symm.trans he) (by simp)
  cases hmove with
  | agrees o' h hop' =>
    have htype' : e.type = o'.eventType := by
      rw [hop] at hop'
      exact hop' he
    obtain rfl := RunOutcome.eventType_injective (htype'.symm.trans htype)
    exact .inr (h.step hop')
  | works h hop' => exact absurd hop' hnotWork
  | waits o' h hop' => exact absurd hop' hnotWork
  | ends o' e' h hi hop' he' htype' =>
    subst hop'
    obtain rfl : e' = e := by injection hop
    obtain rfl := RunOutcome.eventType_injective (htype'.symm.trans htype)
    exact .inl (h.appendEnd he htype)
  | settles o' run h hi hop' hrun => cases hop.symm.trans hop'
  | blocks w run h hi hop' hrun => cases hop.symm.trans hop'

end Move

variable [DecidableEq ω]

def Worker.May : Worker ω → List runStore.Exchange → RunOp → Prop
  | .loop => LoopMay
  | .watchdog _ => WatchdogMay

theorem exchanges_concat_of_ne {i : Worker ω} (h : x.1 ≠ i) :
    Pool.exchanges i (tr ++ [x]) = Pool.exchanges i tr := by
  rw [Pool.exchanges_append]
  simp [Pool.exchanges, h]

theorem exchanges_concat_self (i : Worker ω) (y : runStore.Exchange) :
    Pool.exchanges i (tr ++ [(i, y)]) = Pool.exchanges i tr ++ [y] := by
  rw [Pool.exchanges_append, Pool.exchanges_cons_self]
  rfl

/-- What holds of the files and of what the parties have exchanged, at every point
of a run in which no watchdog blocks the run while the loop executes it. -/
structure WatchedInvariant (tr : WatchedTrace ω) (files : RunFiles) : Prop where
  /-- The documents do not contradict each other; only the loop appends a terminal
  event before the status is written. -/
  coherent : files.Open ∨ (∃ o, files.Ending o ∧ LoopEnded o tr) ∨ ∃ o, files.Settled o
  told : ∀ o, ∀ x ∈ tr, Tells o x.2 → files.Settled o
  ended : ∀ o, LoopEnded o tr → files.Ending o ∨ files.Settled o
  sawActive : ∀ w, NoLoopSince w tr → SawActive (Pool.exchanges (.watchdog w) tr) →
    ∀ o, files.Settled o → o = .blocked
  sawNoEnd : ∀ w, NoLoopSince w tr → SawNoEnd (Pool.exchanges (.watchdog w) tr) →
    ∀ o, ¬files.Ending o
  settled : Startable (Pool.exchanges .loop tr) → Undisturbed tr →
    ∀ o, files.Settled o → LoopEnded o tr
  unsurprised : Startable (Pool.exchanges .loop tr) → Undisturbed tr →
    ¬Surprised (Pool.exchanges .loop tr)

/-- The operations that leave the end of a run as it is. -/
def RunOp.IsQuiet : RunOp → Prop
  | .updateRun _ => False
  | .saveResult .. => False
  | .cohereTerminalResult .. => False
  | .appendEvent e => e.isTerminal = false
  | _ => True

theorem RunOp.IsQuiet.isWork {op : RunOp} (h : op.IsQuiet) : op.IsWork := by
  cases op <;> first | exact h.elim | exact h

theorem RunOp.IsQuiet.agreesWith {op : RunOp} (h : op.IsQuiet) : op.AgreesWith o := by
  cases op with
  | appendEvent e =>
    intro he
    have hquiet : e.isTerminal = false := h
    exact absurd (hquiet.symm.trans he) (by simp)
  | _ => first | exact h.elim | trivial

namespace WatchedInvariant

variable {files : RunFiles} (hinv : WatchedInvariant tr files)
include hinv

theorem coherent' : files.Coherent := by
  rcases hinv.coherent with h | ⟨o, h, -⟩ | h
  · exact .inl h
  · exact .inr (.inl ⟨o, h⟩)
  · exact .inr (.inr h)

theorem move_of_isQuiet (i : Worker ω) {op : RunOp} (hop : op.IsQuiet) : Move files i op := by
  rcases hinv.coherent with h | ⟨o, h, -⟩ | ⟨o, h⟩
  · exact .works h hop.isWork
  · exact .waits o h hop.isWork
  · exact .agrees o h hop.agreesWith

theorem settled_of_told {i : Worker ω} (h : Told o (Pool.exchanges i tr)) : files.Settled o := by
  obtain ⟨x, hx, htells⟩ := h
  exact hinv.told o _ (Pool.mem_exchanges.mp hx) htells

theorem open_of_atWork (hwork : AtWork (Pool.exchanges .loop tr)) (hloop : Undisturbed tr) :
    files.Open := by
  obtain ⟨hstart, hnotEnded⟩ := hwork
  have hquiet := hnotEnded.resolve_left (hinv.unsurprised hstart hloop)
  have hnot : ∀ o, ¬LoopEnded o tr := by
    rintro o ⟨e, id, hmem, htype⟩
    have hfalse := hquiet _ (Pool.mem_exchanges.mpr hmem)
    exact absurd (hfalse.symm.trans (isTerminal_of_type htype)) (by simp)
  rcases hinv.coherent with h | ⟨o, -, h⟩ | ⟨o, h⟩
  · exact h
  · exact absurd h (hnot o)
  · exact absurd (hinv.settled hstart hloop o h) (hnot o)

theorem move_of_loopMay {op : RunOp} (hloop : Undisturbed tr)
    (hmay : LoopMay (Pool.exchanges .loop tr) op) : Move files (.loop : Worker ω) op := by
  cases op with
  | updateRun run =>
    obtain ⟨hstart, ⟨hrun, hnotEnded⟩ | ⟨o, e, id, hrun, htype, hmem⟩⟩ := hmay
    · exact .works (hinv.open_of_atWork ⟨hstart, hnotEnded⟩ hloop) hrun
    · rcases hinv.ended o ⟨e, id, Pool.mem_exchanges.mp hmem, htype⟩ with h | h
      · exact .settles o run h rfl rfl hrun
      · exact .agrees o h hrun
  | saveResult | cohereTerminalResult => exact .agrees _ (hinv.settled_of_told hmay) rfl
  | appendEvent e =>
    by_cases he : e.isTerminal = true
    · rcases hmay he with ⟨o, htype, htold⟩ | hwork
      · exact .agrees o (hinv.settled_of_told htold) fun _ => htype
      · obtain ⟨o, htype⟩ := exists_outcome_of_isTerminal he
        exact .ends o e (hinv.open_of_atWork hwork hloop) rfl rfl he htype
    · exact hinv.move_of_isQuiet _ (by simpa [RunOp.IsQuiet] using he)
  | _ => exact hinv.move_of_isQuiet _ trivial

theorem move_of_watchdogMay {op : RunOp}
    (hsince : ∀ run, op = .updateRun run → NoLoopSince w tr)
    (hmay : WatchdogMay (Pool.exchanges (.watchdog w) tr) op) :
    Move files (.watchdog w) op := by
  cases op with
  | updateRun run =>
    obtain ⟨hrun, hactive, hnoEnd⟩ := hmay
    have hloop := hsince run rfl
    rcases hinv.coherent with h | ⟨o, h, -⟩ | ⟨o, h⟩
    · exact .blocks w run h rfl rfl hrun
    · exact absurd h (hinv.sawNoEnd w hloop hnoEnd o)
    · obtain rfl := hinv.sawActive w hloop hactive o h
      exact .agrees .blocked h hrun
  | saveResult | cohereTerminalResult => exact .agrees _ (hinv.settled_of_told hmay) rfl
  | appendEvent e =>
    by_cases he : e.isTerminal = true
    · obtain ⟨o, htype, htold⟩ := hmay he
      exact .agrees o (hinv.settled_of_told htold) fun _ => htype
    · exact hinv.move_of_isQuiet _ (by simpa [RunOp.IsQuiet] using he)
  | _ => exact hinv.move_of_isQuiet _ trivial

end WatchedInvariant

theorem RunFiles.exists_run_of_getRun {files : RunFiles} {run : TaskRun}
    (h : files.getRun = .found run) :
    ∃ stored, files.run = some stored ∧ stored.status = run.status := by
  cases hrun : files.run with
  | none => simp [RunFiles.getRun, hrun, RunRead.ofRun] at h
  | some stored =>
    simp only [RunFiles.getRun, hrun, RunRead.ofRun, Option.map_some] at h
    split at h
    · cases h
      exact ⟨stored, rfl, rfl⟩
    · cases h

theorem settled_of_tells {codec : Codec} {runId : String} {files : RunFiles} {op : RunOp}
    (h : files.Coherent) (h' : (runHandler codec runId op files).2.Coherent)
    (htells : Tells o ⟨op, (runHandler codec runId op files).1⟩) :
    (runHandler codec runId op files).2.Settled o := by
  generalize hx : (⟨op, (runHandler codec runId op files).1⟩ : runStore.Exchange) = x at htells
  cases htells with
  | read run hstatus =>
    obtain ⟨rfl, hread⟩ := Sigma.mk.inj hx
    obtain ⟨stored, hstored, heq⟩ := RunFiles.exists_run_of_getRun (eq_of_heq hread)
    rcases hstatus with hstatus | hexpired
    · exact h.settled hstored (heq.trans hstatus)
    · obtain ⟨o', -, hstatus'⟩ := h.outcome hstored (by rw [heq, hexpired]; rfl)
      rw [heq, hexpired] at hstatus'
      cases o' <;> cases hstatus'
  | readResult result hresult =>
    obtain ⟨rfl, hread⟩ := Sigma.mk.inj hx
    have hstored : files.result = some result := eq_of_heq hread
    rw [← hresult]
    exact h.settled_of_result hstored
  | wrote run u hstatus =>
    obtain ⟨rfl, -⟩ := Sigma.mk.inj hx
    exact h'.settled rfl hstatus
  | saved now result u hresult =>
    obtain ⟨rfl, -⟩ := Sigma.mk.inj hx
    have hstored : (runHandler codec runId (.saveResult now result) files).2.result =
        some (result.mapText sanitizeText) := by
      simp only [runHandler, RunFiles.saveResult, RunFiles.cohereTerminalResult]
      split
      · rfl
      · split <;> rfl
    have hsettled := h'.settled_of_result hstored
    rwa [← hresult]

namespace WatchedInvariant

variable {codec : Codec} {runId : String} {files : RunFiles} {i : Worker ω} {op : RunOp}

variable {y : runStore.Exchange}

theorem startable_or (h : Startable (Pool.exchanges .loop (tr ++ [(i, y)]))) :
    Startable (Pool.exchanges .loop tr) ∨ Pool.exchanges .loop tr = [] ∧
      ∃ run, y = ⟨.getRun, .found run⟩ ∧ run.status.isTerminal = false := by
  by_cases hi : i = .loop
  · subst hi
    rw [exchanges_concat_self] at h
    obtain ⟨run, ys, hsplit, hrun⟩ := h
    cases hxs : Pool.exchanges .loop tr with
    | nil =>
      rw [hxs] at hsplit
      obtain ⟨rfl, -⟩ := List.cons.inj hsplit
      exact .inr ⟨rfl, run, rfl, hrun⟩
    | cons x xs =>
      rw [hxs] at hsplit
      obtain ⟨rfl, -⟩ := List.cons.inj hsplit
      exact .inl ⟨run, xs, rfl, hrun⟩
  · rw [exchanges_concat_of_ne hi] at h
    exact .inl h

theorem surprised_or (h : Surprised (Pool.exchanges .loop (tr ++ [(i, y)]))) :
    Surprised (Pool.exchanges .loop tr) ∨ i = .loop ∧
      ∃ o, Tells o y ∧ ∀ z ∈ Pool.exchanges .loop tr, RunOp.endsRun z.1 = false := by
  by_cases hi : i = .loop
  · subst hi
    rw [exchanges_concat_self] at h
    obtain ⟨o, ys, x, zs, hsplit, htells, hys⟩ := h
    rcases eq_nil_or_concat zs with rfl | ⟨zs, z, rfl⟩
    · obtain ⟨rfl, hxy⟩ := append_inj' hsplit rfl
      obtain rfl : y = x := by simpa using hxy
      exact .inr ⟨rfl, o, htells, hys⟩
    · rw [concat_eq_append, ← cons_append, ← append_assoc] at hsplit
      have hxs := (append_inj' hsplit rfl).1
      exact .inl ⟨o, ys, x, zs, hxs, htells, hys⟩
  · rw [exchanges_concat_of_ne hi] at h
    exact .inl h

section Step

variable {files' : RunFiles} {y : runStore.Exchange} (hinv : WatchedInvariant tr files)
  (hmove : Move files i op) (hy : y = ⟨op, (runHandler codec runId op files).1⟩)
  (hfiles' : files' = (runHandler codec runId op files).2)
include hinv hmove hfiles'

theorem step_coherent (hy : y.1 = op) : files'.Open ∨
    (∃ o, files'.Ending o ∧ LoopEnded o (tr ++ [(i, y)])) ∨ ∃ o, files'.Settled o := by
  subst hfiles'
  have hcoherent : (runHandler codec runId op files).2.Coherent := hmove.coherent
  rcases hcoherent with h | ⟨o, h⟩ | h
  · exact .inl h
  · refine .inr (.inl ⟨o, h, ?_⟩)
    rcases hmove.of_ending h with hold | ⟨rfl, e, hop, htype⟩
    · rcases hinv.coherent with h' | ⟨o', h', hended⟩ | ⟨o', h'⟩
      · exact absurd hold.hasEnd h'.noEnd
      · obtain rfl := hold.unique h'
        exact hended.append _
      · exact absurd hold.toUnsettled h'.not_unsettled
    · obtain ⟨op', id⟩ := y
      obtain rfl : op' = .appendEvent e := hy.trans hop
      exact ⟨e, id, by simp, htype⟩
  · exact .inr (.inr h)

theorem step_ended (hy : y.1 = op) (hended : LoopEnded o (tr ++ [(i, y)])) :
    files'.Ending o ∨ files'.Settled o := by
  subst hfiles'
  obtain ⟨e, id, hmem, htype⟩ := hended
  rcases mem_append.mp hmem with hold | hnew
  · rcases hinv.ended o ⟨e, id, hold, htype⟩ with h | h
    · exact hmove.ending h
    · exact .inr (hmove.settled h)
  · obtain ⟨rfl, rfl⟩ := Prod.mk.inj (mem_singleton.mp hnew)
    exact hmove.ended hy.symm htype

omit hinv hmove in
theorem unsettled_of_read {run : TaskRun} (hcoherent : files.Coherent)
    (hy : y = ⟨op, (runHandler codec runId op files).1⟩)
    (hrun : y = ⟨.getRun, .found run⟩) (hstatus : run.status.isTerminal = false) :
    files'.Unsettled := by
  obtain ⟨rfl, hread⟩ := Sigma.mk.inj (hy.symm.trans hrun)
  obtain ⟨stored, hstored, heq⟩ := RunFiles.exists_run_of_getRun (eq_of_heq hread)
  rw [hfiles']
  change files.Unsettled
  rcases hcoherent with h | ⟨o, h⟩ | ⟨o, h⟩
  · exact h.toUnsettled
  · exact h.toUnsettled
  · obtain ⟨run', hrun', hstatus'⟩ := h.run
    rw [hstored, Option.some.injEq] at hrun'
    subst hrun'
    rw [← heq, hstatus', o.isTerminal_status] at hstatus
    cases hstatus

include hy

theorem step_sawActive (hsince : NoLoopSince w (tr ++ [(i, y)]))
    (hsaw : SawActive (Pool.exchanges (.watchdog w) (tr ++ [(i, y)]))) (h : files'.Settled o) :
    o = .blocked := by
  obtain ⟨run, hrun, hstatus⟩ := hsaw
  rcases mem_append.mp (Pool.mem_exchanges.mp hrun) with hold | hnew
  · have hloop : i ≠ .loop := hsince.not_loop hold
    subst hfiles'
    rcases hmove.of_settled h with h | ⟨rfl, -⟩ | ⟨w', run', -, -, rfl⟩
    · exact hinv.sawActive w hsince.of_append ⟨run, Pool.mem_exchanges.mpr hold, hstatus⟩ o h
    · exact absurd rfl hloop
    · rfl
  · obtain ⟨-, hread⟩ := Prod.mk.inj (mem_singleton.mp hnew)
    exact absurd (unsettled_of_read hfiles' hinv.coherent' hy hread.symm hstatus) h.not_unsettled

theorem step_sawNoEnd (hsince : NoLoopSince w (tr ++ [(i, y)]))
    (hsaw : SawNoEnd (Pool.exchanges (.watchdog w) (tr ++ [(i, y)]))) : ¬files'.Ending o := by
  intro h
  obtain ⟨events, hevents, hnone⟩ := hsaw
  rcases mem_append.mp (Pool.mem_exchanges.mp hevents) with hold | hnew
  · have hloop : i ≠ .loop := hsince.not_loop hold
    subst hfiles'
    rcases hmove.of_ending h with h | ⟨rfl, -⟩
    · exact hinv.sawNoEnd w hsince.of_append ⟨events, Pool.mem_exchanges.mpr hold, hnone⟩ o h
    · exact absurd rfl hloop
  · obtain ⟨-, hread⟩ := Prod.mk.inj (mem_singleton.mp hnew)
    obtain ⟨rfl, hread⟩ := Sigma.mk.inj (hy.symm.trans hread.symm)
    have heq : files.events = events := eq_of_heq hread
    rw [hfiles'] at h
    have hend : HasEnd files.events := h.hasEnd
    rw [heq] at hend
    exact firstTerminalEvent_eq_none hnone hend

theorem step_settled (hstart : Startable (Pool.exchanges .loop (tr ++ [(i, y)])))
    (hloop : Undisturbed (tr ++ [(i, y)])) (h : files'.Settled o) :
    LoopEnded o (tr ++ [(i, y)]) := by
  rcases startable_or hstart with hold | ⟨-, run, hread, hstatus⟩
  · subst hfiles'
    rcases hmove.of_settled h with h | ⟨-, h⟩ | ⟨w, run, rfl, rfl, -⟩
    · exact (hinv.settled hold hloop.of_append o h).append _
    · rcases hinv.coherent with h' | ⟨o', h', hended⟩ | ⟨o', h'⟩
      · exact absurd h.hasEnd h'.noEnd
      · obtain rfl := h.unique h'
        exact hended.append _
      · exact absurd h.toUnsettled h'.not_unsettled
    · -- A watchdog that blocks the run now would disturb the loop, which has begun.
      obtain ⟨run', ys, hys, -⟩ := hold
      have hmem : (Worker.loop, (⟨.getRun, .found run'⟩ : runStore.Exchange)) ∈ tr :=
        Pool.mem_exchanges.mp (by rw [hys]; exact mem_cons_self)
      obtain ⟨before, after, rfl⟩ := append_of_mem hmem
      refine absurd ?_ (hloop before ⟨.getRun, .found run'⟩ (after ++ [(.watchdog w, y)])
        (by simp) w run ())
      rw [hy]
      exact mem_append_right _ mem_cons_self
  · exact absurd (unsettled_of_read hfiles' hinv.coherent' hy hread hstatus) h.not_unsettled

theorem step_told (x : Worker ω × runStore.Exchange) (hx : x ∈ tr ++ [(i, y)])
    (htells : Tells o x.2) : files'.Settled o := by
  subst hfiles'
  rcases mem_append.mp hx with hold | hnew
  · exact hmove.settled (hinv.told o x hold htells)
  · rw [mem_singleton.mp hnew, hy] at htells
    exact settled_of_tells hinv.coherent' hmove.coherent htells

theorem step_unsurprised (hstart : Startable (Pool.exchanges .loop (tr ++ [(i, y)])))
    (hloop : Undisturbed (tr ++ [(i, y)])) :
    ¬Surprised (Pool.exchanges .loop (tr ++ [(i, y)])) := by
  intro hsurprised
  rcases surprised_or hsurprised with hold | ⟨rfl, o, htells, hquiet⟩
  · rcases startable_or hstart with hstart | ⟨hnil, -⟩
    · exact hinv.unsurprised hstart hloop.of_append hold
    · obtain ⟨o, ys, x, zs, hsplit, -⟩ := hold
      rw [hnil] at hsplit
      simp at hsplit
  · have h := step_told hinv hmove hy hfiles' (.loop, y) (by simp) htells
    obtain ⟨e, id, hmem, htype⟩ := step_settled hinv hmove hy hfiles' hstart hloop h
    rcases mem_append.mp hmem with hold | hnew
    · have hfalse := hquiet _ (Pool.mem_exchanges.mpr hold)
      exact absurd (hfalse.symm.trans (isTerminal_of_type htype)) (by simp)
    · obtain ⟨-, rfl⟩ := Prod.mk.inj (mem_singleton.mp hnew)
      cases htells

end Step

/-- What an operation does that the history of its party allows. -/
theorem move (hinv : WatchedInvariant tr files) (hmay : i.May (Pool.exchanges i tr) y.1)
    (hblock : NoBlockDuringLoop (tr ++ [(i, y)])) : Move files i y.1 := by
  cases i with
  | loop => exact hinv.move_of_loopMay hblock.undisturbed hmay
  | watchdog w =>
    refine hinv.move_of_watchdogMay ?_ hmay
    intro run hrun
    obtain ⟨op, u⟩ := y
    subst hrun
    exact hblock.noLoopSince

theorem step (hinv : WatchedInvariant tr files) (hmove : Move files i op) :
    WatchedInvariant (tr ++ [(i, ⟨op, (runHandler codec runId op files).1⟩)])
      (runHandler codec runId op files).2 where
  coherent := hinv.step_coherent hmove rfl rfl
  told := fun _ x hx htells => hinv.step_told hmove rfl rfl x hx htells
  ended := fun _ hended => hinv.step_ended hmove rfl rfl hended
  sawActive := fun _ hsince hsaw _ h => hinv.step_sawActive hmove rfl rfl hsince hsaw h
  sawNoEnd := fun _ hsince hsaw _ => hinv.step_sawNoEnd hmove rfl rfl hsince hsaw
  settled := fun hstart hloop _ h => hinv.step_settled hmove rfl rfl hstart hloop h
  unsurprised := fun hstart hloop => hinv.step_unsurprised hmove rfl rfl hstart hloop

theorem initial (h : files.Open ∨ ∃ o, files.Settled o) :
    WatchedInvariant ([] : WatchedTrace ω) files where
  coherent := h.imp_right .inr
  told := fun _ x hx => by cases hx
  ended := by
    rintro o ⟨e, id, hmem, -⟩
    cases hmem
  sawActive := by
    rintro w - ⟨run, hmem, -⟩
    cases hmem
  sawNoEnd := by
    rintro w - ⟨events, hmem, -⟩
    cases hmem
  settled := by
    rintro ⟨run, ys, hys, -⟩
    cases hys
  unsurprised := by
    rintro ⟨run, ys, hys, -⟩
    cases hys

end WatchedInvariant

omit [DecidableEq ω] in
/-- Every operation of a party is one that its history allows. -/
theorem watchedRun_may {inputs : LoopInputs} (hinputs : inputs.KeepsCompleted)
    (hservices : inputs.services.FinalizerAgrees) (calls : ω → Watchdog) (files : RunFiles)
    (i : Worker ω) : ((watchedRun inputs calls files).threads i).Traced i.May [] := by
  cases i with
  | loop => exact supervisedRun_may hinputs hservices
  | watchdog w =>
    change ((calls w).program inputs.services).Traced WatchdogMay []
    cases calls w with
    | runtimeBudget clock maxRuntime reasonCode record =>
      exact terminalizeIfRuntimeBudgetExceeded_may hservices clock _ _ _ _
    | artifactCreation clock maxSilence reasonCode source =>
      exact terminalizeIfArtifactCreationStalled_may hservices clock _ _ _ _

theorem watchedInvariant_of_runs {codec : Codec} {runId : String} {inputs : LoopInputs}
    {calls : ω → Watchdog} {files : RunFiles} {tr₁ tr₂ : WatchedTrace ω}
    {c₁ c₂ : Pool runStore RunFiles Worker.Result} (hinputs : inputs.KeepsCompleted)
    (hservices : inputs.services.FinalizerAgrees)
    (hruns₁ : Pool.Runs (runHandler codec runId) (watchedRun inputs calls files) tr₁ c₁)
    (hruns₂ : Pool.Runs (runHandler codec runId) c₁ tr₂ c₂)
    (hblock : NoBlockDuringLoop (tr₁ ++ tr₂)) (hinv : WatchedInvariant tr₁ c₁.state) :
    WatchedInvariant (tr₁ ++ tr₂) c₂.state ∧ ∀ o, c₁.state.Settled o → c₂.state.Settled o := by
  induction hruns₂ generalizing tr₁ with
  | nil c =>
    rw [append_nil]
    exact ⟨hinv, fun _ h => h⟩
  | @cons c c₂ tr₂ i op k hi hrest ih =>
    have hnext := hruns₁.append (.cons i op k hi (.nil _))
    obtain ⟨ys, r, -, hends⟩ := hnext.exists_ends i
    rw [exchanges_concat_self, append_assoc] at hends
    have hmay := (watchedRun_may hinputs hservices calls files i).of_ends hends
    rw [← singleton_append, ← append_assoc] at hblock ⊢
    have hmove := hinv.move hmay hblock.of_append
    obtain ⟨hrun, hsettled⟩ := ih hnext hblock (hinv.step hmove)
    exact ⟨hrun, fun o h => hsettled o (hmove.settled h)⟩

/-- Terminal states are absorbing: if no watchdog blocks the run while the loop executes it, then
once the log has a first terminal event and the stored status is terminal, the status belongs to
the event and never changes, and so does every result that is stored afterwards. -/
theorem terminal_states_are_absorbing (codec : Codec) (runId : String) (inputs : LoopInputs)
    (calls : ω → Watchdog) (files : RunFiles) (tr₁ tr₂ : WatchedTrace ω)
    (c₁ c₂ : Pool runStore RunFiles Worker.Result) (hinputs : inputs.KeepsCompleted)
    (hservices : inputs.services.FinalizerAgrees) (hfiles : files.Open ∨ ∃ o, files.Settled o)
    (hruns₁ : Pool.Runs (runHandler codec runId) (watchedRun inputs calls files) tr₁ c₁)
    (hruns₂ : Pool.Runs (runHandler codec runId) c₁ tr₂ c₂)
    (hblock : NoBlockDuringLoop (tr₁ ++ tr₂)) (e : TaskRunEvent) (run : TaskRun)
    (he : firstTerminalEvent c₁.state.events = some e) (hrun : c₁.state.run = some run)
    (hstatus : run.status.isTerminal = true) :
    ∃ o : RunOutcome, e.type = o.eventType ∧ run.status = o.status ∧
      c₂.state.run.map (·.status) = some o.status ∧
      ∀ result, c₂.state.result = some result → result.status.outcome = o := by
  obtain ⟨hinv, -⟩ := watchedInvariant_of_runs hinputs hservices (.nil _) hruns₁
    hblock.of_append (.initial hfiles)
  rw [nil_append] at hinv
  obtain ⟨o, hsettled, hstatus⟩ := hinv.coherent'.outcome hrun hstatus
  obtain ⟨hmem, hterminal⟩ := mem_of_firstTerminalEvent he
  have hlater : c₂.state.Settled o :=
    (watchedInvariant_of_runs hinputs hservices hruns₁ hruns₂ hblock hinv).2 o hsettled
  obtain ⟨run', hrun', hstatus'⟩ := hlater.run
  exact ⟨o, hsettled.events e hmem hterminal, hstatus, by simp [hrun', hstatus'], hlater.result⟩

end Watched

def sampleWatched (run : TaskRun) : Pool runStore RunFiles (Worker.Result (ω := Unit)) :=
  watchedRun (sampleInputs fun _ => .completed)
    (fun _ => .runtimeBudget ⟨"2026-01-01T00:05:00Z", fun _ => some 200⟩ 100
      "TASKRUN_LIFECYCLE_TIMEOUT" true)
    (sampleFiles run)

theorem noBlockDuringLoop_of_before {ω : Type} {tr₁ tr₂ : WatchedTrace ω}
    (h₁ : ∀ x ∈ tr₁, x.1 ≠ .loop) (h₂ : ∀ x ∈ tr₂, x.1 = .loop) :
    NoBlockDuringLoop (tr₁ ++ tr₂) := by
  intro before w run u after hsplit
  have hbefore : ∀ y ∈ before, y.1 ≠ .loop := by
    rcases append_eq_append_iff.mp hsplit with ⟨l, rfl, hl⟩ | ⟨l, rfl, -⟩
    · have hfalse := h₂ (.watchdog w, ⟨.updateRun run, u⟩) (by rw [hl]; simp)
      cases hfalse
    · exact fun y hy => h₁ y (mem_append_left _ hy)
  refine ⟨?_, .inl hbefore⟩
  rintro l x l' rfl y hy
  exact hbefore y (mem_append_right _ (mem_cons_of_mem _ hy))

/-- A run whose loop has died is blocked by the watchdog, and stays blocked when the
loop is called again. -/
theorem dead_run_stays_blocked :
    ∃ tr₁ tr₂ c₁ c₂, Pool.Runs (runHandler sampleServices.codec "task_run_1")
        (sampleWatched { sampleRun [sampleStep "step_1" true] with
          status := .running, startedAt := some "2026-01-01T00:00:00Z" }) tr₁ c₁ ∧
      Pool.Runs (runHandler sampleServices.codec "task_run_1") c₁ tr₂ c₂ ∧
      (firstTerminalEvent c₁.state.events).map (·.type) = some "run_blocked" ∧
      c₂.state.run.map (·.status) = some .blocked ∧
      ∀ result, c₂.state.result = some result → result.status.outcome = .blocked := by
  let h := runHandler sampleServices.codec "task_run_1"
  let run := { sampleRun [sampleStep "step_1" true] with
    status := TaskRunStatus.running, startedAt := some "2026-01-01T00:00:00Z" }
  let c₁ := (sampleWatched run).play h (List.replicate 9 (.watchdog ()))
  have hruns₁ := Pool.runs_play h (List.replicate 9 (.watchdog ())) (sampleWatched run)
  have hruns₂ := Pool.runs_play h (List.replicate 3 .loop) c₁
  have hopen : (sampleFiles run).Open := by
    refine ⟨⟨?_, rfl⟩, ?_⟩
    · rintro run ⟨⟩
      rfl
    · rintro ⟨e, he, hterminal⟩
      simp only [sampleFiles, sampleEvents, mem_cons, not_mem_nil, or_false] at he
      rcases he with rfl | rfl <;> cases hterminal
  have hblock : NoBlockDuringLoop ((sampleWatched run).trace h (List.replicate 9 (.watchdog ())) ++
      c₁.trace h (List.replicate 3 .loop)) := by
    refine noBlockDuringLoop_of_before (fun x hx => ?_) fun x hx => ?_
    · rw [eq_of_mem_replicate (Pool.mem_order_of_mem_trace hx)]
      simp
    · exact eq_of_mem_replicate (Pool.mem_order_of_mem_trace hx)
  have hevent : (firstTerminalEvent c₁.state.events).map (·.type) =
      some RunOutcome.blocked.eventType := by decide
  obtain ⟨e, he, htype⟩ := Option.map_eq_some_iff.mp hevent
  have hterminal : c₁.state.run.map (·.status.isTerminal) = some true := by decide
  obtain ⟨stored, hstored, hstatus⟩ := Option.map_eq_some_iff.mp hterminal
  obtain ⟨o, hevent', -, hkept, hresult⟩ := terminal_states_are_absorbing sampleServices.codec
    "task_run_1" (sampleInputs fun _ => .completed) _ _ _ _ c₁ _ (fun _ _ _ => rfl)
    (fun _ _ hfinalizer => by cases hfinalizer) (.inl hopen) hruns₁ hruns₂ hblock e stored he
    hstored hstatus
  obtain rfl := RunOutcome.eventType_injective (hevent'.symm.trans htype)
  exact ⟨_, _, c₁, _, hruns₁, hruns₂, hevent, hkept, hresult⟩

/-- The watchdog blocks a run while the loop executes it: the loop then ends it as completed with
a completed result, although the first terminal event is that of a blocked run. -/
theorem blocked_run_goes_on :
    ∃ tr₁ tr₂ tr₃ c₁ c₂ c₃, Pool.Runs (runHandler sampleServices.codec "task_run_1")
        (sampleWatched (sampleRun [sampleStep "step_1" true])) tr₁ c₁ ∧
      Pool.Runs (runHandler sampleServices.codec "task_run_1") c₁ tr₂ c₂ ∧
      Pool.Runs (runHandler sampleServices.codec "task_run_1") c₂ tr₃ c₃ ∧
      (firstTerminalEvent c₁.state.events).map (·.type) = some "run_blocked" ∧
      c₁.state.run.map (·.status) = some .blocked ∧
      c₂.state.run.map (·.status) = some .running ∧
      c₃.state.run.map (·.status) = some .completed ∧
      c₃.state.result.map (·.status) = some .completed := by
  let h := runHandler sampleServices.codec "task_run_1"
  let order := List.replicate 8 .loop ++ List.replicate 9 (Worker.watchdog ())
  let c₁ := (sampleWatched (sampleRun [sampleStep "step_1" true])).play h order
  let c₂ := c₁.play h (List.replicate 4 .loop)
  have hruns₁ := Pool.runs_play h order (sampleWatched (sampleRun [sampleStep "step_1" true]))
  have hruns₂ := Pool.runs_play h (List.replicate 4 .loop) c₁
  have hruns₃ := Pool.runs_play h (List.replicate 20 .loop) c₂
  refine ⟨_, _, _, c₁, c₂, _, hruns₁, hruns₂, hruns₃, ?_, ?_, ?_, ?_, ?_⟩ <;> decide

end AIpinho.Runtime
