import AIpinho.Runtime.Loop

/-!
# What the loop does, without its operations

Whatever the store answers, the loop goes through the steps of the plan in one of five ways for
each step. `LoopRun` says so as a relation on the local state of the loop, on which statements
are proved by induction.
-/

namespace AIpinho.Runtime

open List Lib Program LoopState TaskRun

section Operations

variable (now type status message stepId : String) (metadata : List (String × Json))

@[simp] theorem returns_createEvent (eventId : String) :
    (createEvent now type status message metadata).Returns eventId :=
  returns_perform (S := runStore) (.appendEvent _) eventId

@[simp] theorem returns_createStepEvent (eventId : String) :
    (createStepEvent now type status message stepId metadata).Returns eventId :=
  returns_perform (S := runStore) (.appendEvent _) eventId

@[simp] theorem returns_updateRun (run : TaskRun) (u : Unit) :
    (RunProgram.updateRun run).Returns u :=
  returns_perform (S := runStore) (.updateRun run) u

@[simp] theorem returns_saveResult (result : TaskRunResult) (u : Unit) :
    (RunProgram.saveResult now result).Returns u :=
  returns_perform (S := runStore) (.saveResult now result) u

@[simp] theorem returns_executeStep (index : ℕ) (u : Unit) :
    (RunProgram.executeStep index).Returns u :=
  returns_perform (S := runStore) (.executeStep index) u

@[simp] theorem returns_getEvents (events : List TaskRunEvent) :
    RunProgram.getEvents.Returns events :=
  returns_perform (S := runStore) .getEvents events

end Operations

@[simp] theorem returns_ofExcept {α : Type} (x : Except String α) (a : α) :
    (RunProgram.ofExcept x).Returns a ↔ x = .ok a := by
  cases x with
  | ok b => simp [RunProgram.ofExcept, eq_comm]
  | error e => simp [RunProgram.ofExcept]

def stepReasons (inputs : LoopInputs) (index : ℕ) (step : TaskRunStep) (s : LoopState) :
    List String :=
  inputs.guard.checkStep s.run step index (inputs.elapsed index)

def LoopState.started (index : ℕ) (step : TaskRunStep) (s : LoopState) : LoopState :=
  (s.startStep index step).startPhase step

def LoopState.finished (index : ℕ) (step : TaskRunStep) (reply : StepReply) (eventId : String)
    (s : LoopState) : LoopState :=
  (s.finishStep index step reply).finishPhase step reply.outcome.status reply.outcome.violations
    eventId

/-- What the loop may do with one step: the state after it, and the outcome the
loop stops with, if it stops. `latest` is the run it reads before the step. -/
inductive LoopStep (inputs : LoopInputs) (index : ℕ) (step : TaskRunStep) (s : LoopState) :
    LoopState → Option RunOutcome → Prop
  | cancelled (latest : Option TaskRun)
      (hreasons : cancellationRequestedReason ∈
        stepReasons inputs index step (s.observe latest)) :
      LoopStep inputs index step s ((s.observe latest).cancelStep index) (some .cancelled)
  | guardBlocked (latest : Option TaskRun) (reasons : List String)
      (hreasons : stepReasons inputs index step (s.observe latest) = reasons)
      (hne : reasons ≠ []) (hrequest : cancellationRequestedReason ∉ reasons) :
      LoopStep inputs index step s
        ((s.observe latest).blockStep index reasons (.guardBlocked reasons)) (some .blocked)
  | skipped (latest : Option TaskRun) (missing : List String) (s₁ : LoopState) (eventId : String)
      (hallowed : stepReasons inputs index step (s.observe latest) = [])
      (hmissing : (s.observe latest).checkDependencies inputs.admission step = (missing, s₁))
      (hne : missing ≠ []) (hrequired : step.required = false) :
      LoopStep inputs index step s
        ((s₁.skipStep index step missing).finishPhase step .skipped [] eventId) none
  | dependencyBlocked (latest : Option TaskRun) (missing : List String) (s₁ : LoopState)
      (hallowed : stepReasons inputs index step (s.observe latest) = [])
      (hmissing : (s.observe latest).checkDependencies inputs.admission step = (missing, s₁))
      (hne : missing ≠ []) (hrequired : step.required = true) :
      LoopStep inputs index step s
        (s₁.blockStep index missing (.dependencyBlocked missing)) (some .blocked)
  | executed (latest : Option TaskRun) (s₁ : LoopState) (reply : StepReply) (eventId : String)
      (hallowed : stepReasons inputs index step (s.observe latest) = [])
      (hmissing : (s.observe latest).checkDependencies inputs.admission step = ([], s₁))
      (hreply : inputs.execute index (s₁.started index step).run step
        (s₁.started index step).context = reply) :
      LoopStep inputs index step s
        ((s₁.started index step).finished index step reply eventId)
        (if step.required then reply.outcome.status.stops? else none)

/-- What the loop may do with the remaining steps. -/
inductive LoopRun (inputs : LoopInputs) :
    ℕ → List TaskRunStep → LoopState → LoopState → Option RunOutcome → Prop
  | nil (index : ℕ) (s : LoopState) : LoopRun inputs index [] s s none
  | stop {index : ℕ} {step : TaskRunStep} {rest : List TaskRunStep} {s s' : LoopState}
      {outcome : RunOutcome} (hstep : LoopStep inputs index step s s' (some outcome)) :
      LoopRun inputs index (step :: rest) s s' (some outcome)
  | next {index : ℕ} {step : TaskRunStep} {rest : List TaskRunStep} {s s₁ s' : LoopState}
      {stopped : Option RunOutcome} (hstep : LoopStep inputs index step s s₁ none)
      (hrest : LoopRun inputs (index + 1) rest s₁ s' stopped) :
      LoopRun inputs index (step :: rest) s s' stopped

variable {inputs : LoopInputs} {index : ℕ} {s s' : LoopState} {stopped : Option RunOutcome}
  {rest : List TaskRunStep} {run' : TaskRun} {ret : LoopReturn}

variable {step : TaskRunStep}

theorem returns_startStep (h : (startStep inputs index step s).Returns s') :
    s' = s.started index step := by
  simpa [startStep, LoopState.started] using h

theorem returns_finishStep {reply : StepReply}
    (h : (finishStep inputs index step reply s).Returns s') :
    ∃ eventId, s' = s.finished index step reply eventId := by
  simpa [finishStep, LoopState.finished] using h

theorem returns_skipStep {missing : List String}
    (h : (skipStep inputs index step missing s).Returns s') :
    ∃ eventId, s' = (s.skipStep index step missing).finishPhase step .skipped [] eventId := by
  simpa [skipStep] using h

/-- What the loop does in one step, whatever the store answers. -/
theorem returns_runStep {latest : Option TaskRun}
    (h : (runStep inputs index step latest s).Returns (s', stopped)) :
    LoopStep inputs index step s s' stopped := by
  rw [runStep, ← stepReasons] at h
  split at h
  · rename_i hne
    have hne : stepReasons inputs index step (s.observe latest) ≠ [] := by simpa using hne
    split at h
    · rename_i hrequest
      simp only [returns_bind, pure_eq_done, returns_done,
        Prod.mk.injEq, returns_createStepEvent, true_and, exists_const] at h
      obtain ⟨rfl, rfl⟩ := h
      exact .cancelled latest (by simpa [stepReasons] using hrequest)
    · rename_i hrequest
      simp only [returns_bind, pure_eq_done, returns_done,
        Prod.mk.injEq, returns_createStepEvent, true_and, exists_const] at h
      obtain ⟨rfl, rfl⟩ := h
      exact .guardBlocked latest _ rfl hne (by simpa [stepReasons] using hrequest)
  · rename_i hallowed
    have hallowed : stepReasons inputs index step (s.observe latest) = [] := by
      simpa using hallowed
    obtain ⟨missing, s₁, hmissing⟩ : ∃ missing s₁,
        (s.observe latest).checkDependencies inputs.admission step = (missing, s₁) := ⟨_, _, rfl⟩
    rw [hmissing] at h
    dsimp only at h
    split at h
    · rename_i hempty
      obtain rfl : missing = [] := by simpa using hempty
      simp only [returns_bind, returns_executeStep, true_and, exists_const,
        pure_eq_done, returns_done, Prod.mk.injEq] at h
      obtain ⟨s₂, hs₂, s₃, hs₃, rfl, rfl⟩ := h
      obtain rfl := returns_startStep hs₂
      obtain ⟨eventId, rfl⟩ := returns_finishStep hs₃
      exact .executed latest s₁ _ eventId hallowed hmissing rfl
    · rename_i hne
      have hne : missing ≠ [] := by simpa using hne
      split at h
      · rename_i hrequired
        simp only [returns_bind, pure_eq_done, returns_done, Prod.mk.injEq] at h
        obtain ⟨s₂, hs₂, rfl, rfl⟩ := h
        obtain ⟨eventId, rfl⟩ := returns_skipStep hs₂
        exact .skipped latest missing s₁ eventId hallowed hmissing hne (by simpa using hrequired)
      · rename_i hrequired
        simp only [returns_bind, pure_eq_done, returns_done,
          Prod.mk.injEq, returns_createStepEvent, returns_updateRun, true_and,
          exists_const] at h
        obtain ⟨rfl, rfl⟩ := h
        exact .dependencyBlocked latest missing s₁ hallowed hmissing hne
          (by simpa using hrequired)

theorem returns_runSteps (h : (runSteps inputs index rest s).Returns (s', stopped)) :
    LoopRun inputs index rest s s' stopped := by
  induction rest generalizing index s with
  | nil =>
    simp only [runSteps, pure_eq_done, returns_done, Prod.mk.injEq] at h
    obtain ⟨rfl, rfl⟩ := h
    exact .nil index s'
  | cons step rest ih =>
    simp only [runSteps, returns_bind] at h
    obtain ⟨latest, -, ⟨s₁, stopped₁⟩, hstep, h⟩ := h
    have hstep := returns_runStep hstep
    cases stopped₁ with
    | some outcome =>
      simp only [pure_eq_done, returns_done, Prod.mk.injEq] at h
      obtain ⟨rfl, rfl⟩ := h
      exact .stop hstep
    | none => exact .next hstep (ih h)

def StepEvent.status : StepEvent → StepStatus
  | .cancelled => .cancelled
  | .guardBlocked _ => .blocked
  | .dependencySkipped _ => .skipped
  | .dependencyBlocked _ => .blocked
  | .executed outcome => outcome.status

def StepEvent.stops? (required : Bool) : StepEvent → Option RunOutcome
  | .cancelled => some .cancelled
  | .guardBlocked _ => some .blocked
  | .dependencySkipped _ => none
  | .dependencyBlocked _ => some .blocked
  | .executed outcome => if required then outcome.status.stops? else none

def LoopState.reached (s : LoopState) : List (TaskRunStep × StepEvent) :=
  s.run.plan.steps.zip s.history

section Transformers

variable (s : LoopState) (latest : Option TaskRun)

theorem LoopState.observe_eq : s.observe latest = s ∨ ∃ reason, s.observe latest =
    { s with run := { s.run with
      cancellationRequested := true, cancellationReason := reason } } := by
  cases latest with
  | none => exact .inl rfl
  | some stored =>
    simp only [LoopState.observe]
    split
    · exact .inr ⟨_, rfl⟩
    · exact .inl rfl

theorem LoopState.observe_status : (s.observe latest).run.status = s.run.status := by
  rcases s.observe_eq latest with h | ⟨reason, h⟩ <;> rw [h]

theorem LoopState.checkDependencies_status
    {admission : WorkflowPhase → WorkflowPhaseDependency → Option String} {step : TaskRunStep}
    {missing : List String} {s s₁ : LoopState}
    (h : s.checkDependencies admission step = (missing, s₁)) : s₁.run.status = s.run.status := by
  rw [LoopState.checkDependencies] at h
  split at h <;> cases h <;> rfl

@[simp] theorem LoopState.observe_plan : (s.observe latest).run.plan = s.run.plan := by
  rcases s.observe_eq latest with h | ⟨reason, h⟩ <;> rw [h]

@[simp] theorem LoopState.observe_history : (s.observe latest).history = s.history := by
  rcases s.observe_eq latest with h | ⟨reason, h⟩ <;> rw [h]

@[simp] theorem LoopState.observe_sawPartial : (s.observe latest).sawPartial = s.sawPartial := by
  rcases s.observe_eq latest with h | ⟨reason, h⟩ <;> rw [h]

theorem LoopState.checkDependencies_frame
    {admission : WorkflowPhase → WorkflowPhaseDependency → Option String} {step : TaskRunStep}
    {missing : List String} {s s₁ : LoopState}
    (h : s.checkDependencies admission step = (missing, s₁)) :
    s₁.run.plan = s.run.plan ∧ s₁.history = s.history ∧ s₁.sawPartial = s.sawPartial := by
  rw [LoopState.checkDependencies] at h
  split at h
  · cases h
    exact ⟨rfl, rfl, rfl⟩
  · cases h
    exact ⟨rfl, rfl, rfl⟩

theorem LoopState.started_plan (index : ℕ) (step : TaskRunStep) : (s.started index step).run.plan =
      (s.run.modifyStep index fun step => { step with status := .running }).plan := rfl

theorem LoopState.finished_plan (index : ℕ) (step : TaskRunStep) (reply : StepReply)
    (eventId : String) :
    (s.finished index step reply eventId).run.plan = (s.run.modifyStep index fun step =>
        { step with
          status := reply.outcome.status
          warnings := reply.outcome.warnings.eraseDups
          violations := reply.outcome.violations.eraseDups }).plan := by
  simp only [LoopState.finished, LoopState.finishStep, LoopState.finishPhase]
  split <;> rfl

end Transformers

/-- A step records one event and the status of its step. -/
theorem LoopStep.records (h : LoopStep inputs index step s s' stopped) :
    ∃ f event, s'.run.plan.steps = s.run.plan.steps.modify index f ∧
      s'.history = s.history ++ [event] ∧
      (∀ step, (f step).required = step.required ∧ (f step).stepId = step.stepId ∧
        (f step).status = event.status) ∧
      stopped = event.stops? step.required ∧
      s'.sawPartial = (s.sawPartial || (step.required && event.status = .partially)) := by
  cases h with
  | cancelled latest =>
    refine ⟨_, .cancelled, by simp [LoopState.cancelStep, TaskRun.modifyStep]; rfl, ?_⟩
    simp [LoopState.cancelStep, StepEvent.status, StepEvent.stops?]
  | guardBlocked latest reasons =>
    refine ⟨_, .guardBlocked reasons,
      by simp [LoopState.blockStep, TaskRun.modifyStep, TaskRun.addBlockedReasons]; rfl, ?_⟩
    simp [LoopState.blockStep, StepEvent.status, StepEvent.stops?]
  | skipped latest missing s₁ eventId _ hmissing _ hrequired =>
    obtain ⟨hplan, hhistory, hsaw⟩ := checkDependencies_frame hmissing
    refine ⟨_, .dependencySkipped missing,
      by simp [LoopState.skipStep, LoopState.finishPhase, TaskRun.modifyStep, hplan]; rfl, ?_⟩
    simp [LoopState.skipStep, LoopState.finishPhase, StepEvent.status, StepEvent.stops?,
      hhistory, hsaw]
  | dependencyBlocked latest missing s₁ _ hmissing _ hrequired =>
    obtain ⟨hplan, hhistory, hsaw⟩ := checkDependencies_frame hmissing
    refine ⟨_, .dependencyBlocked missing, by
      simp [LoopState.blockStep, TaskRun.modifyStep, TaskRun.addBlockedReasons, hplan]; rfl, ?_⟩
    simp [LoopState.blockStep, StepEvent.status, StepEvent.stops?, hhistory, hsaw]
  | executed latest s₁ reply eventId _ hmissing =>
    obtain ⟨hplan, hhistory, hsaw⟩ := checkDependencies_frame hmissing
    refine ⟨fun step =>
      { step with
        status := reply.outcome.status
        warnings := reply.outcome.warnings.eraseDups
        violations := reply.outcome.violations.eraseDups }, .executed reply.outcome, ?_, ?_⟩
    · simp only [finished_plan, started_plan, TaskRun.modifyStep, hplan,
        modify_modify_eq, observe_plan]
      rfl
    · simp [LoopState.finished, LoopState.started, LoopState.finishStep, LoopState.finishPhase,
        LoopState.startStep, LoopState.startPhase, StepEvent.status, StepEvent.stops?,
        hhistory, hsaw]
      rw [Bool.and_comm]
      rfl

theorem LoopStep.reached (h : LoopStep inputs index step s s' stopped)
    (hindex : s.history.length = index) (hstep : s.run.plan.steps[index]? = some step) :
    ∃ step' event, s'.reached = s.reached ++ [(step', event)] ∧ s'.history = s.history ++ [event] ∧
      step'.required = step.required ∧ step'.status = event.status ∧
      stopped = event.stops? step.required ∧
      s'.sawPartial = (s.sawPartial || (step.required && event.status = .partially)) := by
  obtain ⟨f, event, hsteps, hhistory, hf, hstopped, hsaw⟩ := h.records
  refine ⟨f step, event, ?_, hhistory, (hf step).1, (hf step).2.2, hstopped, hsaw⟩
  subst hindex
  rw [LoopState.reached, hsteps, hhistory, zip_modify_append hstep, LoopState.reached]

/-- What holds of the loop when it has gone through some steps: the records of
the steps show what happened, and the loop stops where an event stops it. -/
structure Recorded (s : LoopState) (stopped : Option RunOutcome) : Prop where
  statuses : ∀ x ∈ s.reached, x.1.status = x.2.status
  sawPartial : s.sawPartial = s.reached.any fun x => x.1.required && x.2.status = .partially
  stops : s.reached.findSome? (fun x => x.2.stops? x.1.required) = stopped
  cancelled : StepEvent.cancelled ∈ s.history → stopped = some .cancelled

theorem LoopStep.recorded (h : LoopStep inputs index step s s' stopped)
    (hindex : s.history.length = index) (hstep : s.run.plan.steps[index]? = some step)
    (hs : Recorded s none) : Recorded s' stopped := by
  obtain ⟨step', event, hreached, hhistory, hrequired, hstatus, rfl, hsaw⟩ := h.reached hindex hstep
  constructor
  · intro x hx
    rw [hreached, mem_append, mem_singleton] at hx
    rcases hx with hx | rfl
    · exact hs.statuses x hx
    · exact hstatus
  · rw [hsaw, hs.sawPartial, hreached]
    simp [hrequired]
  · rw [hreached, findSome?_append, hs.stops]
    simp [hrequired]
  · intro hmem
    rw [hhistory, mem_append, mem_singleton] at hmem
    rcases hmem with hmem | rfl
    · cases hs.cancelled hmem
    · rfl

theorem LoopStep.drop (h : LoopStep inputs index step s s' stopped)
    (hrest : s.run.plan.steps.drop index = step :: rest) :
    s.run.plan.steps[index]? = some step ∧ s'.run.plan.steps.drop (index + 1) = rest := by
  obtain ⟨f, event, hsteps, -⟩ := h.records
  obtain ⟨hhead, htail⟩ := getElem?_and_drop_of_drop_eq_cons hrest
  refine ⟨hhead, ?_⟩
  rw [hsteps, drop_modify_of_lt _ _ _ _ (by omega), htail]

theorem LoopRun.recorded (h : LoopRun inputs index rest s s' stopped)
    (hindex : s.history.length = index) (hrest : s.run.plan.steps.drop index = rest)
    (hs : Recorded s none) :
    Recorded s' stopped ∧ (stopped = none → s'.run.plan.steps.length ≤ s'.history.length) := by
  induction h with
  | nil index s =>
    refine ⟨hs, fun _ => ?_⟩
    have hlength := congrArg List.length hrest
    simp only [length_drop, length_nil] at hlength
    omega
  | stop hstep =>
    obtain ⟨hhead, -⟩ := hstep.drop hrest
    exact ⟨hstep.recorded hindex hhead hs, nofun⟩
  | next hstep _ ih =>
    obtain ⟨hhead, htail⟩ := hstep.drop hrest
    obtain ⟨_, event, _, hhistory, _⟩ := hstep.reached hindex hhead
    exact ih (by simp [hhistory, hindex]) htail (hstep.recorded hindex hhead hs)

theorem TaskRun.transition_frame {now : String} {target : TaskRunStatus} {run : TaskRun}
    (h : run.transition now target = .ok run') :
    run'.status = target ∧ run'.plan = run.plan ∧ run'.workflow = run.workflow ∧
      run'.executionGraph = run.executionGraph := by
  rcases transition_eq_ok h with ⟨rfl, hstatus⟩ | ⟨-, rfl⟩
  · exact ⟨hstatus, rfl, rfl, rfl⟩
  · exact ⟨rfl, rfl, rfl, rfl⟩

theorem returns_finalizeResult {run : TaskRun} {context : TaskRunContext}
    {completion : Option TaskCompletionEvaluation} {result : TaskRunResult}
    (h : (finalizeResult inputs run context completion).Returns (run', result)) :
    run'.status = run.status ∧ run'.plan = run.plan ∧ run'.workflow = run.workflow ∧
      run'.executionGraph = run.executionGraph ∧ result.completion = completion := by
  simp only [finalizeResult, returns_bind, pure_eq_done, returns_done,
    Prod.mk.injEq, returns_getEvents, returns_updateRun, returns_saveResult, true_and,
    exists_const] at h
  obtain ⟨counted, events, rfl, rfl⟩ := h
  exact ⟨rfl, rfl, rfl, rfl, rfl⟩

@[simp] theorem returns_recordBlock (now message : String) (u : Unit) :
    (recordBlock now message).Returns u := by
  simp [recordBlock]

@[simp] theorem returns_recordEnd (now : String) (terminal : RunOutcome) (u : Unit) :
    (recordEnd now terminal).Returns u := by
  rw [recordEnd]
  split <;> simp

@[simp] theorem returns_recordCompletion (now : String) (completion : TaskCompletionEvaluation)
    (u : Unit) : (recordCompletion now completion).Returns u := by
  simp [recordCompletion]

@[simp] theorem returns_recordApproval (now : String) (run : TaskRun) (u : Unit) :
    (recordApproval now run).Returns u := by
  rw [recordApproval]
  split <;> simp

/-- What the loop returns after its steps. -/
structure FinishedFrom (inputs : LoopInputs) (s : LoopState) (proposed : RunOutcome)
    (ret : LoopReturn) : Prop where
  steps : ret.steps = some (s, proposed)
  status : ret.run.status = (s.terminal inputs proposed).status
  plan : ret.run.plan = s.run.plan
  workflow : ret.run.workflow = s.run.workflow
  executionGraph : ret.run.executionGraph =
    (s.run.closed (s.terminal inputs proposed)).executionGraph
  result : ∃ result, ret.result = some result ∧
    result.completion = some (s.completion inputs proposed)

theorem returns_finishRun {proposed : RunOutcome} (h : (finishRun inputs s proposed).Returns ret) :
    FinishedFrom inputs s proposed ret := by
  simp only [finishRun, closeRun, returns_bind, pure_eq_done,
    returns_done, returns_recordCompletion, returns_updateRun, returns_ofExcept,
    returns_recordEnd, true_and, exists_const] at h
  obtain ⟨run, hrun, ⟨run', result⟩, hfinal, rfl⟩ := h
  obtain ⟨hstatus, hplan, hworkflow, hgraph⟩ := transition_frame hrun
  obtain ⟨hstatus', hplan', hworkflow', hgraph', hcompletion⟩ := returns_finalizeResult hfinal
  exact ⟨rfl, hstatus'.trans hstatus, hplan'.trans hplan, hworkflow'.trans hworkflow,
    hgraph'.trans hgraph, result, rfl, hcompletion⟩

/-- What a call of the loop does with the run it reads first. -/
inductive SupervisedRun (inputs : LoopInputs) (start : TaskRun) (ret : LoopReturn) : Prop
  | idle (hended : start.status.isTerminal = true ∨ start.status = .running)
      (hrun : ret.run = start) (hsteps : ret.steps = none)
  | refused (hstart : ¬(start.status.isTerminal = true ∨ start.status = .running))
      (hstatus : ret.run.status = .blocked) (hplan : ret.run.plan = start.plan)
      (hworkflow : ret.run.workflow = start.workflow)
      (hgraph : ret.run.executionGraph = start.executionGraph) (hsteps : ret.steps = none)
  | ran (run : TaskRun) (s : LoopState) (stopped : Option RunOutcome)
      (hplan : run.plan = start.plan) (hworkflow : run.workflow = start.workflow)
      (hgraph : run.executionGraph = start.executionGraph)
      (hloop : LoopRun inputs 0 start.plan.steps ⟨run, inputs.buildContext run, false, []⟩
        s stopped)
      (hfinished : FinishedFrom inputs s (proposedOutcome s stopped) ret)

theorem returns_blockBeforeStart {reasons : List String} {message : String} {run : TaskRun}
    (hstart : ¬(run.status.isTerminal = true ∨ run.status = .running))
    (h : (blockBeforeStart inputs reasons message run).Returns ret) :
    SupervisedRun inputs run ret := by
  simp only [blockBeforeStart, returns_bind, pure_eq_done, returns_done,
    returns_recordBlock, returns_updateRun, returns_ofExcept, true_and, exists_const] at h
  obtain ⟨run₁, hrun₁, ⟨run₂, result⟩, hfinal, rfl⟩ := h
  obtain ⟨hstatus, hplan, hworkflow, hgraph⟩ := transition_frame hrun₁
  obtain ⟨hstatus', hplan', hworkflow', hgraph', -⟩ := returns_finalizeResult hfinal
  exact .refused hstart (hstatus'.trans hstatus) (hplan'.trans hplan) (hworkflow'.trans hworkflow)
    (hgraph'.trans hgraph) rfl

theorem returns_queueRun {now : String} {run : TaskRun} (h : (queueRun now run).Returns run') :
    run'.plan = run.plan ∧ run'.workflow = run.workflow ∧
      run'.executionGraph = run.executionGraph := by
  rw [queueRun] at h
  split at h
  · simp only [returns_bind, pure_eq_done, returns_done,
      returns_createEvent, returns_ofExcept, true_and, exists_const] at h
    obtain ⟨run₁, hrun₁, rfl⟩ := h
    exact (transition_frame hrun₁).2
  · simp only [pure_eq_done, returns_done] at h
    subst h
    exact ⟨rfl, rfl, rfl⟩

theorem returns_startRun {run : TaskRun} (h : (startRun inputs run).Returns run') :
    run'.plan = run.plan ∧ run'.workflow = run.workflow ∧
      run'.executionGraph = run.executionGraph := by
  simp only [startRun, returns_bind, pure_eq_done, returns_done,
    returns_createEvent, returns_updateRun, returns_ofExcept, returns_recordApproval, true_and,
    exists_const] at h
  obtain ⟨run₁, hrun₁, run₂, hrun₂, rfl⟩ := h
  obtain ⟨hplan₁, hworkflow₁, hgraph₁⟩ := returns_queueRun hrun₁
  obtain ⟨-, hplan, hworkflow, hgraph⟩ := transition_frame hrun₂
  exact ⟨hplan.trans hplan₁, hworkflow.trans hworkflow₁, hgraph.trans hgraph₁⟩

theorem supervisedRun_ends {xs : List runStore.Exchange}
    (h : (supervisedRun inputs).Ends xs (.ok ret)) :
    ∃ start ys, xs = ⟨.getRun, .found start⟩ :: ys ∧
      (superviseRun inputs start).Ends ys (.ok ret) := by
  obtain ⟨read, ys, rfl, h⟩ := h
  cases read with
  | missing | invalid => cases h.2
  | found start => exact ⟨start, ys, rfl, h⟩

theorem supervisedRun_ends_cons {start : TaskRun} {ys : List runStore.Exchange}
    (h : (superviseRun inputs start).Ends ys (.ok ret)) :
    (supervisedRun inputs).Ends (⟨.getRun, .found start⟩ :: ys) (.ok ret) :=
  ⟨.found start, ys, rfl, h⟩

theorem returns_superviseRun {start : TaskRun} (h : (superviseRun inputs start).Returns ret) :
    SupervisedRun inputs start ret := by
  simp only [superviseRun, returns_bind] at h
  obtain ⟨existing, -, h⟩ := h
  split at h
  · rename_i hended
    simp only [pure_eq_done, returns_done] at h
    subst h
    exact .idle hended rfl rfl
  · rename_i hstart
    simp only [returns_bind, returns_getEvents, true_and] at h
    obtain ⟨events, h⟩ := h
    split at h
    · exact returns_blockBeforeStart hstart h
    · split at h
      · exact returns_blockBeforeStart hstart h
      · simp only [returns_bind] at h
        obtain ⟨run, hrun, ⟨s, stopped⟩, hsteps, h⟩ := h
        obtain ⟨hplan, hworkflow, hgraph⟩ := returns_startRun hrun
        have hloop := returns_runSteps hsteps
        rw [hplan] at hloop
        exact .ran run s stopped hplan hworkflow hgraph hloop (returns_finishRun h)

/-- The parties of a run that is cancelled while it is executed. -/
inductive Party
  | loop
  | canceller
  deriving DecidableEq

abbrev Party.Result : Party → Type
  | .loop => LoopReturn
  | .canceller => TaskCancellationResult

/-- One execution of the loop and one call of `cancel` on the same files. -/
def race (inputs : LoopInputs) (now reason : String) (files : RunFiles) :
    Pool runStore RunFiles Party.Result where
  threads
    | .loop => supervisedRun inputs
    | .canceller => cancel now reason
  state := files

def sampleStep (stepId : String) (required : Bool) : TaskRunStep where
  stepId := stepId
  stepType := "read_context"
  action := "read"
  required := required
  sideEffect := false
  status := .pending
  warnings := []
  violations := []

def sampleRun (steps : List TaskRunStep) : TaskRun where
  runId := "task_run_1"
  taskId := none
  operationId := none
  approvalId := none
  contractType := "analysis"
  status := .queued
  plan := ⟨"ready", steps, none⟩
  workflow := some (createForRun [] ⟨"ready", steps, none⟩)
  executionGraph := some (ExecutionGraph.buildFromPlan String.toLower ⟨"ready", steps, none⟩)
  currentStepId := none
  approvalSnapshot := .obj []
  autoRunRequested := false
  cancellationRequested := false
  cancellationReason := none
  revision := 1
  createdAt := "2026-01-01T00:00:00Z"
  startedAt := none
  finishedAt := none
  warnings := []
  blockedReasons := []
  evidence := []

def sampleEvents : List TaskRunEvent :=
  [{ newEvent "2026-01-01T00:00:00Z" "run_created" "created" "" [] with sequence := 1 },
    { newEvent "2026-01-01T00:00:00Z" "task_bootstrap_created" "created" "" [] with
      sequence := 2 }]

def sampleFiles (run : TaskRun) : RunFiles := ⟨some run, some run.status, sampleEvents, none, []⟩

def sampleServices : StoreServices := ⟨⟨fun _ => "0", fun _ => "[]"⟩, fun _ => none⟩

def sampleOutcome (status : StepStatus) : StepOutcome := ⟨status, [], [], [], [], []⟩

def sampleInputs (status : ℕ → StepStatus) : LoopInputs where
  services := sampleServices
  clock := ⟨"2026-01-01T00:01:00Z", fun _ => none⟩
  checkRun _ := []
  guard := ⟨[], false, ["read"], [], 10, 1000000⟩
  elapsed _ := 0
  admission _ _ := none
  buildContext _ := ⟨[], [], [], []⟩
  execute index run _ context := ⟨sampleOutcome (status index), context, run.evidence⟩
  completion := ⟨fun _ => [], fun _ => false, fun _ => []⟩
  validate _ _ := some "passed"
  summary _ _ := ""
  project run _ := run.evidence

end AIpinho.Runtime
