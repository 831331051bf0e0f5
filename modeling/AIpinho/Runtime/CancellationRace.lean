import AIpinho.Runtime.LoopRuns

/-!
# A cancellation beside the loop

The loop looks for a request to cancel once before each step, and writes its own copy of the run
in between. A request that is stored between a check and the next write of the loop is lost, and
these are the only ones: otherwise the loop stops at its next check.
-/

namespace AIpinho.Runtime

open List Lib

def RunOp.IsPlain : RunOp → Prop
  | .getLatest _ => False
  | .executeStep _ => False
  | _ => True

def RunOp.writesRun : RunOp → Bool
  | .updateRun _ => true
  | .saveResult _ _ => true
  | .cohereTerminalResult _ _ => true
  | _ => false

section Plain

variable (inputs : LoopInputs) (services : StoreServices) (clock : Clock) (index : ℕ)
  (step : TaskRunStep) (s : LoopState) (now type status message stepId : String)
  (metadata : List (String × Json))

theorem plain_createEvent : (createEvent now type status message metadata).Issues RunOp.IsPlain :=
  ⟨trivial, fun _ => trivial⟩

theorem plain_createStepEvent :
    (createStepEvent now type status message stepId metadata).Issues RunOp.IsPlain :=
  ⟨trivial, fun _ => trivial⟩

theorem plain_updateRun (run : TaskRun) : (RunProgram.updateRun run).Issues RunOp.IsPlain :=
  ⟨trivial, fun _ => trivial⟩

theorem plain_getEvents : RunProgram.getEvents.Issues RunOp.IsPlain := ⟨trivial, fun _ => trivial⟩

theorem plain_ofExcept {α : Type} (x : Except String α) :
    (RunProgram.ofExcept x).Issues RunOp.IsPlain := by
  cases x <;> trivial

theorem plain_startStep : (startStep inputs index step s).Issues RunOp.IsPlain :=
  (plain_createStepEvent ..).bind fun _ => (plain_createStepEvent ..).bind fun _ =>
    (plain_updateRun _).bind fun _ => (plain_updateRun _).bind fun _ => trivial

theorem plain_finishStep (reply : StepReply) :
    (finishStep inputs index step reply s).Issues RunOp.IsPlain :=
  (plain_createStepEvent ..).bind fun _ => (plain_createStepEvent ..).bind fun _ =>
    (plain_updateRun _).bind fun _ => trivial

theorem plain_skipStep (reasons : List String) :
    (skipStep inputs index step reasons s).Issues RunOp.IsPlain :=
  (plain_createStepEvent ..).bind fun _ => (plain_updateRun _).bind fun _ => trivial

theorem plain_recordBlock : (recordBlock now message).Issues RunOp.IsPlain :=
  (plain_createEvent ..).bind fun _ => (plain_createEvent ..).bind fun _ =>
    (plain_createEvent ..).bind fun _ => trivial

theorem plain_recordEnd (terminal : RunOutcome) :
    (recordEnd now terminal).Issues RunOp.IsPlain := by
  rw [recordEnd]
  split
  · exact plain_recordBlock ..
  · exact (plain_createEvent ..).bind fun _ => (plain_createEvent ..).bind fun _ => trivial

theorem plain_finalizeResult (run : TaskRun) (context : TaskRunContext)
    (completion : Option TaskCompletionEvaluation) :
    (finalizeResult inputs run context completion).Issues RunOp.IsPlain :=
  ⟨trivial, fun _ => ⟨trivial, fun _ => ⟨trivial, fun _ => ⟨trivial, fun _ => trivial⟩⟩⟩⟩

theorem plain_blockBeforeStart (reasons : List String) (run : TaskRun) :
    (blockBeforeStart inputs reasons message run).Issues RunOp.IsPlain :=
  (plain_ofExcept _).bind fun _ => (plain_recordBlock ..).bind fun _ =>
    (plain_updateRun _).bind fun _ => (plain_finalizeResult ..).bind fun _ => trivial

theorem plain_closeRun (proposed : RunOutcome) (run : TaskRun) :
    (closeRun inputs s proposed run).Issues RunOp.IsPlain :=
  (plain_recordEnd ..).bind fun _ => (plain_updateRun _).bind fun _ =>
    (plain_finalizeResult ..).bind fun _ => trivial

theorem plain_recordCompletion (completion : TaskCompletionEvaluation) :
    (recordCompletion now completion).Issues RunOp.IsPlain :=
  (plain_createEvent ..).bind fun _ => (plain_createEvent ..).bind fun _ =>
    (plain_createEvent ..).bind fun _ => (plain_createEvent ..).bind fun _ =>
      (plain_createEvent ..).bind fun _ => trivial

theorem plain_finishRun (proposed : RunOutcome) :
    (finishRun inputs s proposed).Issues RunOp.IsPlain :=
  (plain_recordCompletion ..).bind fun _ => (plain_ofExcept _).bind fun _ =>
    plain_closeRun ..

theorem plain_queueRun (run : TaskRun) : (queueRun now run).Issues RunOp.IsPlain := by
  rw [queueRun]
  split
  · exact (plain_ofExcept _).bind fun _ => (plain_createEvent ..).bind fun _ => trivial
  · trivial

theorem plain_recordApproval (run : TaskRun) : (recordApproval now run).Issues RunOp.IsPlain := by
  rw [recordApproval]
  split
  · exact (plain_createEvent ..).bind fun _ => trivial
  · trivial

theorem plain_startRun (run : TaskRun) : (startRun inputs run).Issues RunOp.IsPlain :=
  (plain_queueRun ..).bind fun _ => (plain_recordApproval ..).bind fun _ =>
    (plain_ofExcept _).bind fun _ => (plain_createEvent ..).bind fun _ =>
      (plain_createEvent ..).bind fun _ => (plain_updateRun _).bind fun _ => trivial

theorem plain_saveTerminalResult (reasonCode : Option String) (source : String)
    (result : TaskRunResult) :
    (saveTerminalResult clock reasonCode source result).Issues RunOp.IsPlain := by
  refine ⟨trivial, fun _ => ⟨trivial, fun events => ?_⟩⟩
  change Program.Issues _ (if (firstTerminalEvent events).isSome = true then _ else _)
  split
  · trivial
  · exact ⟨trivial, fun _ => trivial⟩

theorem plain_getRun? : RunProgram.getRun?.Issues RunOp.IsPlain := by
  refine ⟨trivial, fun read => ?_⟩
  cases read <;> trivial

theorem plain_ensureTerminalResult (reasonCode : Option String) :
    (ensureTerminalResult services clock reasonCode).Issues RunOp.IsPlain := by
  refine ⟨trivial, fun existing => ?_⟩
  cases existing with
  | some existing => trivial
  | none =>
    refine plain_getRun?.bind fun run => ?_
    cases run with
    | none => trivial
    | some run =>
      dsimp only
      split
      · trivial
      · refine ⟨trivial, fun events => ?_⟩
        dsimp only [bind, Program.bind]
        split
        · exact (plain_saveTerminalResult ..).bind fun _ => trivial
        · exact (plain_saveTerminalResult ..).bind fun _ => trivial

theorem plain_getResult : (getResult services clock).Issues RunOp.IsPlain := by
  refine ⟨trivial, fun existing => ?_⟩
  cases existing with
  | some result => exact ⟨trivial, fun _ => trivial⟩
  | none =>
    refine ⟨trivial, fun index => ?_⟩
    cases index with
    | none => trivial
    | some status =>
      change Program.Issues _ (if status.isTerminal = true then _ else _)
      split
      · exact plain_ensureTerminalResult ..
      · trivial

end Plain

theorem issues_runStep (inputs : LoopInputs) (index : ℕ) (step : TaskRunStep)
    (latest : Option TaskRun) (s : LoopState) :
    (runStep inputs index step latest s).Issues
      fun o : RunOp => o.IsPlain ∨ o = RunOp.executeStep index := by
  have hplain : ∀ {α : Type} {p : RunProgram α}, p.Issues RunOp.IsPlain →
      p.Issues fun o : RunOp => o.IsPlain ∨ o = RunOp.executeStep index :=
    fun hp => hp.mono fun _ h => .inl h
  rw [runStep]
  split
  · split
    · exact hplain ((plain_createStepEvent ..).bind fun _ => trivial)
    · exact hplain ((plain_createStepEvent ..).bind fun _ => trivial)
  · split
    split
    · refine (hplain (plain_startStep ..)).bind fun s₂ => ⟨.inr rfl, fun _ => ?_⟩
      exact (hplain (plain_finishStep ..)).bind fun _ => trivial
    · split
      · exact (hplain (plain_skipStep ..)).bind fun _ => trivial
      · exact hplain ((plain_createStepEvent ..).bind fun _ =>
          (plain_updateRun _).bind fun _ => trivial)

variable {s : LoopState} {inputs : LoopInputs} {index : ℕ} {latest : TaskRun}
  {xs : List runStore.Exchange} {r : Except String (LoopState × Option RunOutcome)}

theorem mem_stepReasons (inputs : LoopInputs) (index : ℕ) (step : TaskRunStep)
    (h : s.run.cancellationRequested = true) :
    cancellationRequestedReason ∈ stepReasons inputs index step s := by
  simp [stepReasons, GuardPolicy.checkStep, h]

theorem runStep_ends_of_request {step : TaskRunStep}
    (h : (runStep inputs index step (some latest) s).Ends xs r)
    (hrequest : latest.cancellationRequested = true) :
    (∃ e id, xs = [⟨.appendEvent e, id⟩]) ∧
      ∃ s', r = .ok (s', some .cancelled) ∧ s'.run.status = s.run.status := by
  have hflag : (s.observe (some latest)).run.cancellationRequested = true := by
    simp [LoopState.observe, hrequest]
  have hmem := mem_stepReasons inputs index step hflag
  have hne : (!(stepReasons inputs index step (s.observe (some latest))).isEmpty) = true := by
    simpa using ne_nil_of_mem hmem
  have hcontains : (stepReasons inputs index step (s.observe (some latest))).contains
      cancellationRequestedReason = true := by
    simpa using hmem
  rw [runStep, ← stepReasons] at h
  rw [if_pos hne, if_pos hcontains] at h
  obtain ⟨id, ys, rfl, rfl, rfl⟩ := h
  refine ⟨⟨_, id, rfl⟩, _, rfl, ?_⟩
  simp [LoopState.cancelStep, TaskRun.modifyStep, LoopState.observe, hrequest]

theorem LoopStep.status {step : TaskRunStep} {s' : LoopState} {stopped : Option RunOutcome}
    (h : LoopStep inputs index step s s' stopped) : s'.run.status = s.run.status := by
  have hobserve := s.observe_status
  cases h with
  | cancelled latest => exact hobserve latest
  | guardBlocked latest => exact hobserve latest
  | skipped latest missing s₁ eventId _ hmissing =>
    exact (LoopState.checkDependencies_status hmissing).trans (hobserve latest)
  | dependencyBlocked latest missing s₁ _ hmissing =>
    exact (LoopState.checkDependencies_status hmissing).trans (hobserve latest)
  | executed latest s₁ reply eventId _ hmissing =>
    have hfinished : ((s₁.started index step).finished index step reply eventId).run.status =
        s₁.run.status := by
      simp only [LoopState.finished, LoopState.finishStep, LoopState.finishPhase]
      split <;> rfl
    exact hfinished.trans ((LoopState.checkDependencies_status hmissing).trans (hobserve latest))

theorem exists_of_append_cons_eq {α : Type} {a b l r : List α} {x : α}
    (h : l ++ x :: r = a ++ b) (hx : x ∉ a) : ∃ l', l = a ++ l' ∧ b = l' ++ x :: r := by
  rcases append_eq_append_iff.mp h with ⟨l', rfl, hb⟩ | ⟨l', rfl, hb⟩
  · cases l' with
    | nil => exact ⟨[], by simp, by simpa using hb.symm⟩
    | cons y l' =>
      obtain ⟨rfl, -⟩ := List.cons.inj hb
      simp at hx
  · exact ⟨l', rfl, hb⟩

theorem getLatest_not_mem_runStep {k : ℕ} {step : TaskRunStep} {latest : Option TaskRun}
    {read : RunRead} (h : (runStep inputs index step latest s).Ends xs r) :
    (⟨.getLatest k, read⟩ : runStore.Exchange) ∉ xs := by
  intro hmem
  rcases (issues_runStep inputs index step latest s).of_mem h hmem with hplain | heq
  · exact hplain
  · cases heq

theorem runSteps_ends_cons {step : TaskRunStep} {rest : List TaskRunStep}
    (h : (runSteps inputs index (step :: rest) s).Ends xs r) :
    ∃ read ys, xs = ⟨.getLatest index, read⟩ :: ys ∧ (ys = [] ∧ read = .invalid ∨
        ∃ latest, (read = .missing ∧ latest = none ∨ ∃ run, read = .found run ∧ latest = some run) ∧
          ((∃ e, (runStep inputs index step latest s).Ends ys (.error e) ∧ r = .error e) ∨
            ∃ zs ws s₁ stopped, ys = zs ++ ws ∧
              (runStep inputs index step latest s).Ends zs (.ok (s₁, stopped)) ∧
              (stopped = none → (runSteps inputs (index + 1) rest s₁).Ends ws r) ∧
              ∀ outcome, stopped = some outcome → ws = [] ∧ r = .ok (s₁, some outcome))) := by
  obtain ⟨read, ys, rfl, h⟩ := h
  refine ⟨read, ys, rfl, ?_⟩
  have hbody : ∀ (latest : Option TaskRun)
      (next : LoopState × Option RunOutcome → RunProgram (LoopState × Option RunOutcome)),
      (∀ s₁ outcome, next (s₁, some outcome) = pure (s₁, some outcome)) →
      (∀ s₁, next (s₁, none) = runSteps inputs (index + 1) rest s₁) →
      (runStep inputs index step latest s >>= next).Ends ys r →
      ((∃ e, (runStep inputs index step latest s).Ends ys (.error e) ∧ r = .error e) ∨
        ∃ zs ws s₁ stopped, ys = zs ++ ws ∧
          (runStep inputs index step latest s).Ends zs (.ok (s₁, stopped)) ∧
          (stopped = none → (runSteps inputs (index + 1) rest s₁).Ends ws r) ∧
          ∀ outcome, stopped = some outcome → ws = [] ∧ r = .ok (s₁, some outcome)) := by
    intro latest next hstopped hnext hends
    rcases Program.ends_bind.mp hends with ⟨zs, ws, ⟨s₁, stopped⟩, rfl, hstep, hrest⟩ | herror
    · refine .inr ⟨zs, ws, s₁, stopped, rfl, hstep, ?_, ?_⟩
      · rintro rfl
        rwa [hnext] at hrest
      · rintro outcome rfl
        rwa [hstopped] at hrest
    · exact .inl herror
  cases read with
  | missing =>
    refine .inr ⟨none, .inl ⟨rfl, rfl⟩, hbody none _ ?_ ?_ h⟩
    · exact fun _ _ => rfl
    · exact fun _ => rfl
  | invalid => exact .inl ⟨h.1, rfl⟩
  | found run =>
    refine .inr ⟨some run, .inr ⟨run, rfl, rfl⟩, hbody (some run) _ ?_ ?_ h⟩
    · exact fun _ _ => rfl
    · exact fun _ => rfl

variable {before after : List runStore.Exchange} {run : TaskRun}

/-- Once the loop finds the request, it only records that the step is cancelled
and stops; the steps it has executed come before. -/
theorem runSteps_ends_of_request {k : ℕ} {rest : List TaskRunStep}
    (h : (runSteps inputs index rest s).Ends (before ++ ⟨.getLatest k, .found latest⟩ :: after) r)
    (hrequest : latest.cancellationRequested = true) :
    index ≤ k ∧ (∀ j u, ⟨.executeStep j, u⟩ ∈ before → j < k) ∧
      (∃ e id, after = [⟨.appendEvent e, id⟩]) ∧
      ∃ s', r = .ok (s', some .cancelled) ∧ s'.run.status = s.run.status := by
  induction rest generalizing index s before with
  | nil => simp [runSteps] at h
  | cons step rest ih =>
    obtain ⟨read, ys, hlist, h⟩ := runSteps_ends_cons h
    cases before with
    | nil =>
      obtain ⟨hhead, rfl⟩ := List.cons.inj hlist
      cases hhead
      obtain ⟨-, ⟨⟩⟩ | ⟨latest', ⟨⟨⟩, -⟩ | ⟨run, hrun, rfl⟩, h⟩ := h
      cases hrun
      rcases h with ⟨e, hstep, -⟩ | ⟨zs, ws, s₁, stopped, rfl, hstep, -, hstop⟩
      · obtain ⟨-, s', hok, -⟩ := runStep_ends_of_request hstep hrequest
        cases hok
      · obtain ⟨⟨e, id, rfl⟩, s', hok, hstatus⟩ := runStep_ends_of_request hstep hrequest
        cases hok
        obtain ⟨rfl, rfl⟩ := hstop _ rfl
        exact ⟨le_rfl, by simp, ⟨e, id, rfl⟩, s₁, rfl, hstatus⟩
    | cons x before =>
      obtain ⟨rfl, rfl⟩ := List.cons.inj hlist
      rcases h with ⟨hnil, -⟩ | ⟨latest', -, ⟨e, hstep, -⟩ | ⟨zs, ws, s₁, stopped, hsplit, hstep,
        hnext, hstop⟩⟩
      · simp at hnil
      · exact absurd (mem_append_right _ mem_cons_self) (getLatest_not_mem_runStep hstep)
      · obtain ⟨before', rfl, rfl⟩ :=
          exists_of_append_cons_eq hsplit (getLatest_not_mem_runStep hstep)
        cases stopped with
        | some outcome =>
          have hnil := (hstop outcome rfl).1
          simp at hnil
        | none =>
          obtain ⟨hle, hbefore, hafter, s', hr, hstatus⟩ := ih (hnext rfl)
          refine ⟨by omega, ?_, hafter, s', hr,
            hstatus.trans (returns_runStep hstep.returns).status⟩
          intro j u hmem
          rw [mem_cons, mem_append] at hmem
          rcases hmem with heq | hmem | hmem
          · cases heq
          · rcases (issues_runStep inputs index step latest' s).of_mem hstep hmem with hplain | heq
            · exact hplain.elim
            · cases heq
              omega
          · exact hbefore j u hmem

def RunOp.KeepsCancelled : RunOp → Prop
  | .updateRun run => run.status = .cancelled
  | .saveResult _ result => result.status = .cancelled
  | .appendEvent _ => True
  | .getEvents => True
  | _ => False

theorem finalizeResult_keepsCancelled (inputs : LoopInputs) (run : TaskRun)
    (context : TaskRunContext) (completion : Option TaskCompletionEvaluation)
    (h : run.status = .cancelled) :
    (finalizeResult inputs run context completion).Ensures RunOp.KeepsCancelled
      fun r => ∃ run' result, r = .ok (run', result) ∧ run'.status = .cancelled := by
  refine ⟨trivial, fun counted => ⟨trivial, fun events => ⟨h, fun _ => ⟨?_, fun _ => ?_⟩⟩⟩⟩
  · change (buildResult _ _ _ _ _ _).status = .cancelled
    rw [buildResult_status]
    simp [h, TaskRunStatus.resultStatus]
  · exact ⟨_, _, rfl, h⟩

theorem recordEnd_keepsCancelled (now : String) :
    (recordEnd now .cancelled).Ensures RunOp.KeepsCancelled fun r => r = .ok () :=
  ⟨trivial, fun _ => ⟨trivial, fun _ => rfl⟩⟩

theorem recordCompletion_keepsCancelled (now : String) (completion : TaskCompletionEvaluation) :
    (recordCompletion now completion).Ensures RunOp.KeepsCancelled fun r => r = .ok () :=
  ⟨trivial, fun _ => ⟨trivial, fun _ => ⟨trivial, fun _ => ⟨trivial, fun _ =>
    ⟨trivial, fun _ => rfl⟩⟩⟩⟩⟩

theorem closeRun_keepsCancelled (inputs : LoopInputs) (s : LoopState) (run : TaskRun)
    (h : run.status = .cancelled) :
    (closeRun inputs s .cancelled run).Ensures RunOp.KeepsCancelled
      fun r => ∃ ret, r = .ok ret ∧ ret.run.status = .cancelled := by
  have hterminal : s.terminal inputs .cancelled = .cancelled := by
    simp [LoopState.terminal, finalOutcome]
  rw [closeRun, hterminal]
  refine (recordEnd_keepsCancelled _).bind (fun _ _ => ⟨h, fun _ => ?_⟩) ?_
  · refine (finalizeResult_keepsCancelled inputs { run with currentStepId := none } _ _ h).bind
      ?_ ?_
    · rintro ⟨run', result⟩ ⟨run'', result', heq, hstatus⟩
      cases heq
      exact ⟨_, rfl, hstatus⟩
    · rintro e ⟨run', result', heq, -⟩
      cases heq
  · intro e heq
    cases heq

/-- The end of a loop that was stopped by the request: the run is written as
cancelled, and nothing after that writes anything else. -/
theorem finishRun_ends_of_request {r : Except String LoopReturn}
    (hstatus : s.run.status = .running) (h : (finishRun inputs s .cancelled).Ends xs r) :
    (∀ x ∈ xs, RunOp.KeepsCancelled x.1) ∧ (∃ run u, ⟨.updateRun run, u⟩ ∈ xs) ∧
      ∃ ret, r = .ok ret ∧ ret.run.status = .cancelled := by
  have hterminal : s.terminal inputs .cancelled = .cancelled := by
    simp [LoopState.terminal, finalOutcome]
  have htransition : (s.run.closed .cancelled).transition inputs.clock.now .cancelled =
      .ok ((s.run.closed .cancelled).moved inputs.clock.now .cancelled) :=
    TaskRun.transition_of_mem (by simp [TaskRun.closed, hstatus, TaskRunStatus.targets])
      (by simp [TaskRun.closed, hstatus])
  simp only [finishRun, hterminal, RunOutcome.status, htransition, RunProgram.ofExcept,
    Program.pure_eq_done, Program.done_bind] at h
  rcases Program.ends_bind.mp h with ⟨ys, zs, u, rfl, hcompletion, hclose⟩ | ⟨e, herror, -⟩
  · obtain ⟨-, hys⟩ := (recordCompletion_keepsCancelled _ _).of_ends hcompletion
    obtain ⟨hret, hzs⟩ := (closeRun_keepsCancelled inputs s _ rfl).of_ends hclose
    refine ⟨?_, ?_, hret⟩
    · intro x hx
      rcases mem_append.mp hx with hx | hx
      · exact hys x hx
      · exact hzs x hx
    · rcases Program.ends_bind.mp hclose with ⟨vs, ws, u', rfl, -, hwrite⟩ | ⟨e, herror, -⟩
      · obtain ⟨u'', ts, rfl, -⟩ := hwrite
        exact ⟨_, u'', by simp⟩
      · rw [hterminal] at herror
        cases ((recordEnd_keepsCancelled _).of_ends herror).1
  · cases ((recordCompletion_keepsCancelled _ _).of_ends herror).1

theorem not_plain_getLatest {k : ℕ} {read : RunRead} :
    ¬RunOp.IsPlain (⟨.getLatest k, read⟩ : runStore.Exchange).1 := id

theorem not_plain_executeStep {j : ℕ} {u : Unit} :
    ¬RunOp.IsPlain (⟨.executeStep j, u⟩ : runStore.Exchange).1 := id

theorem not_mem_of_plain {α : Type} {p : RunProgram α} {r : Except String α}
    {x : runStore.Exchange} (hp : p.Issues RunOp.IsPlain) (h : p.Ends xs r)
    (hx : ¬RunOp.IsPlain x.1) : x ∉ xs :=
  fun hmem => hx (hp.of_mem h hmem)

theorem startRun_status {run' : TaskRun} (h : (startRun inputs run).Returns run') :
    run'.status = .running := by
  simp only [startRun, Program.returns_bind, Program.pure_eq_done, Program.returns_done,
    returns_createEvent, returns_updateRun, returns_ofExcept, returns_recordApproval, true_and,
    exists_const] at h
  obtain ⟨run₁, -, run₂, hrun₂, rfl⟩ := h
  exact (TaskRun.transition_frame hrun₂).1

/-- A call of the loop that finds the request before a step executes none from
there on, writes the run as cancelled, and returns it so. -/
theorem superviseRun_ends_of_request {start : TaskRun} {k : ℕ} {r : Except String LoopReturn}
    (h : (superviseRun inputs start).Ends (before ++ ⟨.getLatest k, .found latest⟩ :: after) r)
    (hrequest : latest.cancellationRequested = true) :
    (∀ j u, ⟨.executeStep j, u⟩ ∈ before → j < k) ∧
      (∀ x ∈ after, RunOp.KeepsCancelled x.1) ∧ (∃ run u, ⟨.updateRun run, u⟩ ∈ after) ∧
      ∃ ret, r = .ok ret ∧ ret.run.status = .cancelled := by
  rw [superviseRun] at h
  obtain ⟨ys, before, existing, rfl, hresult, h⟩ :=
    (plain_getResult _ _).ends_bind not_plain_getLatest h
  split at h
  · simp at h
  · obtain ⟨ys', before, events, rfl, hevents, h⟩ := plain_getEvents.ends_bind not_plain_getLatest h
    dsimp only at h
    split at h
    · exact absurd (mem_append_right _ mem_cons_self)
        (not_mem_of_plain (plain_blockBeforeStart ..) h not_plain_getLatest)
    · split at h
      · exact absurd (mem_append_right _ mem_cons_self)
          (not_mem_of_plain (plain_blockBeforeStart ..) h not_plain_getLatest)
      · obtain ⟨ys'', before, run, rfl, hstart, h⟩ :=
          (plain_startRun _ _).ends_bind not_plain_getLatest h
        rcases Program.Issues.ends_bind_left (A := RunOp.IsPlain)
          (fun x => plain_finishRun inputs x.1 _) not_plain_getLatest h with
          ⟨after', rest, ⟨s, stopped⟩, rfl, hsteps, hfinish⟩ | ⟨e, hsteps, -⟩
        · obtain ⟨-, hbefore, ⟨e, id, rfl⟩, s', hok, hstatus⟩ :=
            runSteps_ends_of_request hsteps hrequest
          cases hok
          have hrunning : s.run.status = .running := hstatus.trans (startRun_status hstart.returns)
          obtain ⟨hkeeps, ⟨run', u, hwrite⟩, hret⟩ := finishRun_ends_of_request hrunning hfinish
          refine ⟨?_, ?_, ⟨run', u, by simp [hwrite]⟩, hret⟩
          · intro j u hmem
            simp only [mem_append] at hmem
            rcases hmem with hmem | hmem | hmem | hmem
            · exact absurd hmem
                (not_mem_of_plain (plain_getResult _ _) hresult not_plain_executeStep)
            · exact absurd hmem (not_mem_of_plain plain_getEvents hevents not_plain_executeStep)
            · exact absurd hmem
                (not_mem_of_plain (plain_startRun _ _) hstart not_plain_executeStep)
            · exact hbefore j u hmem
          · intro x hx
            simp only [mem_append, mem_singleton] at hx
            rcases hx with rfl | hx
            · trivial
            · exact hkeeps x hx
        · obtain ⟨-, -, -, s', hok, -⟩ := runSteps_ends_of_request hsteps hrequest
          cases hok

theorem supervisedRun_ends_of_request {k : ℕ} {r : Except String LoopReturn}
    (h : (supervisedRun inputs).Ends (before ++ ⟨.getLatest k, .found latest⟩ :: after) r)
    (hrequest : latest.cancellationRequested = true) :
    (∀ j u, ⟨.executeStep j, u⟩ ∈ before → j < k) ∧
      (∀ x ∈ after, RunOp.KeepsCancelled x.1) ∧ (∃ run u, ⟨.updateRun run, u⟩ ∈ after) ∧
      ∃ ret, r = .ok ret ∧ ret.run.status = .cancelled := by
  obtain ⟨read, ys, hlist, h⟩ := h
  cases before with
  | nil =>
    obtain ⟨hhead, -⟩ := List.cons.inj hlist
    cases hhead
  | cons x before =>
    obtain ⟨rfl, rfl⟩ := List.cons.inj hlist
    cases read with
    | missing | invalid => exact absurd h.1 (by simp)
    | found start =>
      obtain ⟨hbefore, hafter⟩ := superviseRun_ends_of_request h hrequest
      refine ⟨fun j u hmem => ?_, hafter⟩
      rcases mem_cons.mp hmem with heq | hmem
      · cases heq
      · exact hbefore j u hmem

/-- The operations that do not write a run as it is given. -/
def RunOp.NoUpdate : RunOp → Prop
  | .updateRun _ => False
  | _ => True

theorem getRun_ends {notFound : String} (h : (RunProgram.getRun notFound).Ends xs (.ok run)) :
    xs = [⟨.getRun, .found run⟩] := by
  obtain ⟨read, ys, rfl, h⟩ := h
  cases read with
  | missing | invalid => cases h.2
  | found stored =>
    obtain ⟨rfl, heq⟩ := h
    cases heq
    rfl

theorem noUpdate_getRun (notFound : String) :
    (RunProgram.getRun notFound).Issues RunOp.NoUpdate := by
  refine ⟨trivial, fun read => ?_⟩
  cases read <;> trivial

theorem noUpdate_createEvent (now type status message : String)
    (metadata : List (String × Json)) :
    (createEvent now type status message metadata).Issues RunOp.NoUpdate :=
  ⟨trivial, fun _ => trivial⟩

theorem not_noUpdate {u : Unit} : ¬RunOp.NoUpdate (⟨.updateRun run, u⟩ : runStore.Exchange).1 := id

theorem updateRun_ends {α : Type} {run' : TaskRun} {a : α} {u : Unit} {r : Except String α}
    (h : (RunProgram.updateRun run' >>= fun _ => pure a).Ends
      (before ++ ⟨.updateRun run, u⟩ :: after) r) : after = [] ∧ run = run' := by
  obtain ⟨u', xs, hlist, h⟩ := h
  cases before with
  | nil =>
    obtain ⟨hhead, rfl⟩ := List.cons.inj hlist
    cases hhead
    exact ⟨h.1, rfl⟩
  | cons x before =>
    obtain ⟨-, rfl⟩ := List.cons.inj hlist
    exact absurd h.1 (by simp)

theorem TaskRun.transition_cancelled {now : String} (h : run.status.cancelsAtOnce = true) :
    run.transition now .cancelled = .ok (run.moved now .cancelled) := by
  refine TaskRun.transition_of_mem ?_ ?_ <;>
    cases hstatus : run.status <;> simp_all [TaskRunStatus.cancelsAtOnce, TaskRunStatus.targets]

theorem cancel_ends_updateRun {now reason : String} {u : Unit}
    {r : Except String TaskCancellationResult}
    (h : (cancel now reason).Ends (before ++ ⟨.updateRun run, u⟩ :: after) r) :
    after = [] ∧ run.cancellationRequested = true ∧
      ∃ stored, ⟨.getRun, .found stored⟩ ∈ before ∧ run.isValid = stored.isValid := by
  obtain ⟨ys, zs, stored, rfl, hread, h⟩ := (noUpdate_getRun _).ends_bind not_noUpdate h
  rw [getRun_ends hread]
  split at h
  · exact absurd h.1 (by simp)
  · obtain ⟨_, zs, _, rfl, -, h⟩ := (noUpdate_createEvent ..).ends_bind not_noUpdate h
    split at h
    · rename_i honce
      rw [TaskRun.transition_cancelled honce] at h
      obtain ⟨_, zs, _, rfl, -, h⟩ := (noUpdate_createEvent ..).ends_bind not_noUpdate h
      obtain ⟨rfl, rfl⟩ := updateRun_ends h
      exact ⟨rfl, rfl, stored, by simp, rfl⟩
    · obtain ⟨rfl, rfl⟩ := updateRun_ends h
      exact ⟨rfl, rfl, stored, by simp, rfl⟩

section Files

variable (codec : Codec) (runId : String)

/-- What the operations of a trace make of the files. -/
def filesAfter {ι : Type} (tr : List (ι × runStore.Exchange)) (files : RunFiles) : RunFiles :=
  tr.foldl (fun files x => (runHandler codec runId x.2.1 files).2) files

theorem run_of_not_writesRun {o : RunOp} (h : o.writesRun = false) (files : RunFiles) :
    (runHandler codec runId o files).2.run = files.run := by
  cases o with
  | updateRun | saveResult | cohereTerminalResult => cases h
  | ignoreTerminalization status reasonCode timestamp =>
    simp only [runHandler, RunFiles.ignoreTerminalization]
    split <;> rfl
  | _ => rfl

theorem filesAfter_run {ι : Type} {tr : List (ι × runStore.Exchange)}
    (h : ∀ x ∈ tr, RunOp.writesRun x.2.1 = false) (files : RunFiles) :
    (filesAfter codec runId tr files).run = files.run := by
  induction tr generalizing files with
  | nil => rfl
  | cons x tr ih =>
    have htail := ih (fun y hy => h y (mem_cons_of_mem _ hy)) (runHandler codec runId x.2.1 files).2
    exact htail.trans (run_of_not_writesRun codec runId (h x mem_cons_self) files)

def RunFiles.IsCancelled (files : RunFiles) : Prop :=
  ∃ run, files.run = some run ∧ run.status = .cancelled

variable {files : RunFiles}

theorem isCancelled_of_keepsCancelled {o : RunOp} (h : o.KeepsCancelled)
    (hfiles : files.IsCancelled ∨ ∃ run, o = .updateRun run) :
    (runHandler codec runId o files).2.IsCancelled := by
  cases o with
  | updateRun run => exact ⟨_, rfl, h⟩
  | saveResult now result =>
    obtain ⟨run, hrun, hstatus⟩ : files.IsCancelled := by simpa using hfiles
    simp only [runHandler, RunFiles.saveResult, RunFiles.cohereTerminalResult, hrun]
    split
    · exact ⟨run, rfl, hstatus⟩
    · refine ⟨_, rfl, ?_⟩
      change result.status.runStatus = .cancelled
      rw [show result.status = .cancelled from h]
      rfl
  | appendEvent e =>
    obtain ⟨run, hrun, hstatus⟩ : files.IsCancelled := by simpa using hfiles
    exact ⟨run, hrun, hstatus⟩
  | getEvents => simpa [runHandler] using hfiles
  | _ => cases h

theorem filesAfter_isCancelled {ι : Type} {tr : List (ι × runStore.Exchange)}
    (h : ∀ x ∈ tr, RunOp.KeepsCancelled x.2.1)
    (hfiles : files.IsCancelled ∨ ∃ x ∈ tr, ∃ run, x.2.1 = RunOp.updateRun run) :
    (filesAfter codec runId tr files).IsCancelled := by
  induction tr generalizing files with
  | nil => simpa [filesAfter] using hfiles
  | cons x tr ih =>
    have hx := h x mem_cons_self
    refine ih (fun y hy => h y (mem_cons_of_mem _ hy)) ?_
    rcases hfiles with hfiles | ⟨y, hy, run, hrun⟩
    · exact .inl (isCancelled_of_keepsCancelled codec runId hx (.inl hfiles))
    · rcases mem_cons.mp hy with rfl | hy
      · exact .inl (isCancelled_of_keepsCancelled codec runId hx (.inr ⟨run, hrun⟩))
      · exact .inr ⟨y, hy, run, hrun⟩

theorem RunFiles.isValid_of_getRun {run : TaskRun} (h : files.getRun = .found run) :
    run.isValid = true := by
  simp only [RunFiles.getRun, RunRead.ofRun] at h
  split at h
  · cases h
  · split at h
    · cases h
      assumption
    · cases h

theorem RunFiles.getRun_stored {codec : Codec} {run : TaskRun}
    (hrun : files.run = some (run.stored codec)) (hvalid : run.isValid = true)
    (hrequest : run.cancellationRequested = true) :
    ∃ latest, files.getRun = .found latest ∧ latest.cancellationRequested = true := by
  refine ⟨(run.stored codec).hydrated files.payloads, ?_, hrequest⟩
  simp [RunFiles.getRun, hrun, RunRead.ofRun, hvalid]

end Files

def RunOp.isCheck : RunOp → Bool
  | .getLatest _ => true
  | _ => false

def isFlagCheck (x : Party × runStore.Exchange) : Bool := x.1 = .loop && RunOp.isCheck x.2.1

theorem RunOp.exists_of_isCheck {o : RunOp} (h : o.isCheck = true) : ∃ k, o = .getLatest k := by
  cases o with
  | getLatest k => exact ⟨k, rfl⟩
  | _ => cases h

/-- The loop writes the run only after it has looked at the flag. -/
def NoStaleWrite (tr : List (Party × runStore.Exchange)) : Prop :=
  ∀ before x after, tr = before ++ x :: after → x.1 = .loop → RunOp.writesRun x.2.1 = true →
    ∃ y ∈ before, isFlagCheck y = true

theorem exists_first_check (tr : List (Party × runStore.Exchange))
    {x : Party × runStore.Exchange} (hx : x ∈ tr) (hcheck : isFlagCheck x = true) :
    ∃ before k read after, tr = before ++ (.loop, ⟨.getLatest k, read⟩) :: after ∧
      ∀ y ∈ before, isFlagCheck y = false := by
  cases hfind : tr.find? isFlagCheck with
  | none =>
    have hnone := find?_eq_none.mp hfind x hx
    exact absurd hcheck hnone
  | some y =>
    obtain ⟨hy, before, after, rfl, hbefore⟩ := find?_eq_some_iff_append.mp hfind
    obtain ⟨party, o, read⟩ := y
    simp only [isFlagCheck, Bool.and_eq_true, decide_eq_true_eq] at hy
    obtain ⟨rfl, ho⟩ := hy
    obtain ⟨k, rfl⟩ := RunOp.exists_of_isCheck ho
    exact ⟨before, k, read, after, rfl, fun z hz => by simpa using hbefore z hz⟩

theorem NoStaleWrite.of_first {before after : List (Party × runStore.Exchange)}
    (h : NoStaleWrite (before ++ after)) (hbefore : ∀ y ∈ before, isFlagCheck y = false) :
    ∀ x ∈ before, x.1 = .loop → RunOp.writesRun x.2.1 = false := by
  intro x hx hloop
  by_contra hwrites
  obtain ⟨l, l', rfl⟩ := append_of_mem hx
  obtain ⟨y, hy, hcheck⟩ := h l x (l' ++ after) (by simp) hloop (by simpa using hwrites)
  rw [hbefore y (mem_append_left _ hy)] at hcheck
  cases hcheck

section Race

variable {codec : Codec} {runId : String} {inputs : LoopInputs} {now reason : String}
  {files : RunFiles} {c : Pool runStore RunFiles Party.Result}
  {tr₁ tr₂ tr₃ : List (Party × runStore.Exchange)} {run : TaskRun} {u : Unit} {k : ℕ}
  {read : RunRead}

/-- After the write of `cancel` only the loop moves, and what was written is a
valid run with the request. -/
theorem canceller_after_write
    (hruns : Pool.Runs (runHandler codec runId) (race inputs now reason files)
      (tr₁ ++ (.canceller, ⟨.updateRun run, u⟩) :: tr₂) c) :
    (∀ x ∈ tr₂, x.1 = .loop) ∧ run.cancellationRequested = true ∧ run.isValid = true := by
  obtain ⟨ys, r, -, hends⟩ := hruns.exists_ends .canceller
  have hends : (cancel now reason).Ends (Pool.exchanges .canceller tr₁ ++
      ⟨.updateRun run, u⟩ :: (Pool.exchanges .canceller tr₂ ++ ys)) r := by
    simpa [Pool.exchanges_append, race] using hends
  obtain ⟨hnil, hrequest, stored, hstored, hvalid⟩ := cancel_ends_updateRun hends
  refine ⟨?_, hrequest, ?_⟩
  · rintro ⟨party, x⟩ hx
    cases party with
    | loop => rfl
    | canceller =>
      rw [append_eq_nil_iff] at hnil
      have hmem := Pool.mem_exchanges.mpr hx
      simp [hnil.1] at hmem
  · rw [hvalid]
    obtain ⟨l, l', rfl⟩ := append_of_mem (Pool.mem_exchanges.mp hstored)
    rw [append_assoc, cons_append] at hruns
    exact RunFiles.isValid_of_getRun hruns.answer_eq.symm

theorem check_finds_request
    (hruns : Pool.Runs (runHandler codec runId) (race inputs now reason files)
      (tr₁ ++ (.canceller, ⟨.updateRun run, u⟩) :: (tr₂ ++ (.loop, ⟨.getLatest k, read⟩) :: tr₃)) c)
    (hwrites : ∀ x ∈ tr₂, x.1 = .loop → RunOp.writesRun x.2.1 = false) :
    ∃ latest, read = .found latest ∧ latest.cancellationRequested = true := by
  obtain ⟨hloop, hrequest, hvalid⟩ := canceller_after_write hruns
  have hquiet : ∀ x ∈ tr₂, RunOp.writesRun x.2.1 = false :=
    fun x hx => hwrites x hx (hloop x (mem_append_left _ hx))
  have hanswer : read = (filesAfter codec runId tr₂ ((filesAfter codec runId tr₁
      files).updateRun codec run)).getRun := by
    have htrace := hruns
    rw [← cons_append, ← append_assoc] at htrace
    have hread := htrace.answer_eq
    rw [foldl_append, foldl_cons] at hread
    exact hread
  have hrun := filesAfter_run codec runId hquiet ((filesAfter codec runId tr₁
    files).updateRun codec run)
  rw [hanswer]
  exact RunFiles.getRun_stored hrun hvalid hrequest

theorem request_stops_loop {latest : TaskRun}
    (hruns : Pool.Runs (runHandler codec runId) (race inputs now reason files)
      (tr₁ ++ (.loop, ⟨.getLatest k, .found latest⟩) :: tr₂) c)
    (hrequest : latest.cancellationRequested = true) (hloop : ∀ x ∈ tr₂, x.1 = .loop)
    (hended : ∀ o k, c.threads .loop ≠ .call o k) :
    (∀ j u, (Party.loop, (⟨.executeStep j, u⟩ : runStore.Exchange)) ∈ tr₁ → j < k) ∧
      (∀ x ∈ tr₂, RunOp.KeepsCancelled x.2.1) ∧
      ∃ ret, c.threads .loop = .done ret ∧ ret.run.status = .cancelled ∧
        c.state.run.map (·.status) = some .cancelled := by
  obtain ⟨ys, r, hys, hends⟩ := hruns.exists_ends .loop
  have hends : (supervisedRun inputs).Ends (Pool.exchanges .loop tr₁ ++
      ⟨.getLatest k, .found latest⟩ :: (Pool.exchanges .loop tr₂ ++ ys)) r := by
    simpa [Pool.exchanges_append, race] using hends
  obtain ⟨hbefore, hafter, ⟨run', u', hwrite⟩, ret, rfl, hret⟩ :=
    supervisedRun_ends_of_request hends hrequest
  have hdone : ys = [] ∧ c.threads .loop = .done ret := by
    cases hthread : c.threads .loop with
    | done a =>
      rw [hthread] at hys
      obtain ⟨rfl, heq⟩ := hys
      exact ⟨rfl, by rw [Except.ok.inj heq]⟩
    | raise e =>
      rw [hthread] at hys
      cases hys.2
    | call o k => exact absurd hthread (hended o k)
  have hkeeps : ∀ x ∈ tr₂, RunOp.KeepsCancelled x.2.1 := by
    rintro ⟨party, x⟩ hx
    obtain rfl : party = .loop := hloop _ hx
    exact hafter x (mem_append_left _ (Pool.mem_exchanges.mpr hx))
  refine ⟨fun j u hmem => hbefore j u (Pool.mem_exchanges.mpr hmem), hkeeps, ret, hdone.2, hret, ?_⟩
  rw [hdone.1, append_nil] at hwrite
  have hcancelled : c.state.IsCancelled := by
    rw [hruns.state_eq, foldl_append, foldl_cons]
    exact filesAfter_isCancelled codec runId hkeeps
      (.inr ⟨_, Pool.mem_exchanges.mp hwrite, run', rfl⟩)
  obtain ⟨run'', hrun'', hstatus⟩ := hcancelled
  simp [hrun'', hstatus]

end Race

/-- No lost cancellation: whatever the plan, and however a call of `cancel` is
interleaved with the loop, if `cancel` writes the request before the check of
the flag at step `i`, and the loop does not write the run before it has looked
at the flag again, then no step from `i` on is executed, and the run ends as
cancelled. -/
theorem cancellation_is_not_lost (codec : Codec) (runId : String) (inputs : LoopInputs)
    (now reason : String) (files : RunFiles) (c : Pool runStore RunFiles Party.Result)
    (tr₁ tr₂ tr₃ : List (Party × runStore.Exchange)) (run : TaskRun) (u : Unit) (i : ℕ)
    (read : RunRead)
    (hruns : Pool.Runs (runHandler codec runId) (race inputs now reason files)
      (tr₁ ++ (.canceller, ⟨.updateRun run, u⟩) :: (tr₂ ++ (.loop, ⟨.getLatest i, read⟩) :: tr₃)) c)
    (hwrites : NoStaleWrite tr₂) (hended : ∀ o k, c.threads .loop ≠ .call o k) :
    (∀ j u', i ≤ j → (Party.loop, (⟨.executeStep j, u'⟩ : runStore.Exchange)) ∉
      tr₁ ++ (.canceller, ⟨.updateRun run, u⟩) :: (tr₂ ++ (.loop, ⟨.getLatest i, read⟩) :: tr₃)) ∧
      ∃ ret, c.threads .loop = .done ret ∧ ret.run.status = .cancelled ∧
        c.state.run.map (·.status) = some .cancelled := by
  obtain ⟨before, k, read', after, htrace, hbefore⟩ := exists_first_check
    (tr₂ ++ (.loop, ⟨.getLatest i, read⟩) :: tr₃)
    (mem_append_right _ mem_cons_self) rfl
  -- The first check after the write is at or before the check of step `i`.
  have hfirst : ∃ rest, tr₂ = before ++ rest := by
    rcases append_eq_append_iff.mp htrace with ⟨m, rfl, hm⟩ | ⟨m, rfl, -⟩
    · cases m with
      | nil => exact ⟨[], by simp⟩
      | cons y m =>
        obtain ⟨rfl, -⟩ := List.cons.inj hm
        cases hbefore _ (mem_append_right _ mem_cons_self)
    · exact ⟨m, rfl⟩
  obtain ⟨rest, rfl⟩ := hfirst
  rw [htrace] at hruns ⊢
  obtain ⟨hloop, -, -⟩ := canceller_after_write hruns
  obtain ⟨latest, rfl, hrequest⟩ := check_finds_request hruns (hwrites.of_first hbefore)
  rw [← cons_append, ← append_assoc] at hruns ⊢
  obtain ⟨hexecuted, hkeeps, hret⟩ := request_stops_loop hruns hrequest
    (fun x hx => hloop x (mem_append_right _ (mem_cons_of_mem _ hx))) hended
  refine ⟨?_, hret⟩
  -- There is no check after the one that finds the request, so it is that of `i`.
  have hindex : k = i := by
    have hmem : (Party.loop, (⟨.getLatest i, read⟩ : runStore.Exchange)) ∈
        before ++ (.loop, ⟨.getLatest k, .found latest⟩) :: after :=
      htrace ▸ mem_append_right _ mem_cons_self
    rw [mem_append, mem_cons] at hmem
    rcases hmem with hmem | hmem | hmem
    · cases hbefore _ hmem
    · cases hmem
      rfl
    · exact (hkeeps _ hmem).elim
  subst hindex
  intro j u' hle hmem
  rw [mem_append, mem_cons] at hmem
  rcases hmem with hmem | hmem | hmem
  · exact absurd (hexecuted j u' hmem) (by omega)
  · cases hmem
  · exact (hkeeps _ hmem).elim

abbrev sampleStore : Handler runStore RunFiles :=
  runHandler sampleServices.codec "task_run_1"

/-- A plan of two required steps that succeed, beside a call of `cancel`. -/
def sampleRace : Pool runStore RunFiles Party.Result :=
  race (sampleInputs fun _ => .completed) "2026-01-01T00:01:00Z" "user"
    (sampleFiles (sampleRun [sampleStep "a" true, sampleStep "b" true]))

/-- `n` moves of the loop, and two moves of `cancel`, which is then about to write. -/
def sampleOrder (n : ℕ) : List Party := List.replicate n .loop ++ List.replicate 2 .canceller

/-- `cancel` writes right before the check of the first step: no step is executed. -/
theorem cancellation_right_before_check_is_not_lost : ∃ tr₁ run u read tr₃ c,
      Pool.Runs sampleStore sampleRace (tr₁ ++ (.canceller, ⟨.updateRun run, u⟩) ::
        ([] ++ (.loop, ⟨.getLatest 0, read⟩) :: tr₃)) c ∧
      (∀ j u', 0 ≤ j → (Party.loop, (⟨.executeStep j, u'⟩ : runStore.Exchange)) ∉
        tr₁ ++ (.canceller, ⟨.updateRun run, u⟩) :: ([] ++ (.loop, ⟨.getLatest 0, read⟩) :: tr₃)) ∧
      ∃ ret, c.threads .loop = .done ret ∧ ret.run.status = .cancelled ∧
        c.state.run.map (·.status) = some .cancelled := by
  have hruns := Pool.runs_play sampleStore
    (sampleOrder 7 ++ .canceller :: ([] ++ .loop :: List.replicate 30 .loop)) sampleRace
  obtain ⟨run, k, hwrite⟩ : ∃ run k, (sampleRace.play sampleStore (sampleOrder 7)).threads
      .canceller = .call (.updateRun run) k := ⟨_, _, rfl⟩
  obtain ⟨k', hcheck⟩ : ∃ k', ((sampleRace.play sampleStore (sampleOrder 7)).play sampleStore
      [.canceller]).threads .loop = .call (.getLatest 0) k' := ⟨_, rfl⟩
  rw [Pool.trace_append, Pool.trace_cons hwrite, nil_append, Pool.trace_cons hcheck,
    ← nil_append ((Party.loop, _) :: _)] at hruns
  have hdone : ∃ ret, (sampleRace.play sampleStore (sampleOrder 7 ++ .canceller ::
    (.loop :: List.replicate 30 .loop))).threads .loop = .done ret := ⟨_, rfl⟩
  refine ⟨_, run, _, _, _, _, hruns, ?_⟩
  refine cancellation_is_not_lost _ _ _ _ _ _ _ _ _ _ _ _ _ _ hruns ?_ ?_
  · intro before x after h
    cases before <;> cases h
  · intro o k h
    obtain ⟨ret, hret⟩ := hdone
    rw [hret] at h
    cases h

/-- `cancel` writes after the check of the first step, and the loop then writes its
own copy of the run: the check of the second step does not find the request, the
step is executed and the run ends as completed. -/
theorem cancellation_overwritten_by_loop : ∃ tr₁ run u tr₂ read tr₃ c,
      Pool.Runs sampleStore sampleRace (tr₁ ++ (.canceller, ⟨.updateRun run, u⟩) ::
        (tr₂ ++ (.loop, ⟨.getLatest 1, read⟩) :: tr₃)) c ∧
      (∃ result, c.threads .canceller = .done result ∧ result.status = .running ∧
        result.cancellationRequested = true) ∧
      (∃ ret, c.threads .loop = .done ret ∧ ret.run.status = .completed) ∧
      (∃ u', (Party.loop, (⟨.executeStep 1, u'⟩ : runStore.Exchange)) ∈ tr₃) ∧
      c.state.run.map (·.status) = some .completed := by
  have hruns := Pool.runs_play sampleStore (sampleOrder 8 ++ .canceller ::
    (List.replicate 8 .loop ++ .loop :: (List.replicate 4 .loop ++
      .loop :: List.replicate 30 .loop))) sampleRace
  let c₁ := sampleRace.play sampleStore (sampleOrder 8)
  let c₂ := (c₁.play sampleStore [.canceller]).play sampleStore (List.replicate 8 .loop)
  let c₃ := (c₂.play sampleStore [.loop]).play sampleStore (List.replicate 4 .loop)
  obtain ⟨run, k, hwrite⟩ : ∃ run k, c₁.threads .canceller = .call (.updateRun run) k := ⟨_, _, rfl⟩
  obtain ⟨k', hcheck⟩ : ∃ k', c₂.threads .loop = .call (.getLatest 1) k' := ⟨_, rfl⟩
  obtain ⟨k'', hexecute⟩ : ∃ k'', c₃.threads .loop = .call (.executeStep 1) k'' := ⟨_, rfl⟩
  rw [Pool.trace_append, Pool.trace_cons hwrite, Pool.trace_append, Pool.trace_cons hcheck] at hruns
  refine ⟨_, run, _, _, _, _, _, hruns, ⟨_, rfl, rfl, rfl⟩, ⟨_, rfl, rfl⟩, ?_, rfl⟩
  rw [Pool.trace_append, Pool.trace_cons hexecute]
  exact ⟨_, mem_append_right _ mem_cons_self⟩
end AIpinho.Runtime
