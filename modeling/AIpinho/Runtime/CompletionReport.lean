import AIpinho.Runtime.LoopRuns

/-!
# When the loop reports success

The evaluation that the loop attaches to its result says whether success may be reported. The
resolver lets a cancelled run pass like a completed one, and a required step with an outcome the
loop does not know counts as done.
-/

namespace AIpinho.Runtime

open Lib

/-- The evaluation that a call of the loop attaches to its result. A call that
finds the run ended or running hands out an older result and attaches nothing. -/
def LoopReturn.evaluation (ret : LoopReturn) : Option TaskCompletionEvaluation :=
  match ret.steps with
  | none => none
  | some _ => ret.result.bind (·.completion)

/-- Success is reported only of a completed run whose required steps are done. -/
def LoopReturn.ReportsCompletedWork (ret : LoopReturn) : Prop :=
  ∀ completion, ret.evaluation = some completion →
    completion.safeToReportSuccess = true ∨ completion.status = .completed →
      ret.run.status = .completed ∧
        ∀ step ∈ ret.run.plan.steps, step.required = true →
          step.status = .completed ∨ step.status = .skipped

/-- Whether an event keeps the loop from proposing a completed run. -/
def StepEvent.lowers (required : Bool) : StepEvent → Bool
  | .guardBlocked _ => true
  | .dependencyBlocked _ => true
  | .executed outcome => required &&
      (outcome.status = .failed || outcome.status = .blocked || outcome.status = .partially)
  | _ => false

namespace LoopState

/-- Something other than a cancellation kept the run from being completed. -/
def Lowered (s : LoopState) : Prop :=
  (∃ x ∈ s.reached, x.2.lowers x.1.required = true) ∨
    s.context.limitations ≠ [] ∨ s.context.blockedItems ≠ []

/-- When the steps end, an output is missing; or no step found a request to
cancel, and the run was lowered or every required step reported that it was
completed or skipped. -/
def MayReport (inputs : LoopInputs) (s : LoopState) : Prop :=
  inputs.completion.missing inputs.services.codec s.run s.context ≠ [] ∨
    StepEvent.cancelled ∉ s.history ∧
      (s.Lowered ∨ ∀ x ∈ s.reached, x.1.required = true →
        x.2.status = .completed ∨ x.2.status = .skipped)

end LoopState

theorem StepEvent.eq_cancelled_or_lowers {event : StepEvent} {required : Bool}
    {outcome : RunOutcome} (h : event.stops? required = some outcome) :
    event = .cancelled ∧ outcome = .cancelled ∨
      event.lowers required = true ∧ (outcome = .blocked ∨ outcome = .failed) := by
  cases event with
  | cancelled => exact .inl ⟨rfl, (Option.some.inj h).symm⟩
  | guardBlocked reasons => exact .inr ⟨rfl, .inl (Option.some.inj h).symm⟩
  | dependencySkipped reasons => cases h
  | dependencyBlocked reasons => exact .inr ⟨rfl, .inl (Option.some.inj h).symm⟩
  | executed reply =>
    obtain ⟨hrequired, hstops⟩ : required = true ∧ reply.status.stops? = some outcome := by
      simpa [StepEvent.stops?] using h
    cases hstatus : reply.status <;> simp_all [StepStatus.stops?, StepEvent.lowers]

theorem StepEvent.stops_or_partial_of_lowers {event : StepEvent} {required : Bool}
    (h : event.lowers required = true) :
    event.stops? required ≠ none ∨ required = true ∧ event.status = .partially := by
  cases event with
  | cancelled => cases h
  | guardBlocked reasons => exact .inl nofun
  | dependencySkipped reasons => cases h
  | dependencyBlocked reasons => exact .inl nofun
  | executed reply =>
    cases hstatus : reply.status <;>
      simp_all [StepStatus.stops?, StepEvent.lowers, StepEvent.stops?, StepEvent.status]

variable {s : LoopState} {stopped : Option RunOutcome}

theorem proposedOutcome_cases (h : Recorded s stopped) :
    (StepEvent.cancelled ∈ s.history ∧ proposedOutcome s stopped = .cancelled) ∨
    (StepEvent.cancelled ∉ s.history ∧ s.Lowered ∧ proposedOutcome s stopped ≠ .completed ∧
      proposedOutcome s stopped ≠ .cancelled) ∨
    (StepEvent.cancelled ∉ s.history ∧ ¬s.Lowered ∧ proposedOutcome s stopped = .completed ∧
      stopped = none) := by
  cases stopped with
  | some outcome =>
    obtain ⟨x, hx, hstops⟩ := List.exists_of_findSome?_eq_some h.stops
    rcases StepEvent.eq_cancelled_or_lowers hstops with ⟨hevent, rfl⟩ | ⟨hlowers, houtcome⟩
    · left
      refine ⟨?_, rfl⟩
      rw [← hevent]
      exact (List.of_mem_zip hx).2
    · right; left
      have hne : StepEvent.cancelled ∉ s.history := by
        intro hmem
        cases h.cancelled hmem
        simp at houtcome
      refine ⟨hne, .inl ⟨x, hx, hlowers⟩, ?_⟩
      rcases houtcome with rfl | rfl <;> simp [proposedOutcome]
  | none =>
    have hne : StepEvent.cancelled ∉ s.history := fun hmem => by cases h.cancelled hmem
    have hnone : ∀ x ∈ s.reached, x.2.stops? x.1.required = none := by
      simpa using h.stops
    have hlowered : (s.sawPartial = true ∨ s.context.limitations ≠ [] ∨
        s.context.blockedItems ≠ []) ↔ s.Lowered := by
      refine or_congr ?_ Iff.rfl
      rw [h.sawPartial, List.any_eq_true]
      refine exists_congr fun x => and_congr_right fun hx => ?_
      constructor
      · intro hsaw
        have hsaw : x.1.required = true ∧ x.2.status = .partially := by simpa using hsaw
        cases hevent : x.2 <;>
          simp_all [StepEvent.lowers, StepEvent.status]
      · intro hlowers
        rcases StepEvent.stops_or_partial_of_lowers hlowers with hstops | hsaw
        · exact absurd (hnone x hx) hstops
        · simpa using hsaw
    right
    by_cases hcase : s.Lowered
    · left
      simp [hne, hcase, proposedOutcome, hlowered.mpr hcase]
    · right
      simp [hne, hcase, proposedOutcome, mt hlowered.mp hcase]

theorem LoopState.completion_reports_iff (inputs : LoopInputs) (s : LoopState)
    (proposed : RunOutcome) :
    ((s.completion inputs proposed).safeToReportSuccess = true ∨
        (s.completion inputs proposed).status = .completed) ↔
      (proposed = .completed ∨ proposed = .cancelled) ∧
        inputs.completion.missing inputs.services.codec s.run s.context = [] := by
  rw [LoopState.completion, CompletionPolicy.resolve_safe_iff, or_self,
    CompletionPolicy.resolve_status_eq_completed_iff]

theorem LoopState.terminal_eq_completed {inputs : LoopInputs}
    (h : inputs.completion.missing inputs.services.codec s.run s.context = []) :
    s.terminal inputs .completed = .completed := by
  have hstatus := (inputs.completion.resolve_status_eq_completed_iff inputs.services.codec s.run
    s.context .completed).mpr ⟨.inl rfl, h⟩
  simp [LoopState.terminal, finalOutcome, LoopState.completion, hstatus]

theorem LoopState.terminal_cancelled (inputs : LoopInputs) (s : LoopState) :
    s.terminal inputs .cancelled = .cancelled := by
  simp [LoopState.terminal, finalOutcome]

theorem Recorded.steps_iff (h : Recorded s stopped)
    (hall : s.run.plan.steps.length ≤ s.history.length) :
    (∀ step ∈ s.run.plan.steps, step.required = true →
        step.status = .completed ∨ step.status = .skipped) ↔
      ∀ x ∈ s.reached, x.1.required = true → x.2.status = .completed ∨ x.2.status = .skipped := by
  constructor
  · intro hsteps x hx
    rw [← h.statuses x hx]
    exact hsteps x.1 (List.of_mem_zip hx).1
  · intro hreached step hstep
    have hmem : step ∈ s.reached.map Prod.fst := by
      rwa [LoopState.reached, List.map_fst_zip hall]
    obtain ⟨x, hx, rfl⟩ := List.mem_map.mp hmem
    rw [h.statuses x hx]
    exact hreached x hx

theorem FinishedFrom.reports_iff {inputs : LoopInputs} {ret : LoopReturn}
    (hret : FinishedFrom inputs s (proposedOutcome s stopped) ret) (h : Recorded s stopped)
    (hall : stopped = none → s.run.plan.steps.length ≤ s.history.length) :
    ret.ReportsCompletedWork ↔ s.MayReport inputs := by
  obtain ⟨result, hresult, hcompletion⟩ := hret.result
  have hevaluation : ret.evaluation = some (s.completion inputs (proposedOutcome s stopped)) := by
    simp [LoopReturn.evaluation, hret.steps, hresult, hcompletion]
  simp only [LoopReturn.ReportsCompletedWork, hevaluation, Option.some.injEq, forall_eq',
    LoopState.completion_reports_iff, hret.status, hret.plan, LoopState.MayReport]
  rcases proposedOutcome_cases h with ⟨hmem, hproposed⟩ |
    ⟨hmem, hlowered, hcompleted, hcancelled⟩ | ⟨hmem, hlowered, hproposed, hnone⟩
  · -- A cancelled run is reported as a success as soon as nothing is missing.
    simp [hproposed, LoopState.terminal_cancelled, RunOutcome.status, hmem]
  · simp [hcompleted, hcancelled, hmem, hlowered]
  · rw [hproposed]
    by_cases hmissing : inputs.completion.missing inputs.services.codec s.run s.context = []
    · simp [LoopState.terminal_eq_completed hmissing, RunOutcome.status, hmissing, hmem,
        hlowered, h.steps_iff (hall hnone)]
    · simp [hmissing]

theorem recorded_nil (run : TaskRun) (context : TaskRunContext) :
    Recorded ⟨run, context, false, []⟩ none where
  statuses := by simp [LoopState.reached]
  sawPartial := by simp [LoopState.reached]
  stops := by simp [LoopState.reached]
  cancelled := by simp

/-- Whatever the store answers, and so under every interleaving, a call of the
loop reports success only for completed work exactly if it may report. -/
theorem success_reported_only_for_completed_work (inputs : LoopInputs)
    (xs : List runStore.Exchange) (ret : LoopReturn)
    (h : (supervisedRun inputs).Ends xs (.ok ret)) :
    ret.ReportsCompletedWork ↔
      ∀ s proposed, ret.steps = some (s, proposed) → s.MayReport inputs := by
  obtain ⟨start, ys, -, hends⟩ := supervisedRun_ends h
  have hnothing : ret.steps = none → (ret.ReportsCompletedWork ↔
      ∀ s proposed, ret.steps = some (s, proposed) → s.MayReport inputs) := by
    intro hsteps
    simp [LoopReturn.ReportsCompletedWork, LoopReturn.evaluation, hsteps]
  cases returns_superviseRun hends.returns with
  | idle _ _ hsteps => exact hnothing hsteps
  | refused _ _ _ _ _ hsteps => exact hnothing hsteps
  | ran run s stopped hplan _ _ hloop hfinished =>
    obtain ⟨hrecorded, hall⟩ := hloop.recorded rfl (by simp [hplan])
      (recorded_nil run (inputs.buildContext run))
    rw [hfinished.reports_iff hrecorded hall, hfinished.steps]
    simp

/-- A plan of one required step that is completed: the report is right. -/
theorem success_reported_for_completed_step :
    ∃ xs ret, (supervisedRun (sampleInputs fun _ => .completed)).Ends xs (.ok ret) ∧
      ret.run.status = .completed ∧ ret.ReportsCompletedWork := by
  have hrun : ((supervisedRun (sampleInputs fun _ => .completed)).run
      (runHandler sampleServices.codec "task_run_1")
      (sampleFiles (sampleRun [sampleStep "step_1" true]))).1.toOption.any (fun ret =>
        ret.run.status = .completed && ret.steps.any fun x =>
          x.1.history.all fun event => event.status = .completed) = true := by decide
  obtain ⟨xs, ret, hends, hstatus⟩ := Program.exists_ends_of_run hrun
  simp only [Bool.and_eq_true, decide_eq_true_eq] at hstatus
  refine ⟨xs, ret, hends, hstatus.1,
    (success_reported_only_for_completed_work _ xs ret hends).mpr ?_⟩
  intro s proposed hsteps
  have hhistory : ∀ event ∈ s.history, event.status = .completed := by
    simpa [hsteps] using hstatus.2
  refine .inr ⟨fun hmem => ?_, .inr fun x hx _ => .inl ?_⟩
  · cases hhistory _ hmem
  · exact hhistory _ (List.of_mem_zip hx).2

/-- A run that is cancelled before its only step: the loop ends it as cancelled,
and the evaluation it attaches is that of a completed run. -/
theorem cancelled_run_reported_as_success :
    ∃ tr c ret, Pool.Runs (runHandler sampleServices.codec "task_run_1")
        (race (sampleInputs fun _ => .completed) "2026-01-01T00:00:30Z" "user"
          (sampleFiles (sampleRun [sampleStep "step_1" true]))) tr c ∧
      c.threads .loop = .done ret ∧ ret.run.status = .cancelled ∧
      ¬ret.ReportsCompletedWork := by
  let start := race (sampleInputs fun _ => .completed) "2026-01-01T00:00:30Z" "user"
    (sampleFiles (sampleRun [sampleStep "step_1" true]))
  let order := List.replicate 7 Party.loop ++ List.replicate 3 .canceller ++ List.replicate 30 .loop
  have htr := Pool.runs_play (runHandler sampleServices.codec "task_run_1") order start
  have hresult : ((start.play (runHandler sampleServices.codec "task_run_1") order).result?
      .loop).any (fun ret => ret.run.status = .cancelled &&
        ret.evaluation.any (·.safeToReportSuccess)) = true := by decide
  obtain ⟨ret, hret, hstatus⟩ := Option.any_eq_true .. |>.mp hresult
  simp only [Bool.and_eq_true, decide_eq_true_eq] at hstatus
  obtain ⟨completion, hcompletion, hsafe⟩ := Option.any_eq_true .. |>.mp hstatus.2
  refine ⟨_, _, ret, htr, Pool.threads_of_result? hret, hstatus.1, fun hreport => ?_⟩
  have hcompleted := (hreport completion hcompletion (.inl hsafe)).1
  rw [hstatus.1] at hcompleted
  cases hcompleted

end AIpinho.Runtime
