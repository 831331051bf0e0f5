import AIpinho.Runtime.CompletionReport
import AIpinho.Runtime.MirroredViews

/-!
# When the three views agree

The steps, the graph and the workflow of a run disagree where the loop updates only some of
them: a step that the guard stops, a missing dependency of a required step, a cancellation, and
outcomes that a node or a phase has no status for.
-/

namespace AIpinho.Runtime

open List Lib

def NodeStatus.stepStatus : NodeStatus → StepStatus
  | .pending => .pending
  | .running => .running
  | .completed => .completed
  | .partially => .partially
  | .blocked => .blocked
  | .failed => .failed
  | .cancelled => .cancelled
  | .skipped => .skipped
  | status => .other status.text

def PhaseStatus.stepStatus : PhaseStatus → StepStatus
  | .pending => .pending
  | .running => .running
  | .completed => .completed
  | .partially => .partially
  | .blocked => .blocked
  | .failed => .failed
  | .cancelled => .cancelled
  | .skipped => .skipped

def TaskRun.nodeOf (run : TaskRun) (stepId : String) : Option ExecutionNode :=
  run.executionGraph.bind fun g => g.nodes.find? (ExecutionGraph.isNodeOf stepId)

def TaskRun.phaseOf (run : TaskRun) (stepId : String) : Option WorkflowPhase :=
  run.workflow.bind (·.phaseForStep stepId)

def LoopReturn.reached (ret : LoopReturn) : List (TaskRunStep × StepEvent) :=
  match ret.steps with
  | none => []
  | some (s, _) => ret.run.plan.steps.zip s.history

/-- The three views of a run agree when the loop returns. -/
structure LoopReturn.ViewsAgree (ret : LoopReturn) : Prop where
  steps : ∀ x ∈ ret.reached,
    (ret.run.nodeOf x.1.stepId).map (·.status.stepStatus) = some x.1.status ∧
      (ret.run.phaseOf x.1.stepId).map (·.status.stepStatus) = some x.1.status
  succeeded : ret.run.status = .completed ∨ ret.run.status = .partially →
    ret.run.executionGraph.map (·.status) = some .completed ∧
      ret.run.workflow.map (·.status) = some .completed
  /-- A run that did not has neither under way nor completed. -/
  ended : ret.run.status = .blocked ∨ ret.run.status = .failed ∨ ret.run.status = .cancelled →
    (∀ g, ret.run.executionGraph = some g →
        g.status ≠ .ready ∧ g.status ≠ .running ∧ g.status ≠ .created ∧ g.status ≠ .completed) ∧
      ∀ w, ret.run.workflow = some w →
        w.status ≠ .running ∧ w.status ≠ .created ∧ w.status ≠ .completed

def StepEvent.isMirrored : StepEvent → Bool
  | .dependencySkipped _ => true
  | .executed outcome =>
    outcome.status = .failed || outcome.status = .blocked ||
      outcome.status.successPhase?.isSome && outcome.violations.isEmpty
  | _ => false

/-- Whether a step ended without success. -/
def StepEvent.isFailure (event : StepEvent) : Bool :=
  event.status = .failed || event.status = .blocked

/-- A step was reached, what happened at every step that was reached is
mirrored, and a required step failed if any did. -/
def LoopState.Agreeing (s : LoopState) : Prop :=
  s.reached ≠ [] ∧ (∀ x ∈ s.reached, x.2.isMirrored = true) ∧
    ((∃ x ∈ s.reached, x.1.required = true ∧ x.2.isFailure = true) ∨
      ∀ x ∈ s.reached, x.2.isFailure = false)

def NodeStatus.closed (terminal : RunOutcome) (status : NodeStatus) : NodeStatus :=
  if terminal = .cancelled ∧ (status = .pending ∨ status = .ready ∨ status = .running) then
    .cancelled
  else status

theorem nodeStatus_closed (terminal : RunOutcome) (status : StepStatus) :
    status.nodeStatus.closed terminal = status.nodeStatus := by
  cases status <;> simp [StepStatus.nodeStatus, NodeStatus.closed]

theorem StepEvent.isMirrored_iff {event : StepEvent} {node : ExecutionNode}
    {phase : WorkflowPhase} (terminal : RunOutcome) (hnode : nodeView (some event) node)
    (hphase : phaseView (some event) phase) :
    ((node.status.closed terminal).stepStatus = event.status ∧
        phase.status.stepStatus = event.status) ↔ event.isMirrored = true := by
  cases event with
  | cancelled =>
    simp only [phaseView] at hphase
    simp [hphase, PhaseStatus.stepStatus, StepEvent.status, StepEvent.isMirrored]
  | guardBlocked reasons =>
    simp only [phaseView] at hphase
    simp [hphase, PhaseStatus.stepStatus, StepEvent.status, StepEvent.isMirrored]
  | dependencySkipped reasons =>
    simp only [phaseView, nodeView] at hphase hnode
    simp [hphase, hnode, NodeStatus.closed, NodeStatus.stepStatus, PhaseStatus.stepStatus,
      StepEvent.status, StepEvent.isMirrored]
  | dependencyBlocked reasons =>
    simp only [nodeView] at hnode
    by_cases hterminal : terminal = .cancelled <;> rcases hnode with hnode | hnode <;>
      simp [hnode, hterminal, NodeStatus.closed, NodeStatus.stepStatus, StepEvent.status,
        StepEvent.isMirrored]
  | executed outcome =>
    simp only [phaseView, nodeView] at hphase hnode
    rw [hphase, hnode, nodeStatus_closed]
    cases hstatus : outcome.status <;> cases hviolations : outcome.violations <;>
      simp [hstatus, hviolations, StepStatus.nodeStatus, NodeStatus.stepStatus,
        PhaseStatus.stepStatus, StepEvent.status, StepEvent.isMirrored,
        WorkflowRuntimeInstance.finishedStatus, StepStatus.successPhase?]

theorem GraphShows.exists_node {ids : List String} {history : List StepEvent}
    {g : ExecutionGraph} (h : GraphShows ids history g) (hnodup : ids.Nodup) {i : ℕ}
    {stepId : String} {event : StepEvent} (hid : ids[i]? = some stepId)
    (hevent : history[i]? = some event) :
    ∃ node, g.nodes[i]? = some node ∧
      g.nodes.find? (ExecutionGraph.isNodeOf stepId) = some node ∧ nodeView (some event) node := by
  have hkey : (g.nodes.map (·.stepId))[i]? = some (some stepId) := by
    simp [h.ids, hid]
  have hdistinct : (g.nodes.map (·.stepId)).Nodup := by
    rw [h.ids]
    exact hnodup.map (Option.some_injective _)
  rw [getElem?_map] at hkey
  obtain ⟨node, hnode, hstepId⟩ := Option.map_eq_some_iff.mp hkey
  refine ⟨node, hnode, ?_, ?_⟩
  · rw [← hnode]
    exact find?_eq_getElem? hdistinct (by simp [hnode, hstepId])
  · have hview := h.nodes i node hnode
    rwa [hevent] at hview

theorem WorkflowShows.exists_phase {ids : List String} {required : List Bool}
    {history : List StepEvent} {w : WorkflowRuntimeInstance}
    (h : WorkflowShows ids required history w) (hnodup : ids.Nodup) {i : ℕ} {stepId : String}
    {r : Bool} {event : StepEvent} (hid : ids[i]? = some stepId)
    (hrequired : required[i]? = some r) (hevent : history[i]? = some event) :
    ∃ phase, w.phases[i]? = some phase ∧ w.phaseForStep stepId = some phase ∧
      phase.required = r ∧ phaseView (some event) phase := by
  have hkey : (w.phases.map (·.sourceStepId))[i]? = some stepId := by
    simp [h.ids, hid]
  have hdistinct : (w.phases.map (·.sourceStepId)).Nodup := h.ids ▸ hnodup
  have hfind := find?_eq_getElem? hdistinct hkey
  rw [getElem?_map] at hkey
  obtain ⟨phase, hphase, hstepId⟩ := Option.map_eq_some_iff.mp hkey
  refine ⟨phase, hphase, hfind.trans hphase, ?_, ?_⟩
  · rw [← h.required, getElem?_map, hphase] at hrequired
    exact Option.some.inj hrequired
  · have hview := h.phases i phase hphase
    rwa [hevent] at hview

theorem LoopState.exists_index {s : LoopState} {x : TaskRunStep × StepEvent}
    (hx : x ∈ s.reached) :
    ∃ i : ℕ, s.run.plan.steps[i]? = some x.1 ∧ s.history[i]? = some x.2 := by
  obtain ⟨i, hi⟩ := mem_iff_getElem?.mp hx
  rw [LoopState.reached, getElem?_zip_eq_some] at hi
  exact ⟨i, hi⟩

theorem lifecycleStatus_of_failure {nodes : List ExecutionNode} {node : ExecutionNode}
    (hmem : node ∈ nodes) (h : node.status = .failed ∨ node.status = .blocked) :
    ExecutionGraph.lifecycleStatus nodes = .blocked ∨
      ExecutionGraph.lifecycleStatus nodes = .failed := by
  by_cases hblocked : nodes.any (·.status = .blocked) = true
  · exact .inl (by rw [ExecutionGraph.lifecycleStatus, if_pos hblocked])
  · right
    rw [ExecutionGraph.lifecycleStatus, if_neg hblocked]
    rcases h with h | h
    · rw [if_pos (any_eq_true.mpr ⟨node, hmem, by simp [h]⟩)]
    · exact absurd (any_eq_true.mpr ⟨node, hmem, by simp [h]⟩) hblocked

theorem lifecycleStatus_eq_completed {nodes : List ExecutionNode}
    (h : ∀ node ∈ nodes, ExecutionGraph.isDone node = true) :
    ExecutionGraph.lifecycleStatus nodes = .completed := by
  have hnot : ∀ status : NodeStatus, status ≠ .completed → status ≠ .partially →
      status ≠ .skipped → ¬nodes.any (·.status = status) = true := by
    intro status hcompleted hsaw hskipped hany
    obtain ⟨node, hmem, hstatus⟩ := any_eq_true.mp hany
    have hdone := h node hmem
    simp only [decide_eq_true_eq] at hstatus
    simp [ExecutionGraph.isDone, hstatus, hcompleted, hsaw, hskipped] at hdone
  rw [ExecutionGraph.lifecycleStatus, if_neg (hnot .blocked (by decide) (by decide) (by decide)),
    if_neg (hnot .failed (by decide) (by decide) (by decide)),
    if_neg (hnot .cancelled (by decide) (by decide) (by decide)),
    if_pos (all_eq_true.mpr h)]

variable {phases : List WorkflowPhase}

theorem statusOf_of_stopping {phase : WorkflowPhase} (hmem : phase ∈ phases)
    (h : phase.isStopping = true) :
    WorkflowRuntimeInstance.statusOf phases = .blocked ∨
      WorkflowRuntimeInstance.statusOf phases = .failed := by
  have hne : ¬phases.isEmpty = true := by
    cases phases with
    | nil => cases hmem
    | cons p phases => simp
  rw [WorkflowRuntimeInstance.statusOf, if_neg hne, if_pos (any_eq_true.mpr ⟨phase, hmem, h⟩)]
  split
  · exact .inl rfl
  · exact .inr rfl

theorem statusOf_eq_completed (h : ∀ phase ∈ phases, phase.status.isSuccess = true) :
    WorkflowRuntimeInstance.statusOf phases = .completed := by
  have hstopping : ¬phases.any (·.isStopping) = true := by
    intro hany
    obtain ⟨phase, hmem, hstops⟩ := any_eq_true.mp hany
    have hsuccess := h phase hmem
    cases hstatus : phase.status <;>
      simp_all [WorkflowPhase.isStopping, PhaseStatus.isSuccess]
  have hsatisfied : phases.all (·.isSatisfied) = true := by
    refine all_eq_true.mpr fun phase hmem => ?_
    simp [WorkflowPhase.isSatisfied, h phase hmem]
  rw [WorkflowRuntimeInstance.statusOf, if_neg hstopping, if_pos hsatisfied, ite_self]

namespace StepEvent

variable {event : StepEvent} {node : ExecutionNode} {phase : WorkflowPhase}

theorem isFailure_iff :
    event.isFailure = true ↔ event.status = .failed ∨ event.status = .blocked := by
  simp [isFailure]

theorem node_of_isFailure (hmirrored : event.isMirrored = true) (h : event.isFailure = true)
    (hnode : nodeView (some event) node) : node.status = .failed ∨ node.status = .blocked := by
  cases event with
  | executed outcome =>
    simp only [nodeView] at hnode
    rcases isFailure_iff.mp h with h | h <;> simp only [StepEvent.status] at h <;>
      simp [hnode, h, StepStatus.nodeStatus]
  | dependencySkipped reasons => cases h
  | _ => cases hmirrored

theorem phase_of_isFailure (hmirrored : event.isMirrored = true) (h : event.isFailure = true)
    (hphase : phaseView (some event) phase) :
    phase.status = .failed ∨ phase.status = .blocked := by
  cases event with
  | executed outcome =>
    simp only [phaseView] at hphase
    rcases isFailure_iff.mp h with h | h <;> simp only [StepEvent.status] at h <;>
      simp [hphase, h, WorkflowRuntimeInstance.finishedStatus, StepStatus.successPhase?]
  | dependencySkipped reasons => cases h
  | _ => cases hmirrored

theorem node_of_success (hmirrored : event.isMirrored = true) (h : event.isFailure = false)
    (hnode : nodeView (some event) node) : ExecutionGraph.isDone node = true := by
  cases event with
  | executed outcome =>
    simp only [nodeView] at hnode
    cases hstatus : outcome.status <;>
      simp_all [isFailure, StepEvent.status, isMirrored, StepStatus.successPhase?,
        StepStatus.nodeStatus, ExecutionGraph.isDone]
  | dependencySkipped reasons =>
    simp only [nodeView] at hnode
    simp [ExecutionGraph.isDone, hnode]
  | _ => cases hmirrored

theorem phase_of_success (hmirrored : event.isMirrored = true) (h : event.isFailure = false)
    (hphase : phaseView (some event) phase) : phase.status.isSuccess = true := by
  cases event with
  | executed outcome =>
    simp only [phaseView] at hphase
    cases hstatus : outcome.status <;>
      simp_all [isFailure, StepEvent.status, isMirrored, StepStatus.successPhase?,
        WorkflowRuntimeInstance.finishedStatus, PhaseStatus.isSuccess]
  | dependencySkipped reasons =>
    simp only [phaseView] at hphase
    simp [PhaseStatus.isSuccess, hphase]
  | _ => cases hmirrored

theorem stops?_of_isMirrored (hmirrored : event.isMirrored = true) (required : Bool) :
    event.stops? required = none ∧ (required = true → event.isFailure = false) ∨
      required = true ∧ event.isFailure = true ∧
        (event.stops? required = some .blocked ∨ event.stops? required = some .failed) := by
  cases event with
  | executed outcome =>
    cases hrequired : required <;> cases hstatus : outcome.status <;>
      simp [stops?, StepStatus.stops?, isFailure, StepEvent.status, hstatus]
  | dependencySkipped reasons => simp [stops?, isFailure, StepEvent.status]
  | _ => cases hmirrored

end StepEvent

theorem LoopState.terminal_cases (inputs : LoopInputs) (s : LoopState) (proposed : RunOutcome) :
    s.terminal inputs proposed = proposed ∨
      proposed = .completed ∧ s.terminal inputs proposed = .partially := by
  cases proposed with
  | completed =>
    by_cases hmissing : inputs.completion.missing inputs.services.codec s.run s.context = []
    · exact .inl (LoopState.terminal_eq_completed hmissing)
    · right
      simp [LoopState.terminal, LoopState.completion, finalOutcome, CompletionPolicy.resolve,
        CompletionPolicy.resolvedStatus, hmissing, ResultStatus.outcome]
  | _ => left; simp [LoopState.terminal, finalOutcome]

section Agreement

variable {inputs : LoopInputs} {s : LoopState} {stopped : Option RunOutcome} {ret : LoopReturn}
  {plan : List TaskRunStep}

theorem Recorded.stopped_cases (h : Recorded s stopped)
    (hmirrored : ∀ x ∈ s.reached, x.2.isMirrored = true) :
    (stopped = none ∧ ∀ x ∈ s.reached, x.1.required = true → x.2.isFailure = false) ∨
      (stopped = some .blocked ∨ stopped = some .failed) ∧
        ∃ x ∈ s.reached, x.1.required = true ∧ x.2.isFailure = true := by
  cases stopped with
  | none =>
    left
    refine ⟨rfl, fun x hx hrequired => ?_⟩
    have hnone : x.2.stops? x.1.required = none := findSome?_eq_none_iff.mp h.stops x hx
    rcases StepEvent.stops?_of_isMirrored (hmirrored x hx) x.1.required with
      ⟨-, hsuccess⟩ | ⟨-, -, hstops | hstops⟩
    · exact hsuccess hrequired
    · rw [hnone] at hstops
      cases hstops
    · rw [hnone] at hstops
      cases hstops
  | some outcome =>
    right
    obtain ⟨x, hx, hstops⟩ := exists_of_findSome?_eq_some h.stops
    rcases StepEvent.stops?_of_isMirrored (hmirrored x hx) x.1.required with
      ⟨hnone, -⟩ | ⟨hrequired, hfailure, houtcome⟩
    · rw [hnone] at hstops
      cases hstops
    · rw [hstops] at houtcome
      exact ⟨houtcome, x, hx, hrequired, hfailure⟩

theorem LoopState.terminal_of_not_stopped (inputs : LoopInputs) (s : LoopState) :
    s.terminal inputs (proposedOutcome s none) = .completed ∨
      s.terminal inputs (proposedOutcome s none) = .partially := by
  have hproposed : proposedOutcome s none = .completed ∨ proposedOutcome s none = .partially := by
    rw [proposedOutcome]
    split
    · exact .inr rfl
    · exact .inl rfl
  rcases s.terminal_cases inputs (proposedOutcome s none) with h | ⟨-, h⟩
  · rwa [h]
  · exact .inr h

theorem TaskRun.closed_executionGraph {run : TaskRun} {terminal : RunOutcome}
    (h : terminal ≠ .cancelled) : (run.closed terminal).executionGraph = run.executionGraph := by
  simp [TaskRun.closed, h]

theorem TaskRun.find?_closed {run : TaskRun} {g : ExecutionGraph} {node : ExecutionNode}
    {stepId : String} (terminal : RunOutcome) (hg : run.executionGraph = some g)
    (hnode : g.nodes.find? (ExecutionGraph.isNodeOf stepId) = some node) :
    ((run.closed terminal).nodeOf stepId).map (·.status) = some (node.status.closed terminal) := by
  by_cases hterminal : terminal = .cancelled
  · have hkey : ExecutionGraph.isNodeOf stepId ∘ (fun node : ExecutionNode =>
        if node.status = .pending ∨ node.status = .ready ∨ node.status = .running then
          { node with status := .cancelled } else node) = ExecutionGraph.isNodeOf stepId := by
      funext node
      simp only [Function.comp_apply, ExecutionGraph.isNodeOf]
      split <;> rfl
    simp only [TaskRun.nodeOf, TaskRun.closed, hterminal, if_true, hg, Option.map_some,
      Option.bind_some, ExecutionGraph.markCancelled, find?_map, hkey, hnode,
      NodeStatus.closed, true_and]
    split <;> rfl
  · simp [TaskRun.nodeOf, TaskRun.closed, hterminal, hg, hnode, NodeStatus.closed]

variable (hret : FinishedFrom inputs s (proposedOutcome s stopped) ret)
  (hrecorded : Recorded s stopped) (hviews : Views plan s)
  (hnodup : (plan.map (·.stepId)).Nodup)

include hret hrecorded hviews hnodup

theorem FinishedFrom.steps_iff : (∀ x ∈ ret.reached,
      (ret.run.nodeOf x.1.stepId).map (·.status.stepStatus) = some x.1.status ∧
        (ret.run.phaseOf x.1.stepId).map (·.status.stepStatus) = some x.1.status) ↔
      ∀ x ∈ s.reached, x.2.isMirrored = true := by
  have hreached : ret.reached = s.reached := by
    simp [LoopReturn.reached, hret.steps, hret.plan, LoopState.reached]
  rw [hreached]
  refine forall_congr' fun x => imp_congr_right fun hx => ?_
  obtain ⟨i, hstep, hevent⟩ := LoopState.exists_index hx
  obtain ⟨g, hg, hgraph⟩ := hviews.graph
  obtain ⟨w, hw, hworkflow⟩ := hviews.workflow
  have hid : (plan.map (·.stepId))[i]? = some x.1.stepId := by
    simp [← hviews.ids, hstep]
  have hrequired : (plan.map (·.required))[i]? = some x.1.required := by
    simp [← hviews.required, hstep]
  obtain ⟨node, -, hnode, hnodeView⟩ := hgraph.exists_node hnodup hid hevent
  obtain ⟨phase, -, hphase, -, hphaseView⟩ := hworkflow.exists_phase hnodup hid hrequired hevent
  have hnodeOf := TaskRun.find?_closed (s.terminal inputs (proposedOutcome s stopped)) hg hnode
  rw [TaskRun.nodeOf, ← hret.executionGraph] at hnodeOf
  have hphaseOf : ret.run.phaseOf x.1.stepId = some phase := by
    simp [TaskRun.phaseOf, hret.workflow, hw, hphase]
  have hsplit : (ret.run.nodeOf x.1.stepId).map (·.status.stepStatus) =
      ((ret.run.nodeOf x.1.stepId).map (·.status)).map (·.stepStatus) := by
    simp [Function.comp_def]
  rw [hsplit, TaskRun.nodeOf, hnodeOf, hphaseOf, hrecorded.statuses x hx]
  simpa using StepEvent.isMirrored_iff (s.terminal inputs (proposedOutcome s stopped))
    hnodeView hphaseView

omit hret hrecorded in
theorem Views.of_failure {x : TaskRunStep × StepEvent} (hx : x ∈ s.reached)
    (hmirrored : x.2.isMirrored = true) (hfailure : x.2.isFailure = true) :
    (∀ g, s.run.executionGraph = some g → g.status = .blocked ∨ g.status = .failed) ∧
      (x.1.required = true →
        ∀ w, s.run.workflow = some w → w.status = .blocked ∨ w.status = .failed) := by
  obtain ⟨i, hstep, hevent⟩ := LoopState.exists_index hx
  have hid : (plan.map (·.stepId))[i]? = some x.1.stepId := by
    simp [← hviews.ids, hstep]
  have hrequired : (plan.map (·.required))[i]? = some x.1.required := by
    simp [← hviews.required, hstep]
  constructor
  · intro g hg
    obtain ⟨g', hg', hgraph⟩ := hviews.graph
    cases hg.symm.trans hg'
    obtain ⟨node, hmem, -, hview⟩ := hgraph.exists_node hnodup hid hevent
    have hmarks : x.2.marksNode = true := by
      cases hcase : x.2 <;> simp_all [StepEvent.isMirrored, StepEvent.marksNode]
    rw [hgraph.marked ⟨x.2, mem_of_getElem? hevent, hmarks⟩]
    exact lifecycleStatus_of_failure (mem_of_getElem? hmem)
      (StepEvent.node_of_isFailure hmirrored hfailure hview)
  · intro hreq w hw
    obtain ⟨w', hw', hworkflow⟩ := hviews.workflow
    cases hw.symm.trans hw'
    obtain ⟨phase, hmem, -, hphase, hview⟩ := hworkflow.exists_phase hnodup hid hrequired hevent
    rw [hworkflow.refreshed]
    refine statusOf_of_stopping (mem_of_getElem? hmem) ?_
    rcases StepEvent.phase_of_isFailure hmirrored hfailure hview with hstatus | hstatus <;>
      simp [WorkflowPhase.isStopping, hphase, hreq, hstatus]

omit hret hrecorded hnodup in
/-- Where no step failed, the graph and the workflow are completed. -/
theorem Views.of_success (hall : s.run.plan.steps.length ≤ s.history.length)
    (hne : s.reached ≠ []) (hmirrored : ∀ x ∈ s.reached, x.2.isMirrored = true)
    (hsuccess : ∀ x ∈ s.reached, x.2.isFailure = false) :
    s.run.executionGraph.map (·.status) = some .completed ∧
      s.run.workflow.map (·.status) = some .completed := by
  have hlength : s.run.plan.steps.length = plan.length := by
    simpa using congrArg List.length hviews.ids
  -- Every position of the plan was reached.
  have hevents : ∀ i < plan.length, ∃ event, s.history[i]? = some event ∧
      event.isMirrored = true ∧ event.isFailure = false := by
    intro i hi
    have hstep : s.run.plan.steps[i]? = some s.run.plan.steps[i] := getElem?_eq_getElem (by omega)
    have hevent : s.history[i]? = some s.history[i] := getElem?_eq_getElem (by omega)
    have hx : (s.run.plan.steps[i], s.history[i]) ∈ s.reached :=
      mem_of_getElem? (getElem?_zip_eq_some.mpr ⟨hstep, hevent⟩)
    exact ⟨_, hevent, hmirrored _ hx, hsuccess _ hx⟩
  constructor
  · obtain ⟨g, hg, hgraph⟩ := hviews.graph
    obtain ⟨x, hx⟩ := exists_mem_of_ne_nil _ hne
    have hmarks : x.2.marksNode = true := by
      have hmirror := hmirrored x hx
      cases hcase : x.2 <;> simp_all [StepEvent.isMirrored, StepEvent.marksNode]
    rw [hg, Option.map_some, hgraph.marked ⟨x.2, (of_mem_zip hx).2, hmarks⟩,
      lifecycleStatus_eq_completed]
    intro node hmem
    obtain ⟨i, hi⟩ := mem_iff_getElem?.mp hmem
    have hnodes : g.nodes.length = plan.length := by
      simpa using congrArg List.length hgraph.ids
    obtain ⟨event, hevent, hmirror, hok⟩ :=
      hevents i (by rw [← hnodes]; exact (List.getElem?_eq_some_iff.mp hi).1)
    have hview := hgraph.nodes i node hi
    rw [hevent] at hview
    exact StepEvent.node_of_success hmirror hok hview
  · obtain ⟨w, hw, hworkflow⟩ := hviews.workflow
    rw [hw, Option.map_some, hworkflow.refreshed, statusOf_eq_completed]
    intro phase hmem
    obtain ⟨i, hi⟩ := mem_iff_getElem?.mp hmem
    have hphases : w.phases.length = plan.length := by
      simpa using congrArg List.length hworkflow.ids
    obtain ⟨event, hevent, hmirror, hok⟩ :=
      hevents i (by rw [← hphases]; exact (List.getElem?_eq_some_iff.mp hi).1)
    have hview := hworkflow.phases i phase hi
    rw [hevent] at hview
    exact StepEvent.phase_of_success hmirror hok hview

omit hret hrecorded hnodup in
theorem Views.of_reached_nil (hnil : s.reached = []) :
    ∀ g, s.run.executionGraph = some g → g.status = .ready ∨ g.status = .blocked := by
  intro g hg
  obtain ⟨g', hg', hgraph⟩ := hviews.graph
  cases hg.symm.trans hg'
  have hlength : s.run.plan.steps.length = plan.length := by
    simpa using congrArg List.length hviews.ids
  have hhistory : s.history = [] := by
    rw [LoopState.reached, zip_eq_nil_iff] at hnil
    rcases hnil with hnil | hnil
    · rw [hnil] at hlength
      exact length_eq_zero_iff.mp (by have := hviews.length_le; simp at hlength; omega)
    · exact hnil
  exact hgraph.unmarked (by simp [hhistory])

/-- The views of a finished loop agree exactly if its events do. -/
theorem FinishedFrom.viewsAgree_iff
    (hall : stopped = none → s.run.plan.steps.length ≤ s.history.length) :
    ret.ViewsAgree ↔ s.Agreeing := by
  constructor
  · intro hagree
    have hmirrored := (hret.steps_iff hrecorded hviews hnodup).mp hagree.steps
    rcases hrecorded.stopped_cases hmirrored with ⟨rfl, -⟩ | ⟨-, x, hx, hrequired, hfailure⟩
    · have hterminal := s.terminal_of_not_stopped inputs
      have hgraph : s.run.executionGraph.map (·.status) = some .completed := by
        have hclosed : ret.run.executionGraph = s.run.executionGraph := by
          rw [hret.executionGraph, TaskRun.closed_executionGraph]
          rcases hterminal with h | h <;> simp [h]
        rw [← hclosed]
        refine (hagree.succeeded ?_).1
        rw [hret.status]
        rcases hterminal with h | h <;> simp [h, RunOutcome.status]
      obtain ⟨g, hg, hstatus⟩ := Option.map_eq_some_iff.mp hgraph
      refine ⟨fun hnil => ?_, hmirrored, .inr fun x hx => ?_⟩
      · rcases hviews.of_reached_nil hnil g hg with h | h <;> simp [h] at hstatus
      · by_contra hfailure
        rcases (hviews.of_failure hnodup hx (hmirrored x hx) (by simpa using hfailure)).1 g hg
          with h | h <;> simp [h] at hstatus
    · exact ⟨ne_nil_of_mem hx, hmirrored, .inl ⟨x, hx, hrequired, hfailure⟩⟩
  · rintro ⟨hne, hmirrored, hfailed⟩
    refine ⟨(hret.steps_iff hrecorded hviews hnodup).mpr hmirrored, ?_, ?_⟩
    all_goals rw [hret.status, hret.executionGraph, hret.workflow]
    all_goals rcases hrecorded.stopped_cases hmirrored with
      ⟨rfl, hok⟩ | ⟨hstopped, x, hx, hrequired, hfailure⟩
    · intro _
      have hterminal := s.terminal_of_not_stopped inputs
      rw [TaskRun.closed_executionGraph (by rcases hterminal with h | h <;> simp [h])]
      refine hviews.of_success (hall rfl) hne hmirrored ?_
      rcases hfailed with ⟨x, hx, hrequired, hfailure⟩ | hsuccess
      · rw [hok x hx hrequired] at hfailure
        cases hfailure
      · exact hsuccess
    · intro hstatus
      rcases hstopped with rfl | rfl <;>
        simp [proposedOutcome, LoopState.terminal, finalOutcome, RunOutcome.status] at hstatus
    · intro hstatus
      rcases s.terminal_of_not_stopped inputs with h | h <;>
        simp [h, RunOutcome.status] at hstatus
    · intro _
      have hterminal : s.terminal inputs (proposedOutcome s stopped) ≠ .cancelled := by
        rcases hstopped with rfl | rfl <;> simp [proposedOutcome, LoopState.terminal, finalOutcome]
      rw [TaskRun.closed_executionGraph hterminal]
      obtain ⟨hgraph, hworkflow⟩ := hviews.of_failure hnodup hx (hmirrored x hx) hfailure
      constructor
      · intro g hg
        rcases hgraph g hg with h | h <;> simp [h]
      · intro w hw
        rcases hworkflow hrequired w hw with h | h <;> simp [h]

end Agreement

/-- A run whose graph and workflow were built from its plan and not touched. -/
structure Fresh (run : TaskRun) : Prop where
  distinct : (run.plan.steps.map (·.stepId)).Nodup
  graph : ∃ g, run.executionGraph = some g ∧
    g.nodes.map (·.stepId) = (run.plan.steps.map (·.stepId)).map some ∧
    (∀ node ∈ g.nodes, node.status = .pending ∨ node.status = .ready) ∧
    (g.status = .ready ∨ g.status = .blocked)
  workflow : ∃ w, run.workflow = some w ∧
    w.phases.map (·.sourceStepId) = run.plan.steps.map (·.stepId) ∧
    w.phases.map (·.required) = run.plan.steps.map (·.required) ∧
    (∀ phase ∈ w.phases, phase.status = .pending) ∧
    w.status = WorkflowRuntimeInstance.statusOf w.phases

theorem createForRun_phases (explicit : List (String × List String)) (plan : TaskRunPlan) :
    (createForRun explicit plan).phases =
      plan.steps.mapIdx fun i step => phaseOfStep (i + 1) step := rfl

theorem fresh_of_built {casefold : String → String} {run : TaskRun}
    {explicit : List (String × List String)}
    (hdistinct : (run.plan.steps.map (·.stepId)).Nodup)
    (hgraph : run.executionGraph = some (ExecutionGraph.buildFromPlan casefold run.plan))
    (hworkflow : run.workflow = some (createForRun explicit run.plan)) : Fresh run := by
  refine ⟨hdistinct, ⟨_, hgraph, ?_, ?_, ?_⟩, _, hworkflow, ?_, ?_, ?_, rfl⟩
  · rw [ExecutionGraph.buildFromPlan, ExecutionGraph.markReady_stepIds, map_map, map_map]
    rfl
  · intro node hnode
    rw [ExecutionGraph.buildFromPlan, ExecutionGraph.markReady, mem_map] at hnode
    obtain ⟨node', hnode', rfl⟩ := hnode
    obtain ⟨step, -, rfl⟩ := mem_map.mp hnode'
    exact nodeView_of_mayBecomeReady (ExecutionGraph.mayBecomeReady_isReady _) none _ (.inl rfl)
  · simp only [ExecutionGraph.buildFromPlan, ExecutionGraph.markReady]
    split
    · exact .inl rfl
    · exact .inr rfl
  · rw [createForRun_phases]
    refine map_mapIdx_of_eq ?_ _
    exact fun _ _ => rfl
  · rw [createForRun_phases]
    refine map_mapIdx_of_eq ?_ _
    exact fun _ _ => rfl
  · intro phase hphase
    simp only [createForRun, WorkflowRuntimeInstance.refresh, mem_mapIdx] at hphase
    obtain ⟨i, hi, rfl⟩ := hphase
    rfl

theorem statusOf_pending (h : ∀ phase ∈ phases, phase.status = .pending) :
    WorkflowRuntimeInstance.statusOf phases = .created ∨
      WorkflowRuntimeInstance.statusOf phases = .completed := by
  cases phases with
  | nil => exact .inr rfl
  | cons phase phases =>
    left
    have hstopping : ¬(phase :: phases).any (·.isStopping) = true := by
      intro hany
      obtain ⟨p, hp, hstops⟩ := any_eq_true.mp hany
      simp [WorkflowPhase.isStopping, h p hp] at hstops
    have hrunning : ¬(phase :: phases).any (·.status = .running) = true := by
      intro hany
      obtain ⟨p, hp, hstatus⟩ := any_eq_true.mp hany
      simp [h p hp] at hstatus
    have hsatisfied : ¬(phase :: phases).all (·.isSatisfied) = true := by
      intro hall
      have hphase := all_eq_true.mp hall phase (by simp)
      simp [WorkflowPhase.isSatisfied, h phase (by simp), PhaseStatus.isSuccess,
        PhaseStatus.isTerminal] at hphase
    rw [WorkflowRuntimeInstance.statusOf, if_neg (by simp), if_neg hstopping, if_neg hsatisfied,
      if_neg hrunning]

namespace Fresh

variable {start : TaskRun}

theorem views (h : Fresh start) {run : TaskRun} (context : TaskRunContext)
    (hplan : run.plan = start.plan) (hworkflow : run.workflow = start.workflow)
    (hgraph : run.executionGraph = start.executionGraph) :
    Views start.plan.steps ⟨run, context, false, []⟩ := by
  obtain ⟨g, hg, hids, hnodes, hstatus⟩ := h.graph
  obtain ⟨w, hw, hids', hrequired, hphases, hrefreshed⟩ := h.workflow
  refine ⟨Nat.zero_le _, by rw [hplan], by rw [hplan], ⟨g, hgraph.trans hg, hids, ?_,
    fun _ => hstatus, by simp⟩, w, hworkflow.trans hw, hids', hrequired, ?_, hrefreshed⟩
  · intro i node hnode
    simpa [nodeView] using hnodes node (mem_of_getElem? hnode)
  · intro i phase hphase
    simpa [phaseView] using hphases phase (mem_of_getElem? hphase)

theorem not_ended (h : Fresh start) {run : TaskRun} (hworkflow : run.workflow = start.workflow)
    (hended : ∀ w, run.workflow = some w →
      w.status ≠ .running ∧ w.status ≠ .created ∧ w.status ≠ .completed) : False := by
  obtain ⟨w, hw, -, -, hphases, hrefreshed⟩ := h.workflow
  have hstatus := hended w (hworkflow.trans hw)
  rw [hrefreshed] at hstatus
  rcases statusOf_pending hphases with hcreated | hcompleted
  · exact hstatus.2.1 hcreated
  · exact hstatus.2.2 hcompleted

theorem not_completed (h : Fresh start) :
    start.executionGraph.map (·.status) ≠ some .completed := by
  obtain ⟨g, hg, -, -, hstatus⟩ := h.graph
  rw [hg]
  rcases hstatus with hstatus | hstatus <;> simp [hstatus]

end Fresh

/-- When the views agree at the end of a call that found a given run: the run was
under way or expired and the call did nothing, or its steps were reached and
their events agree. -/
def LoopReturn.Agreeing (start : TaskRun) (ret : LoopReturn) : Prop :=
  match ret.steps with
  | none => start.status = .running ∨ start.status = .expired
  | some (s, _) => s.Agreeing

/-- Whatever the store answers, and so under every interleaving, a call of the
loop on a fresh run leaves three views that agree exactly if its events do. -/
theorem three_views_agree_iff (inputs : LoopInputs) (start : TaskRun)
    (ys : List runStore.Exchange) (ret : LoopReturn) (hfresh : Fresh start)
    (h : (supervisedRun inputs).Ends (⟨.getRun, .found start⟩ :: ys) (.ok ret)) :
    ret.ViewsAgree ↔ ret.Agreeing start := by
  obtain ⟨start', ys', heq, hends⟩ := supervisedRun_ends h
  cases heq
  cases returns_superviseRun hends.returns with
  | idle hended hrun hsteps =>
    have hreached : ret.reached = [] := by simp [LoopReturn.reached, hsteps]
    simp only [LoopReturn.Agreeing, hsteps]
    constructor
    · intro hagree
      have hsucceeded := hagree.succeeded
      have hnotended := hagree.ended
      rw [hrun] at hsucceeded hnotended
      have hgraph := fun hstatus => hfresh.not_completed (hsucceeded hstatus).1
      have hworkflow := fun hstatus => hfresh.not_ended rfl (hnotended hstatus).2
      cases hstatus : start.status <;> simp_all [TaskRunStatus.isTerminal]
    · intro hstatus
      refine ⟨by simp [hreached], ?_, ?_⟩ <;> rw [hrun] <;>
        rcases hstatus with hstatus | hstatus <;> simp [hstatus]
  | refused hstart hstatus _ hworkflow _ hsteps =>
    simp only [LoopReturn.Agreeing, hsteps]
    constructor
    · intro hagree
      exact (hfresh.not_ended hworkflow (hagree.ended (.inl hstatus)).2).elim
    · rintro (hrunning | hexpired)
      · exact absurd (.inr hrunning) hstart
      · exact absurd (.inl (by rw [hexpired]; rfl)) hstart
  | ran run s stopped hplan hworkflow hgraph hloop hfinished =>
    obtain ⟨hrecorded, hall⟩ := hloop.recorded rfl (by simp [hplan])
      (recorded_nil run (inputs.buildContext run))
    have hviews := hloop.views hfresh.distinct rfl (by simp)
      (hfresh.views (inputs.buildContext run) hplan hworkflow hgraph)
    rw [hfinished.viewsAgree_iff hrecorded hviews hfresh.distinct hall, LoopReturn.Agreeing,
      hfinished.steps]

/-- A required and an optional step that are completed: the views agree. -/
theorem three_views_agree_on_completed_steps :
    ∃ ys ret, (supervisedRun (sampleInputs fun _ => .completed)).Ends
        (⟨.getRun, .found (sampleRun [sampleStep "step_1" true, sampleStep "step_2" false])⟩ :: ys)
        (.ok ret) ∧ ret.ViewsAgree := by
  have hrun : ((superviseRun (sampleInputs fun _ => .completed)
      (sampleRun [sampleStep "step_1" true, sampleStep "step_2" false])).run
      (runHandler sampleServices.codec "task_run_1") (sampleFiles
        (sampleRun [sampleStep "step_1" true, sampleStep "step_2" false]))).1.toOption.any
        (fun ret => ret.steps.any fun x => !x.1.reached.isEmpty &&
          x.1.reached.all fun y => y.2.isMirrored && !y.2.isFailure) = true := by decide
  obtain ⟨ys, ret, hends, hcheck⟩ := Program.exists_ends_of_run hrun
  have hends := supervisedRun_ends_cons hends
  have hfresh : Fresh (sampleRun [sampleStep "step_1" true, sampleStep "step_2" false]) :=
    fresh_of_built (by decide) rfl rfl
  refine ⟨ys, ret, hends, (three_views_agree_iff _ _ ys ret hfresh hends).mpr ?_⟩
  obtain ⟨⟨s, proposed⟩, hsteps, hcheck⟩ := Option.any_eq_true .. |>.mp hcheck
  simp only [Bool.and_eq_true, Bool.not_eq_true', all_eq_true] at hcheck
  rw [LoopReturn.Agreeing, hsteps]
  refine ⟨fun hnil => ?_, fun x hx => (hcheck.2 x hx).1, .inr fun x hx => (hcheck.2 x hx).2⟩
  simp [hnil] at hcheck

/-- A step that the guard does not allow: the run ends blocked with a blocked
step, while its node and its graph are ready and its phase is pending. -/
theorem guard_block_leaves_views_behind :
    ∃ ys ret, Fresh (sampleRun [{ sampleStep "step_1" true with action := "write_files" }]) ∧
      (supervisedRun (sampleInputs fun _ => .completed)).Ends
        (⟨.getRun, .found (sampleRun [{ sampleStep "step_1" true with action := "write_files" }])⟩
          :: ys) (.ok ret) ∧ ¬ret.ViewsAgree := by
  have hrun : ((superviseRun (sampleInputs fun _ => .completed)
      (sampleRun [{ sampleStep "step_1" true with action := "write_files" }])).run
      (runHandler sampleServices.codec "task_run_1")
      (sampleFiles (sampleRun
        [{ sampleStep "step_1" true with action := "write_files" }]))).1.toOption.any
        (fun ret => ret.run.status = .blocked &&
          ret.run.executionGraph.any (·.status = .ready)) = true := by decide
  obtain ⟨ys, ret, hends, hcheck⟩ := Program.exists_ends_of_run hrun
  simp only [Bool.and_eq_true, decide_eq_true_eq] at hcheck
  refine ⟨ys, ret, fresh_of_built (by decide) rfl rfl, supervisedRun_ends_cons hends,
    fun hagree => ?_⟩
  obtain ⟨g, hg, hstatus⟩ := Option.any_eq_true .. |>.mp hcheck.2
  exact ((hagree.ended (.inl hcheck.1)).1 g hg).1 (by simpa using hstatus)

end AIpinho.Runtime
