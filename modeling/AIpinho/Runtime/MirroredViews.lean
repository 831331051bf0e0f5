import AIpinho.Runtime.LoopRuns

/-!
# The three views of a run

The steps of the plan, the nodes of the execution graph and the phases of the
workflow are kept by hand in the same loop. This module says what each of the
three shows after any run of the loop.
-/

namespace AIpinho.Runtime

open List Lib

def nodeView : Option StepEvent → ExecutionNode → Prop
  | some (.executed outcome), node => node.status = outcome.status.nodeStatus
  | some (.dependencySkipped _), node => node.status = .skipped
  | _, node => node.status = .pending ∨ node.status = .ready

def StepEvent.marksNode : StepEvent → Bool
  | .executed _ => true
  | .dependencySkipped _ => true
  | _ => false

namespace ExecutionGraph

def MayBecomeReady (f : ExecutionNode → ExecutionNode) : Prop :=
  ∀ node, (f node).stepId = node.stepId ∧ ((f node).status = node.status ∨
    (node.status = .pending ∨ node.status = .waiting) ∧ (f node).status = .ready)

/-- The node at a position gets a status, other nodes may become ready, and the
status of the graph is computed anew. -/
structure SetsNode (index : ℕ) (status : NodeStatus) (g g' : ExecutionGraph) : Prop where
  nodes : ∃ f ready, (∀ node, (f node).stepId = node.stepId ∧ (f node).status = status) ∧
    MayBecomeReady ready ∧ g'.nodes = (g.nodes.modify index f).map ready
  lifecycle : g'.status = lifecycleStatus g'.nodes

theorem mayBecomeReady_isReady (g : ExecutionGraph) :
    MayBecomeReady fun node => if g.isReady node then { node with status := .ready } else node := by
  intro node
  dsimp only
  split
  · rename_i hready
    refine ⟨rfl, .inr ⟨?_, rfl⟩⟩
    simp only [isReady, Bool.and_eq_true, Bool.or_eq_true, decide_eq_true_eq] at hready
    exact hready.1.1
  · exact ⟨rfl, .inl rfl⟩

theorem markReady_stepIds (g : ExecutionGraph) :
    g.markReady.nodes.map (·.stepId) = g.nodes.map (·.stepId) := by
  rw [markReady, map_map]
  exact map_congr_left fun node _ => (mayBecomeReady_isReady g node).1

variable {f : ExecutionNode → ExecutionNode}

theorem MayBecomeReady.status_eq_iff (hf : MayBecomeReady f) (status : NodeStatus)
    (hpending : status ≠ .pending) (hwaiting : status ≠ .waiting) (hready : status ≠ .ready)
    (node : ExecutionNode) : (f node).status = status ↔ node.status = status := by
  rcases (hf node).2 with h | ⟨hnode, h⟩
  · rw [h]
  · rw [h]
    rcases hnode with hnode | hnode <;> rw [hnode] <;>
      exact ⟨fun h => absurd h.symm ‹_›, fun h => absurd h.symm ‹_›⟩

theorem lifecycleStatus_map (hf : MayBecomeReady f) (nodes : List ExecutionNode) :
    lifecycleStatus (nodes.map f) = lifecycleStatus nodes := by
  have hdone : isDone ∘ f = isDone := by
    funext node
    simp [isDone, hf.status_eq_iff]
  simp only [lifecycleStatus, any_map, all_map, hdone, Function.comp_def,
    hf.status_eq_iff .blocked (by decide) (by decide) (by decide),
    hf.status_eq_iff .failed (by decide) (by decide) (by decide),
    hf.status_eq_iff .cancelled (by decide) (by decide) (by decide),
    hf.status_eq_iff .running (by decide) (by decide) (by decide)]

theorem setsNode_refresh {index : ℕ} {status : NodeStatus} {g g₁ : ExecutionGraph}
    (hf : ∀ node, (f node).stepId = node.stepId ∧ (f node).status = status)
    (hg₁ : g₁.nodes = g.nodes.modify index f) :
    SetsNode index status g g₁.refreshLifecycle.markReady := by
  refine ⟨⟨f, _, hf, mayBecomeReady_isReady g₁.refreshLifecycle, ?_⟩, ?_⟩
  · rw [← hg₁]
    rfl
  · exact (lifecycleStatus_map (mayBecomeReady_isReady g₁.refreshLifecycle) g₁.nodes).symm

section MarkedNode

variable {g : ExecutionGraph} {ids : List String} {index : ℕ} {stepId : String}
  (hids : g.nodes.map (·.stepId) = ids.map some) (hnodup : ids.Nodup)
  (hid : ids[index]? = some stepId)

include hids hnodup hid

theorem updateFirst_isNodeOf (f : ExecutionNode → ExecutionNode) :
    g.nodes.any (isNodeOf stepId) = true ∧
      updateFirst (isNodeOf stepId) f g.nodes = g.nodes.modify index f := by
  have hkey : (g.nodes.map (·.stepId))[index]? = some (some stepId) := by
    simp [hids, hid]
  have hdistinct : (g.nodes.map (·.stepId)).Nodup := by
    rw [hids]
    exact hnodup.map (Option.some_injective _)
  exact ⟨any_key_of_getElem? hkey, updateFirst_eq_modify hdistinct hkey⟩

theorem setsNode_markStepFinished (status : StepStatus) (warnings violations : List String) :
    SetsNode index status.nodeStatus g (g.markStepFinished stepId status warnings violations) := by
  obtain ⟨hany, hmodify⟩ := updateFirst_isNodeOf hids hnodup hid fun node =>
    { node with
      status := status.nodeStatus
      warnings := warnings.eraseDups
      violations := violations.eraseDups }
  rw [markStepFinished, if_pos hany]
  refine setsNode_refresh ?_ hmodify
  exact fun node => ⟨rfl, rfl⟩

theorem nodes_markStepStarted : (g.markStepStarted stepId).nodes =
    g.nodes.modify index fun node => { node with status := .running } := by
  obtain ⟨hany, hmodify⟩ := updateFirst_isNodeOf hids hnodup hid fun node =>
    { node with status := .running }
  rw [markStepStarted, if_pos hany]
  exact hmodify

end MarkedNode

theorem SetsNode.of_started {index : ℕ} {status : NodeStatus} {g g₁ g₂ : ExecutionGraph}
    {start : ExecutionNode → ExecutionNode} (hstart : ∀ node, (start node).stepId = node.stepId)
    (hg₁ : g₁.nodes = g.nodes.modify index start) (h : SetsNode index status g₁ g₂) :
    SetsNode index status g g₂ := by
  obtain ⟨⟨f, ready, hf, hready, hnodes⟩, hlifecycle⟩ := h
  refine ⟨⟨f ∘ start, ready, fun node => ?_, hready, ?_⟩, hlifecycle⟩
  · exact ⟨((hf _).1).trans (hstart node), (hf _).2⟩
  · rw [hnodes, hg₁, modify_modify_eq]

end ExecutionGraph

/-- What a graph shows after a history: its nodes are those of the steps, each
node shows its event, and once a node was marked the status of the graph is that
of its nodes. -/
structure GraphShows (ids : List String) (history : List StepEvent) (g : ExecutionGraph) :
    Prop where
  ids : g.nodes.map (·.stepId) = ids.map some
  nodes : Mirrors nodeView history g.nodes
  unmarked : (∀ event ∈ history, event.marksNode = false) → g.status = .ready ∨ g.status = .blocked
  marked : (∃ event ∈ history, event.marksNode = true) →
    g.status = ExecutionGraph.lifecycleStatus g.nodes

theorem nodeView_of_mayBecomeReady {f : ExecutionNode → ExecutionNode}
    (hf : ExecutionGraph.MayBecomeReady f) (event : Option StepEvent) (node : ExecutionNode)
    (h : nodeView event node) : nodeView event (f node) := by
  have hmoved : node.status = .pending ∨ node.status = .ready →
      (f node).status = .pending ∨ (f node).status = .ready := by
    intro hnode
    rcases (hf node).2 with heq | ⟨-, heq⟩
    · rwa [heq]
    · exact .inr heq
  match event with
  | some (.executed outcome) =>
    refine (hf.status_eq_iff _ ?_ ?_ ?_ node).mpr h <;>
      cases outcome.status <;> simp [StepStatus.nodeStatus]
  | some (.dependencySkipped _) =>
    exact (hf.status_eq_iff .skipped (by decide) (by decide) (by decide) node).mpr h
  | some .cancelled => exact hmoved h
  | some (.guardBlocked _) => exact hmoved h
  | some (.dependencyBlocked _) => exact hmoved h
  | none => exact hmoved h

namespace GraphShows

variable {ids : List String} {history : List StepEvent} {g g' : ExecutionGraph} (event : StepEvent)

theorem extend (h : GraphShows ids history g) (hevent : event.marksNode = false) :
    GraphShows ids (history ++ [event]) g where
  ids := h.ids
  nodes := h.nodes.extend fun node hnode => by
    cases event <;> first | exact hnode | cases hevent
  unmarked := fun hall => h.unmarked fun e he => hall e (List.mem_append_left _ he)
  marked := by
    rintro ⟨e, he, hmarks⟩
    rw [mem_append, mem_singleton] at he
    rcases he with he | rfl
    · exact h.marked ⟨e, he, hmarks⟩
    · rw [hevent] at hmarks
      cases hmarks

theorem mark {status : NodeStatus} (h : GraphShows ids history g)
    (hset : ExecutionGraph.SetsNode history.length status g g') (hevent : event.marksNode = true)
    (hview : ∀ node : ExecutionNode, node.status = status → nodeView (some event) node) :
    GraphShows ids (history ++ [event]) g' := by
  obtain ⟨⟨f, ready, hf, hready, hnodes⟩, hlifecycle⟩ := hset
  refine ⟨?_, ?_, ?_, fun _ => hlifecycle⟩
  · rw [hnodes, map_map, ← h.ids, ← map_modify_of_eq (fun node => (hf node).1)]
    exact map_congr_left fun node _ => (hready node).1
  · rw [hnodes]
    exact (h.nodes.modify fun node _ _ => hview _ (hf node).2).map
      (nodeView_of_mayBecomeReady hready)
  · intro hall
    have := hall event (by simp)
    rw [hevent] at this
    cases this

end GraphShows

def phaseView : Option StepEvent → WorkflowPhase → Prop
  | some (.executed outcome), phase =>
    phase.status = WorkflowRuntimeInstance.finishedStatus outcome.status outcome.violations
  | some (.dependencySkipped _), phase => phase.status = .skipped
  | some (.dependencyBlocked _), phase => phase.status = .blocked
  | _, phase => phase.status = .pending

namespace WorkflowRuntimeInstance

/-- The phase at a position gets a status, and the status of the workflow is
computed anew. -/
structure SetsPhase (index : ℕ) (status : PhaseStatus) (w w' : WorkflowRuntimeInstance) : Prop where
  phases : ∃ f, (∀ phase, (f phase).sourceStepId = phase.sourceStepId ∧
      (f phase).required = phase.required ∧ (f phase).status = status) ∧
    w'.phases = w.phases.modify index f
  refreshed : w'.status = statusOf w'.phases

theorem SetsPhase.trans {index : ℕ} {status status' : PhaseStatus}
    {w w₁ w₂ : WorkflowRuntimeInstance} (h₁ : SetsPhase index status w w₁)
    (h₂ : SetsPhase index status' w₁ w₂) : SetsPhase index status' w w₂ := by
  obtain ⟨⟨f, hf, hphases⟩, -⟩ := h₁
  obtain ⟨⟨f', hf', hphases'⟩, hrefreshed⟩ := h₂
  refine ⟨⟨f' ∘ f, fun phase => ?_, ?_⟩, hrefreshed⟩
  · obtain ⟨hid, hrequired, hstatus⟩ := hf' (f phase)
    exact ⟨hid.trans (hf phase).1, hrequired.trans (hf phase).2.1, hstatus⟩
  · rw [hphases', hphases, modify_modify_eq]

theorem SetsPhase.ids {index : ℕ} {status : PhaseStatus} {w w' : WorkflowRuntimeInstance}
    (h : SetsPhase index status w w') :
    w'.phases.map (·.sourceStepId) = w.phases.map (·.sourceStepId) := by
  obtain ⟨⟨f, hf, hphases⟩, -⟩ := h
  rw [hphases, map_modify_of_eq fun phase => (hf phase).1]

section MarkedPhase

variable {w : WorkflowRuntimeInstance} {index : ℕ} {stepId : String}
  (hnodup : (w.phases.map (·.sourceStepId)).Nodup)
  (hid : (w.phases.map (·.sourceStepId))[index]? = some stepId)

include hnodup hid

theorem updateFirst_isPhaseOf (f : WorkflowPhase → WorkflowPhase) :
    w.phases.any (isPhaseOf stepId) = true ∧
      updateFirst (isPhaseOf stepId) f w.phases = w.phases.modify index f :=
  ⟨any_key_of_getElem? hid, updateFirst_eq_modify hnodup hid⟩

theorem setsPhase_startPhaseForStep : SetsPhase index .running w (w.startPhaseForStep stepId) := by
  rw [startPhaseForStep, if_pos (updateFirst_isPhaseOf hnodup hid id).1]
  refine ⟨⟨_, ?_, (updateFirst_isPhaseOf hnodup hid _).2⟩, rfl⟩
  exact fun phase => ⟨rfl, rfl, rfl⟩

theorem setsPhase_finishPhaseForStep (status : StepStatus) (violations : List String)
    (validationRef : String) :
    SetsPhase index (finishedStatus status violations) w
      (w.finishPhaseForStep stepId status violations validationRef) := by
  rw [finishPhaseForStep, if_pos (updateFirst_isPhaseOf hnodup hid id).1]
  refine ⟨⟨_, ?_, (updateFirst_isPhaseOf hnodup hid _).2⟩, rfl⟩
  exact fun phase => ⟨rfl, rfl, rfl⟩

theorem canStartPhase_cases {admission : WorkflowPhase → WorkflowPhaseDependency → Option String}
    {missing : List String} {w' : WorkflowRuntimeInstance}
    (h : w.canStartPhase admission stepId = (missing, w')) :
    missing = [] ∧ w' = w ∨ missing ≠ [] ∧ SetsPhase index .blocked w w' := by
  obtain ⟨phase, hphase⟩ : ∃ phase, w.phaseForStep stepId = some phase := by
    rw [phaseForStep, ← Option.isSome_iff_exists, find?_isSome]
    obtain ⟨phase, hphase, rfl⟩ := mem_map.mp (mem_of_getElem? hid)
    exact ⟨phase, hphase, by simp [isPhaseOf]⟩
  simp only [canStartPhase, hphase] at h
  split at h
  · cases h
    exact .inl ⟨rfl, rfl⟩
  · cases h
    refine .inr ⟨by simp [eraseDups_cons], ⟨_, ?_, (updateFirst_isPhaseOf hnodup hid _).2⟩, rfl⟩
    exact fun phase => ⟨rfl, rfl, rfl⟩

end MarkedPhase

end WorkflowRuntimeInstance

/-- What a workflow shows after a history. -/
structure WorkflowShows (ids : List String) (required : List Bool) (history : List StepEvent)
    (w : WorkflowRuntimeInstance) : Prop where
  ids : w.phases.map (·.sourceStepId) = ids
  required : w.phases.map (·.required) = required
  phases : Mirrors phaseView history w.phases
  refreshed : w.status = WorkflowRuntimeInstance.statusOf w.phases

namespace WorkflowShows

variable {ids : List String} {required : List Bool} {history : List StepEvent}
  {w w' : WorkflowRuntimeInstance} (event : StepEvent)

theorem extend (h : WorkflowShows ids required history w)
    (hevent : ∀ phase, phaseView none phase → phaseView (some event) phase) :
    WorkflowShows ids required (history ++ [event]) w where
  ids := h.ids
  required := h.required
  phases := h.phases.extend hevent
  refreshed := h.refreshed

theorem mark {status : PhaseStatus} (h : WorkflowShows ids required history w)
    (hset : WorkflowRuntimeInstance.SetsPhase history.length status w w')
    (hview : ∀ phase : WorkflowPhase, phase.status = status → phaseView (some event) phase) :
    WorkflowShows ids required (history ++ [event]) w' := by
  obtain ⟨⟨f, hf, hphases⟩, hrefreshed⟩ := hset
  refine ⟨?_, ?_, ?_, hrefreshed⟩
  · rw [hphases, map_modify_of_eq fun phase => (hf phase).1, h.ids]
  · rw [hphases, map_modify_of_eq fun phase => (hf phase).2.1, h.required]
  · rw [hphases]
    exact h.phases.modify fun phase _ _ => hview _ (hf phase).2.2

end WorkflowShows

/-- The steps, the graph and the workflow of the loop are those of a plan, and
the last two show what happened at its steps. -/
structure Views (plan : List TaskRunStep) (s : LoopState) : Prop where
  length_le : s.history.length ≤ plan.length
  ids : s.run.plan.steps.map (·.stepId) = plan.map (·.stepId)
  required : s.run.plan.steps.map (·.required) = plan.map (·.required)
  graph : ∃ g, s.run.executionGraph = some g ∧
    GraphShows (plan.map (·.stepId)) s.history g
  workflow : ∃ w, s.run.workflow = some w ∧
    WorkflowShows (plan.map (·.stepId)) (plan.map (·.required)) s.history w

section ViewTransformers

variable (s : LoopState) (latest : Option TaskRun)

@[simp] theorem LoopState.observe_executionGraph :
    (s.observe latest).run.executionGraph = s.run.executionGraph := by
  rcases s.observe_eq latest with h | ⟨reason, h⟩ <;> rw [h]

@[simp] theorem LoopState.observe_workflow : (s.observe latest).run.workflow = s.run.workflow := by
  rcases s.observe_eq latest with h | ⟨reason, h⟩ <;> rw [h]

theorem LoopState.checkDependencies_views
    {admission : WorkflowPhase → WorkflowPhaseDependency → Option String} {step : TaskRunStep}
    {missing : List String} {s s₁ : LoopState} {w : WorkflowRuntimeInstance}
    (h : s.checkDependencies admission step = (missing, s₁)) (hw : s.run.workflow = some w) :
    ∃ w₁, w.canStartPhase admission step.stepId = (missing, w₁) ∧ s₁.run.workflow = some w₁ ∧
      s₁.run.executionGraph = s.run.executionGraph := by
  simp only [LoopState.checkDependencies, hw] at h
  cases h
  exact ⟨_, rfl, rfl, rfl⟩

theorem LoopState.finished_executionGraph (index : ℕ) (step : TaskRunStep) (reply : StepReply)
    (eventId : String) :
    (s.finished index step reply eventId).run.executionGraph =
      s.run.executionGraph.map (·.markStepFinished step.stepId reply.outcome.status
        reply.outcome.warnings.eraseDups reply.outcome.violations.eraseDups) := by
  simp only [LoopState.finished, LoopState.finishStep, LoopState.finishPhase]
  split <;> rfl

theorem LoopState.finished_workflow (index : ℕ) (step : TaskRunStep) (reply : StepReply)
    (eventId : String) :
    (s.finished index step reply eventId).run.workflow =
      s.run.workflow.map (·.finishPhaseForStep step.stepId reply.outcome.status
        reply.outcome.violations eventId) := by
  simp only [LoopState.finished, LoopState.finishStep, LoopState.finishPhase]
  split <;> rfl

end ViewTransformers

variable {inputs : LoopInputs} {stopped : Option RunOutcome}

/-- After a step the graph and the workflow show the history with its event. -/
theorem LoopStep.shows {index : ℕ} {step : TaskRunStep} {s s' : LoopState}
    {plan : List TaskRunStep} (h : LoopStep inputs index step s s' stopped)
    (hnodup : (plan.map (·.stepId)).Nodup) (hindex : s.history.length = index)
    (hstep : plan[index]? = some step) (hs : Views plan s) :
    (∃ g, s'.run.executionGraph = some g ∧ GraphShows (plan.map (·.stepId)) s'.history g) ∧
      ∃ w, s'.run.workflow = some w ∧
        WorkflowShows (plan.map (·.stepId)) (plan.map (·.required)) s'.history w := by
  subst hindex
  obtain ⟨g, hg, hgraph⟩ := hs.graph
  obtain ⟨w, hw, hworkflow⟩ := hs.workflow
  have hid : (plan.map (·.stepId))[s.history.length]? = some step.stepId := by
    simp [hstep]
  have hphases : (w.phases.map (·.sourceStepId)).Nodup := hworkflow.ids ▸ hnodup
  have hphase : (w.phases.map (·.sourceStepId))[s.history.length]? = some step.stepId :=
    hworkflow.ids ▸ hid
  cases h with
  | cancelled latest =>
    refine ⟨⟨g, by simpa [LoopState.cancelStep, TaskRun.modifyStep] using hg, ?_⟩,
      w, by simpa [LoopState.cancelStep, TaskRun.modifyStep] using hw, ?_⟩
    · simpa [LoopState.cancelStep] using hgraph.extend .cancelled rfl
    · simpa [LoopState.cancelStep] using hworkflow.extend .cancelled fun _ hphase => hphase
  | guardBlocked latest reasons =>
    refine ⟨⟨g, by simpa [LoopState.blockStep, TaskRun.modifyStep, TaskRun.addBlockedReasons]
      using hg, ?_⟩, w, by simpa [LoopState.blockStep, TaskRun.modifyStep,
        TaskRun.addBlockedReasons] using hw, ?_⟩
    · simpa [LoopState.blockStep] using hgraph.extend (.guardBlocked reasons) rfl
    · simpa [LoopState.blockStep] using
        hworkflow.extend (.guardBlocked reasons) fun _ hphase => hphase
  | skipped latest missing s₁ eventId _ hmissing hne =>
    obtain ⟨w₁, hstart, hw₁, hg₁⟩ := LoopState.checkDependencies_views hmissing
      ((s.observe_workflow latest).trans hw)
    obtain ⟨-, hhistory, -⟩ := LoopState.checkDependencies_frame hmissing
    rcases WorkflowRuntimeInstance.canStartPhase_cases hphases hphase hstart with
      ⟨hnil, -⟩ | ⟨-, hblocked⟩
    · exact absurd hnil hne
    · have hfinish := WorkflowRuntimeInstance.setsPhase_finishPhaseForStep
        (hblocked.ids ▸ hphases) (hblocked.ids ▸ hphase) .skipped [] eventId
      have hhistory' : ((s₁.skipStep s.history.length step missing).finishPhase step .skipped []
          eventId).history = s.history ++ [.dependencySkipped missing] := by
        simp [LoopState.finishPhase, LoopState.skipStep, hhistory]
      have hG := hgraph.mark (.dependencySkipped missing)
        (ExecutionGraph.setsNode_markStepFinished hgraph.ids hnodup hid .skipped
          (LoopState.skipWarnings step missing) []) rfl fun _ hnode => hnode
      have hW := hworkflow.mark (.dependencySkipped missing) (hblocked.trans hfinish)
        fun _ hphase => hphase
      rw [← hhistory'] at hG hW
      refine ⟨⟨_, ?_, hG⟩, _, ?_, hW⟩
      · simp [LoopState.finishPhase, LoopState.skipStep, hg₁, hg]
      · simp [LoopState.finishPhase, LoopState.skipStep, TaskRun.modifyStep, hw₁]
  | dependencyBlocked latest missing s₁ _ hmissing hne =>
    obtain ⟨w₁, hstart, hw₁, hg₁⟩ := LoopState.checkDependencies_views hmissing
      ((s.observe_workflow latest).trans hw)
    obtain ⟨-, hhistory, -⟩ := LoopState.checkDependencies_frame hmissing
    rcases WorkflowRuntimeInstance.canStartPhase_cases hphases hphase hstart with
      ⟨hnil, -⟩ | ⟨-, hblocked⟩
    · exact absurd hnil hne
    · refine ⟨⟨g, ?_, ?_⟩, w₁, ?_, ?_⟩
      · simp [LoopState.blockStep, TaskRun.modifyStep, TaskRun.addBlockedReasons, hg₁, hg]
      · simpa [LoopState.blockStep, hhistory] using hgraph.extend (.dependencyBlocked missing) rfl
      · simp [LoopState.blockStep, TaskRun.modifyStep, TaskRun.addBlockedReasons, hw₁]
      · simpa [LoopState.blockStep, hhistory] using
          hworkflow.mark (.dependencyBlocked missing) hblocked fun _ hphase => hphase
  | executed latest s₁ reply eventId _ hmissing =>
    obtain ⟨w₁, hstart, hw₁, hg₁⟩ := LoopState.checkDependencies_views hmissing
      ((s.observe_workflow latest).trans hw)
    obtain ⟨-, hhistory, -⟩ := LoopState.checkDependencies_frame hmissing
    rcases WorkflowRuntimeInstance.canStartPhase_cases hphases hphase hstart with
      ⟨-, rfl⟩ | ⟨hne, -⟩
    · have hstarted := WorkflowRuntimeInstance.setsPhase_startPhaseForStep hphases hphase
      have hfinish := WorkflowRuntimeInstance.setsPhase_finishPhaseForStep
        (hstarted.ids ▸ hphases) (hstarted.ids ▸ hphase) reply.outcome.status
        reply.outcome.violations eventId
      have hnodes := ExecutionGraph.nodes_markStepStarted hgraph.ids hnodup hid
      have hids : (g.markStepStarted step.stepId).nodes.map (·.stepId) =
          (plan.map (·.stepId)).map some := by
        rw [hnodes, map_modify_of_eq (by exact fun _ => rfl), hgraph.ids]
      have hset := (ExecutionGraph.setsNode_markStepFinished hids hnodup hid reply.outcome.status
        reply.outcome.warnings.eraseDups reply.outcome.violations.eraseDups).of_started
          (by exact fun _ => rfl) hnodes
      have hhistory' : ((s₁.started s.history.length step).finished s.history.length step reply
          eventId).history = s.history ++ [.executed reply.outcome] := by
        simp [LoopState.finished, LoopState.finishStep, LoopState.finishPhase, LoopState.started,
          LoopState.startStep, LoopState.startPhase, hhistory]
      have hG := hgraph.mark (.executed reply.outcome) hset rfl fun _ hnode => hnode
      have hW := hworkflow.mark (.executed reply.outcome) (hstarted.trans hfinish)
        fun _ hphase => hphase
      rw [← hhistory'] at hG hW
      refine ⟨⟨_, ?_, hG⟩, _, ?_, hW⟩
      · simp [LoopState.finished_executionGraph, LoopState.started, LoopState.startStep,
          LoopState.startPhase, hg₁, hg]
      · simp [LoopState.finished_workflow, LoopState.started, LoopState.startStep,
          LoopState.startPhase, TaskRun.modifyStep, hw₁]
    · exact absurd rfl hne

theorem LoopStep.views {index : ℕ} {step : TaskRunStep} {s s' : LoopState}
    {plan : List TaskRunStep} (h : LoopStep inputs index step s s' stopped)
    (hnodup : (plan.map (·.stepId)).Nodup) (hindex : s.history.length = index)
    (hstep : plan[index]? = some step) (hs : Views plan s) : Views plan s' := by
  obtain ⟨f, event, hsteps, hhistory, hf, -⟩ := h.records
  obtain ⟨hgraph, hworkflow⟩ := h.shows hnodup hindex hstep hs
  refine ⟨?_, ?_, ?_, hgraph, hworkflow⟩
  · have hlt : index < plan.length := (List.getElem?_eq_some_iff.mp hstep).1
    rw [hhistory, length_append, length_singleton]
    omega
  · rw [hsteps, map_modify_of_eq fun step => (hf step).2.1, hs.ids]
  · rw [hsteps, map_modify_of_eq fun step => (hf step).1, hs.required]

theorem LoopRun.views {index : ℕ} {rest : List TaskRunStep} {s s' : LoopState}
    {plan : List TaskRunStep} (h : LoopRun inputs index rest s s' stopped)
    (hnodup : (plan.map (·.stepId)).Nodup) (hindex : s.history.length = index)
    (hrest : plan.drop index = rest) (hs : Views plan s) : Views plan s' := by
  induction h with
  | nil index s => exact hs
  | stop hstep =>
    exact hstep.views hnodup hindex (getElem?_and_drop_of_drop_eq_cons hrest).1 hs
  | @next index step rest s s₁ s' stopped hstep _ ih =>
    obtain ⟨hhead, htail⟩ := getElem?_and_drop_of_drop_eq_cons hrest
    obtain ⟨_, event, _, hhistory, _⟩ := hstep.records
    exact ih (by simp [hhistory, hindex]) htail (hstep.views hnodup hindex hhead hs)

end AIpinho.Runtime
