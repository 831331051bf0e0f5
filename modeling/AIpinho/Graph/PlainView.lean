import AIpinho.Graph.Polling

/-!
# The graph that a task run carries

The plain view of a graph follows its operations: marking a step in the graph marks
it in the view, so that the loop may carry the view along.
-/

namespace AIpinho.Graph

open List Lib
open AIpinho.Runtime (StepStatus TaskRunPlan)

namespace ExecutionGraph

variable {graph : ExecutionGraph}

theorem any_isNodeOf_plain (stepId : String) :
    graph.plain.nodes.any (Runtime.ExecutionGraph.isNodeOf stepId) =
      (graph.nodes.find? (isNodeOf stepId)).isSome := by
  rw [isSome_find?, plain, any_map]
  rfl

theorem markReady_plain : graph.markReady.plain = graph.plain.markReady := by
  unfold markReady plain Runtime.ExecutionGraph.markReady
  simp only [map_map, Runtime.ExecutionGraph.mk.injEq, true_and, and_true]
  refine map_congr_left fun node _ => ?_
  simp only [Function.comp_apply]
  split <;> rfl

theorem refreshLifecycle_plain : graph.refreshLifecycle.plain = graph.plain.refreshLifecycle := rfl

theorem markStepStarted_plain (stepId : String) :
    (graph.markStepStarted stepId).plain = graph.plain.markStepStarted stepId := by
  unfold markStepStarted markStarted Runtime.ExecutionGraph.markStepStarted
  rw [any_isNodeOf_plain]
  cases hfind : graph.nodes.find? (isNodeOf stepId) with
  | none => rfl
  | some node =>
    have hnodes : (updateFirst (isNodeOf stepId) (·.withStatus .running) graph.nodes).map
        ExecutionNode.toExecutionNode =
      updateFirst (Runtime.ExecutionGraph.isNodeOf stepId)
        (fun node => { node with status := .running })
        (graph.nodes.map ExecutionNode.toExecutionNode) := by
      apply map_updateFirst_of_view
      · exact fun _ => rfl
      · exact fun _ => rfl
    simp only [Option.isSome_some, if_true, checkpoint, plain] at hnodes ⊢
    rw [hnodes]

theorem markStepFinished_plain (stepId : String) {text : String} {status : StepStatus}
    (hstatus : nodeStatus text = status.nodeStatus) (outputSummary : Json)
    (warnings violations : List String) :
    (graph.markStepFinished stepId text outputSummary warnings violations).plain =
      graph.plain.markStepFinished stepId status warnings violations := by
  unfold markStepFinished Runtime.ExecutionGraph.markStepFinished
  rw [any_isNodeOf_plain]
  cases hfind : graph.nodes.find? (isNodeOf stepId) with
  | none => rfl
  | some node =>
    have hview : ∀ graph' : ExecutionGraph, ∀ nodeId status,
        (graph'.refreshLifecycle.markReady.checkpointFinished nodeId status).plain =
          graph'.plain.refreshLifecycle.markReady := by
      intro graph' nodeId status
      rw [← refreshLifecycle_plain, ← markReady_plain]
      rfl
    rw [hview, Option.isSome_some, if_pos rfl]
    congr 2
    unfold plain
    rw [Runtime.ExecutionGraph.mk.injEq]
    refine ⟨rfl, ?_, rfl⟩
    dsimp only
    apply map_updateFirst_of_view
    · exact fun _ => rfl
    · intro node
      rw [hstatus]

theorem markCancelled_plain (reason : String) :
    (graph.markCancelled reason).plain = graph.plain.markCancelled := by
  unfold markCancelled plain Runtime.ExecutionGraph.markCancelled
  simp only [checkpoint, map_map, Runtime.ExecutionGraph.mk.injEq, true_and, and_true]
  refine map_congr_left fun node _ => ?_
  simp only [Function.comp_apply, mem_cons, not_mem_nil, or_false]
  split <;> rfl

theorem buildFromPlan_plain {casefold : String → String} {plan : TaskRunPlan}
    {contractType : Option String} (h : (buildFromPlan casefold plan contractType).warnings = []) :
    (buildFromPlan casefold plan contractType).plain =
      Runtime.ExecutionGraph.buildFromPlan casefold plan := by
  unfold buildFromPlan at h ⊢
  rw [markReady_plain]
  unfold Runtime.ExecutionGraph.buildFromPlan
  congr 1
  simp only [markReady, assemble] at h
  unfold plain assemble
  dsimp only
  split at h
  · rename_i hacyclic
    rw [if_pos hacyclic, Runtime.ExecutionGraph.mk.injEq, map_map]
    exact ⟨rfl, rfl, rfl⟩
  · cases h

def listedStatuses : List StepStatus :=
  [.pending, .running, .completed, .partially, .failed, .skipped, .blocked, .cancelled]

/-- The status that a text stands for. -/
def stepStatusOf (text : String) : StepStatus :=
  (listedStatuses.find? (·.text = text)).getD (.other text)

theorem nodeStatus_stepStatusOf (text : String) :
    nodeStatus text = (stepStatusOf text).nodeStatus := by
  by_cases h : ∃ status ∈ listedStatuses, status.text = text
  · obtain ⟨status, hmem, rfl⟩ := h
    simp only [listedStatuses, mem_cons, not_mem_nil, or_false] at hmem
    rcases hmem with rfl | rfl | rfl | rfl | rfl | rfl | rfl | rfl <;> rfl
  · have hnone : listedStatuses.find? (fun status => decide (status.text = text)) = none :=
      find?_eq_none.mpr fun status hmem htext => h ⟨status, hmem, of_decide_eq_true htext⟩
    rw [stepStatusOf, hnone, Option.getD_none]
    simp only [listedStatuses, exists_mem_cons_iff, StepStatus.text, not_or, eq_comm] at h
    simp [nodeStatus, StepStatus.nodeStatus, h]

/-- What the loop marks in the graph of its run. -/
inductive LoopMark
  | started (stepId : String)
  | finished (stepId status : String) (outputSummary : Json) (warnings violations : List String)
  | cancelled (reason : String)

/-- The mark in the full graph. -/
def LoopMark.inGraph (graph : ExecutionGraph) : LoopMark → ExecutionGraph
  | .started stepId => graph.markStepStarted stepId
  | .finished stepId status outputSummary warnings violations =>
    graph.markStepFinished stepId status outputSummary warnings violations
  | .cancelled reason => graph.markCancelled reason

/-- The mark in the plain view. -/
def LoopMark.inPlain (graph : Runtime.ExecutionGraph) : LoopMark → Runtime.ExecutionGraph
  | .started stepId => graph.markStepStarted stepId
  | .finished stepId status _ warnings violations =>
    graph.markStepFinished stepId (stepStatusOf status) warnings violations
  | .cancelled _ => graph.markCancelled

/-- Whatever the loop marks, the graph that a run carries is the plain view of the graph that the
service keeps for its plan. -/
theorem carried_graph_is_plain_view {casefold : String → String} {plan : TaskRunPlan}
    {contractType : Option String} (h : (buildFromPlan casefold plan contractType).warnings = [])
    (marks : List LoopMark) :
    (run LoopMark.inGraph (buildFromPlan casefold plan contractType) marks).plain =
      run LoopMark.inPlain (Runtime.ExecutionGraph.buildFromPlan casefold plan) marks := by
  rw [← buildFromPlan_plain h]
  refine (foldl_hom plain fun graph mark => ?_).symm
  cases mark with
  | started stepId => exact (markStepStarted_plain stepId).symm
  | finished stepId status outputSummary warnings violations =>
    exact (markStepFinished_plain stepId (nodeStatus_stepStatusOf status) _ _ _).symm
  | cancelled reason => exact (markCancelled_plain reason).symm

def markedStep (action : String) (sideEffect : Bool) : Runtime.TaskRunStep where
  stepId := action
  stepType := action
  action := action
  required := true
  sideEffect := sideEffect
  status := .pending
  warnings := []
  violations := []

/-- A step that reads, one that writes and one that reports. -/
def markedPlan : TaskRunPlan :=
  ⟨"ready", [markedStep "read" false, markedStep "write" true, markedStep "report" false], none⟩

/-- The write waits for the reading and fails. -/
def markedSteps : List LoopMark :=
  [.started "read", .finished "read" "completed" (.str "text") ["short"] [], .started "write",
    .finished "write" "failed" .null [] ["denied"], .cancelled "user"]

theorem carried_graph_of_marked_plan :
    (run LoopMark.inGraph (buildFromPlan String.toLower markedPlan none) markedSteps).plain =
      run LoopMark.inPlain (Runtime.ExecutionGraph.buildFromPlan String.toLower markedPlan)
        markedSteps :=
  carried_graph_is_plain_view (by decide +kernel) markedSteps

end ExecutionGraph

end AIpinho.Graph
