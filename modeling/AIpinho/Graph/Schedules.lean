import AIpinho.Graph.Aggregates
import AIpinho.Graph.Progress
import Mathlib.Algebra.GroupWithZero.Nat

/-!
# Schedules that finish the work

Workers start ready nodes and finish running ones, in any order and several at a time, and the
graph is polled in between. Such a schedule never gets stuck before the last node is done.
-/

namespace AIpinho.Graph

open List Lib

namespace ExecutionGraph

variable {graph graph' : ExecutionGraph} {node : ExecutionNode} {nodeId : String}
  {f : ExecutionNode → ExecutionNode}

/-- What a worker does that finishes what it starts. -/
def Works (graph : ExecutionGraph) : Op → Prop
  | .poll => True
  | .start nodeId => graph.Enabled (.start nodeId)
  | .finish nodeId outcome => graph.Enabled (.finish nodeId outcome) ∧
      nodeStatus outcome.status ∈ [.completed, .partially, .skipped]
  | _ => False

instance (graph : ExecutionGraph) : ∀ op, Decidable (graph.Works op)
  | .poll => inferInstanceAs (Decidable True)
  | .start nodeId => inferInstanceAs (Decidable (graph.Enabled (.start nodeId)))
  | .finish nodeId outcome =>
    inferInstanceAs (Decidable (graph.Enabled (.finish nodeId outcome) ∧ _))
  | .retry _ _ | .cancel _ _ => inferInstanceAs (Decidable False)

/-- The steps of work that an operation takes. -/
def Op.steps : Op → ℕ
  | .poll => 0
  | _ => 1

/-- The steps of work that are left for a node: it is to be started and to be finished. -/
def left (node : ExecutionNode) : ℕ :=
  if node.isDone then 0 else if node.status = .running then 1 else 2

def stepsLeft (graph : ExecutionGraph) : ℕ := (graph.nodes.map left).sum

/-- Nothing went wrong. -/
def Healthy (graph : ExecutionGraph) : Prop :=
  ∀ node ∈ graph.nodes, node.status ∉ [.blocked, .failed, .cancelled]

structure Going (graph : ExecutionGraph) : Prop where
  distinct : graph.Distinct
  workable : graph.Workable
  healthy : graph.Healthy

/-- Every node of it that can start is marked as ready. -/
structure Live (graph : ExecutionGraph) : Prop extends graph.Going where
  marked : ∀ node ∈ graph.nodes, graph.plain.isReady node.toExecutionNode = false

theorem Going.map (h : graph.Going) (hnodes : graph'.nodes = graph.nodes.map f)
    (hedges : graph'.edges = graph.edges) (hid : ∀ node, (f node).nodeId = node.nodeId)
    (hf : ∀ node, f node = node ∨ (f node).status ∉ [.blocked, .failed, .cancelled, .timeout]) :
    graph'.Going := by
  have hids : graph'.nodes.map (·.nodeId) = graph.nodes.map (·.nodeId) := by
    rw [hnodes, map_nodeId_of_keeps hid]
  have hstatus : ∀ node ∈ graph'.nodes,
      node.status ∉ [.blocked, .failed, .cancelled, .timeout] := by
    rw [hnodes, forall_mem_map]
    intro node hnode
    rcases hf node with heq | hstatus
    · have htimeout := h.workable.noTimeout node hnode
      have hhealthy := h.healthy node hnode
      rw [heq]
      simp_all
    · exact hstatus
  refine ⟨?_, h.workable.of_nodes hedges hids fun node hnode hs => ?_, fun node hnode hs => ?_⟩
  · rw [Distinct, hids]
    exact h.distinct
  · exact hstatus node hnode (by simp [hs])
  · simp only [mem_cons, not_mem_nil, or_false] at hs
    exact hstatus node hnode (by simp only [mem_cons]; tauto)

theorem Healthy.not_sourceStopped (h : graph.Healthy) (nodeId : String) :
    ¬graph.SourceStopped nodeId := by
  rintro ⟨source, hsource, -, hstopped⟩
  have hstatus := h source hsource
  simp only [Runtime.ExecutionGraph.isStopped, Bool.or_eq_true, decide_eq_true_eq] at hstopped
  rcases hstopped with (hs | hs) | hs <;> simp [hs] at hstatus

/-- A node that can start after a change that completes none could start before. -/
theorem Healthy.isReady_of_map (h : graph.Healthy) (hnodes : graph'.nodes = graph.nodes.map f)
    (hedges : graph'.edges = graph.edges) (hid : ∀ node, (f node).nodeId = node.nodeId)
    (hdone : ∀ node ∈ graph.nodes, (f node).isDone = node.isDone)
    (hready : graph'.plain.isReady (f node).toExecutionNode = true)
    (hwaits : node.status = .pending ∨ node.status = .waiting) :
    graph.plain.isReady node.toExecutionNode = true := by
  obtain ⟨-, -, hsources⟩ := isReady_iff.mp hready
  refine isReady_iff.mpr
    ⟨hwaits, fun _ _ _ _ => h.not_sourceStopped _, fun e he hto hrequired => ?_⟩
  refine (sourceDone_map_iff hnodes hid fun source hsource _ => hdone source hsource).mp
    (hsources e (hedges ▸ he) (hto.trans (hid node).symm) hrequired)

theorem Healthy.marked_refreshReadyNodes (h : graph.Healthy) :
    ∀ node ∈ graph.refreshReadyNodes.nodes,
      graph.refreshReadyNodes.plain.isReady node.toExecutionNode = false := by
  rw [refreshReadyNodes_nodes, forall_mem_map]
  intro node hnode
  by_contra hready
  rw [Bool.not_eq_false] at hready
  have hwaits : node.status = .pending ∨ node.status = .waiting := by
    rcases readyEffect_cases graph node with ⟨hbefore, -⟩ | ⟨hs, -⟩ | heq
    · exact (isReady_iff.mp hbefore).1
    · exact .inl hs
    · exact heq ▸ (isReady_iff.mp hready).1
  have hbefore := h.isReady_of_map (refreshReadyNodes_nodes graph) rfl (readyEffect_nodeId graph)
    (fun _ _ => isDone_readyEffect graph _) hready hwaits
  have hmarked : (graph.readyEffect node).status = .ready := by
    rw [readyEffect, if_pos hbefore, ExecutionNode.withStatus_status]
  rw [not_isReady_of_ready hmarked] at hready
  cases hready

theorem Going.refreshReadyNodes (h : graph.Going) : graph.refreshReadyNodes.Live where
  toGoing := by
    refine h.map (refreshReadyNodes_nodes graph) rfl (readyEffect_nodeId graph) fun node => ?_
    rcases readyEffect_cases graph node with ⟨-, heq⟩ | ⟨-, heq⟩ | heq <;> simp [heq]
  marked := h.healthy.marked_refreshReadyNodes

theorem Live.of_sameWork {a b : ExecutionGraph} (hsame : SameWork a b) (h : b.Live) : a.Live where
  toGoing := h.map (f := id) (by rw [map_id, hsame.nodes]) hsame.edges (fun _ => rfl)
    fun _ => .inl rfl
  marked := by
    rw [hsame.nodes]
    intro node hnode
    rw [isReady_congr hsame.nodes hsame.edges, h.marked node hnode]

theorem Going.changeNode (h : graph.Going)
    (hnodes : graph'.nodes = graph.nodes.map (changeNode nodeId f))
    (hedges : graph'.edges = graph.edges) (hid : ∀ node, (f node).nodeId = node.nodeId)
    (hf : ∀ node, (f node).status ∉ [.blocked, .failed, .cancelled, .timeout]) : graph'.Going := by
  refine h.map hnodes hedges (changeNode_nodeId hid) fun node => ?_
  unfold ExecutionGraph.changeNode
  split
  · exact .inr (hf node)
  · exact .inl rfl

/-- A node that starts is not done, so no other node can start for it. -/
theorem Live.started (h : graph.Live) (hnode : node ∈ graph.nodes) (hready : node.status = .ready) :
    (graph.changed (.start node.nodeId)).Live where
  toGoing := h.changeNode rfl rfl (ExecutionNode.withStatus_nodeId _) fun _ => by simp
  marked := by
    rw [changed_nodes, forall_mem_map]
    intro other hother
    by_contra hstarts
    rw [Bool.not_eq_false] at hstarts
    have hstatus := (isReady_iff.mp hstarts).1
    have hne : other.nodeId ≠ node.nodeId := by
      intro hsame
      rw [effect, ExecutionGraph.changeNode, if_pos hsame] at hstatus
      rcases hstatus with hs | hs <;> cases hs
    rw [effect, ExecutionGraph.changeNode, if_neg hne] at hstatus
    have hbefore := h.healthy.isReady_of_map (changed_nodes graph (.start node.nodeId)) rfl
      (effect_nodeId graph _) (fun source hsource => ?_) hstarts hstatus
    · rw [h.marked other hother] at hbefore
      cases hbefore
    · rw [effect, ExecutionGraph.changeNode]
      split
      · rename_i hsame
        rw [h.distinct.eq_of_nodeId hsource hnode hsame]
        simp [ExecutionNode.isDone, Runtime.ExecutionGraph.isDone, hready]
      · rfl

theorem left_of_waits (h : node.status = .pending ∨ node.status = .waiting ∨ node.status = .ready) :
    left node = 2 := by
  rcases h with hs | hs | hs <;>
    simp [left, ExecutionNode.isDone, Runtime.ExecutionGraph.isDone, hs]

theorem stepsLeft_refreshReadyNodes (graph : ExecutionGraph) :
    graph.refreshReadyNodes.stepsLeft = graph.stepsLeft := by
  have hleft : ∀ node, left (graph.readyEffect node) = left node := by
    intro node
    rcases readyEffect_cases graph node with ⟨hready, heq⟩ | ⟨hs, heq⟩ | heq
    · have hwaits := (isReady_iff.mp hready).1
      rw [heq, left_of_waits (.inr (.inr rfl)), left_of_waits (hwaits.imp_right .inl)]
    · rw [heq, left_of_waits (.inr (.inl rfl)), left_of_waits (.inl hs)]
    · rw [heq]
  rw [stepsLeft, refreshReadyNodes_nodes, map_map, stepsLeft]
  exact congrArg List.sum (map_congr_left fun node _ => hleft node)

theorem sum_left_changeNode {nodes : List ExecutionNode} (h : (nodes.map (·.nodeId)).Nodup)
    (hnode : node ∈ nodes) :
    ((nodes.map (changeNode node.nodeId f)).map left).sum + left node =
      (nodes.map left).sum + left (f node) := by
  induction nodes with
  | nil => cases hnode
  | cons first nodes ih =>
    rw [map_cons, nodup_cons] at h
    simp only [map_cons, sum_cons]
    rcases mem_cons.mp hnode with rfl | hnode
    · have hrest : nodes.map (changeNode node.nodeId f) = nodes := by
        refine (map_congr_left fun other hother => if_neg fun hsame => ?_).trans (map_id _)
        exact h.1 (mem_map.mpr ⟨other, hother, hsame⟩)
      rw [hrest, changeNode, if_pos rfl]
      omega
    · have hne : first.nodeId ≠ node.nodeId :=
        fun hsame => h.1 (mem_map.mpr ⟨node, hnode, hsame.symm⟩)
      have hstep := ih h.2 hnode
      rw [changeNode, if_neg hne]
      omega

/-- Each operation of a worker takes its steps from those that are left. -/
theorem Live.step (h : graph.Live) {op : Op} (hworks : graph.Works op) :
    (graph.apply op).Live ∧ (graph.apply op).stepsLeft + op.steps = graph.stepsLeft := by
  suffices hwork : graph.Has op ∧ (graph.worked op).Live ∧
      (graph.worked op).stepsLeft + op.steps = graph.stepsLeft by
    obtain ⟨hhas, hlive, hsteps⟩ := hwork
    have hsame := sameWork_of_has h.distinct hhas
    refine ⟨hlive.of_sameWork hsame, ?_⟩
    rw [stepsLeft, hsame.nodes]
    exact hsteps
  cases op with
  | poll => exact ⟨trivial, h.refreshReadyNodes, stepsLeft_refreshReadyNodes graph⟩
  | start nodeId =>
    obtain ⟨node, hnode, rfl, hready⟩ := hworks
    refine ⟨⟨node, hnode, rfl⟩, h.started hnode hready, ?_⟩
    have hsum := sum_left_changeNode h.distinct hnode (f := (·.withStatus .running))
    have hbefore : left node = 2 := left_of_waits (.inr (.inr hready))
    have hafter : left (node.withStatus .running) = 1 := rfl
    change ((graph.nodes.map (changeNode node.nodeId (·.withStatus .running))).map left).sum + 1 =
      (graph.nodes.map left).sum
    omega
  | finish nodeId outcome =>
    obtain ⟨⟨node, hnode, rfl, hrunning⟩, hstatus⟩ := hworks
    simp only [mem_cons, not_mem_nil, or_false] at hstatus
    have hgoing : (graph.changed (.finish node.nodeId outcome)).Going := by
      refine h.changeNode rfl rfl (finishNode_nodeId outcome) fun other => ?_
      rw [finishNode_status]
      rcases hstatus with hs | hs | hs <;> simp [hs]
    refine ⟨⟨node, hnode, rfl⟩, hgoing.refreshReadyNodes, ?_⟩
    have hsum := sum_left_changeNode h.distinct hnode (f := finishNode outcome)
    have hbefore : left node = 1 := by
      simp [left, ExecutionNode.isDone, Runtime.ExecutionGraph.isDone, hrunning]
    have hafter : left (finishNode outcome node) = 0 := if_pos (isDone_iff.mpr hstatus)
    rw [hbefore, hafter] at hsum
    exact (congrArg (· + 1) (stepsLeft_refreshReadyNodes _)).trans hsum
  | retry | cancel => exact absurd hworks id

theorem allDone_iff (graph : ExecutionGraph) :
    (∀ node ∈ graph.nodes, node.isDone = true) ↔ graph.stepsLeft = 0 := by
  rw [stepsLeft, List.sum_eq_zero_iff_forall_eq_nat, forall_mem_map]
  refine forall₂_congr fun node _ => ?_
  unfold left
  split
  · simp [*]
  · split <;> simp [*]

/-- A live graph is done, or a node of it can be started or finished. -/
theorem Live.advances (h : graph.Live) (hleft : graph.stepsLeft ≠ 0) :
    ∃ op, op.steps = 1 ∧ graph.Works op := by
  by_cases hrunning : ∃ node ∈ graph.nodes, node.status = .running
  · obtain ⟨node, hnode, hs⟩ := hrunning
    exact ⟨.finish node.nodeId ⟨"completed", .null, [], [], .null, .null, .null, [], []⟩, rfl,
      ⟨node, hnode, rfl, hs⟩, by decide⟩
  · have hunfinished : ∃ node ∈ graph.nodes, node.isDone = false := by
      rw [ne_eq, ← allDone_iff] at hleft
      simpa using hleft
    have hstatus := lifecycleStatus_of_waiting (fun node hnode hs => ?_) hunfinished
    · obtain ⟨node, hnode, hready | hready⟩ := exists_ready h.workable hstatus
      · exact ⟨.start node.nodeId, rfl, node, hnode, rfl, hready⟩
      · rw [h.marked node hnode] at hready
        cases hready
    · have hhealthy := h.healthy node hnode
      exact hrunning ⟨node, hnode, by simp_all⟩

theorem Built.live (h : graph.Built) (hwarnings : graph.warnings = []) :
    graph.Live ∧ graph.stepsLeft = 2 * graph.nodes.length := by
  have hassembled : graph.Assembled := by
    cases h with
    | cooperative services objective requestedNodes =>
      exact .cooperative services objective requestedNodes
    | plan casefold plan contractType => exact .plan casefold plan contractType
  have hopened := hassembled.opened hwarnings
  have hwaits : ∀ node ∈ graph.nodes,
      node.status = .pending ∨ node.status = .waiting ∨ node.status = .ready := by
    intro node hnode
    have hs := hassembled.status node hnode
    simp only [mem_cons, not_mem_nil, or_false] at hs
    tauto
  have hgoing : graph.Going := ⟨h.safe.1, hopened.workable.1, fun node hnode => by
    rcases hwaits node hnode with hs | hs | hs <;> simp [hs]⟩
  refine ⟨⟨hgoing, ?_⟩, ?_⟩
  · obtain ⟨fresh, rfl, hpending, -⟩ := hopened.fresh
    exact Healthy.marked_refreshReadyNodes fun node hnode => by simp [hpending node hnode]
  · have hleft : graph.nodes.map left = graph.nodes.map fun _ => 2 :=
      map_congr_left fun node hnode => left_of_waits (hwaits node hnode)
    rw [stepsLeft, hleft, map_const', sum_replicate_nat, Nat.mul_comm]

/-- In every schedule of a graph that was built, whatever the order and however many nodes run at
a time, a worker can go on until every node is done, and each is started and finished once. -/
theorem schedules_finish (hbuilt : graph.Built) (hwarnings : graph.warnings = []) {ops : List Op}
    (hops : Along apply Works graph ops) :
    (ops.map Op.steps).sum ≤ 2 * graph.nodes.length ∧
    ((∀ node ∈ (run apply graph ops).nodes, node.isDone = true) ↔
      (ops.map Op.steps).sum = 2 * graph.nodes.length) ∧
    ((∃ op, op.steps = 1 ∧ (run apply graph ops).Works op) ↔
      (ops.map Op.steps).sum < 2 * graph.nodes.length) := by
  obtain ⟨hlive, hsteps⟩ := hbuilt.live hwarnings
  obtain ⟨hend, hcount⟩ := hops.measured (fun _ op h hworks => Live.step h hworks) hlive
  rw [allDone_iff]
  refine ⟨by omega, by omega, ?_⟩
  constructor
  · rintro ⟨op, hop, hworks⟩
    have hnext := (hend.step hworks).2
    omega
  · intro hlt
    exact hend.advances (by omega)

/-- When the planner is done and the graph was polled, something is left to work on. -/
theorem planner_leaves_work :
    ∃ op, op.steps = 1 ∧ (run apply (buildCooperativeGraph plainTexts "x" [])
      [.start "node_planner", .finish "node_planner" (plainOutcome "completed"), .poll]).Works op :=
  (schedules_finish (.cooperative plainTexts "x" []) (by decide) (by decide)).2.2.mpr (by decide)

end ExecutionGraph

end AIpinho.Graph
