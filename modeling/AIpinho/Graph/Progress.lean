import AIpinho.Graph.Polling

/-!
# A graph that is ready has a ready node

In a graph without cycles, some unfinished node comes after finished nodes only. If no
node runs or has stopped, a refresh makes this node ready.
-/

namespace AIpinho.Graph

open List Lib
open AIpinho.Runtime (NodeStatus GraphStatus)

namespace ExecutionGraph

/-- The operations that mark the nodes of steps and of cooperative graphs. -/
inductive Mark
  | stepStarted (stepId : String)
  | stepFinished (stepId status : String) (outputSummary : Json) (warnings violations : List String)
  | nodeStarted (nodeId : String)
  | nodeFinished (nodeId : String) (outcome : Outcome)

def mark (graph : ExecutionGraph) : Mark → ExecutionGraph
  | .stepStarted stepId => graph.markStepStarted stepId
  | .stepFinished stepId status outputSummary warnings violations =>
    graph.markStepFinished stepId status outputSummary warnings violations
  | .nodeStarted nodeId => graph.markNodeStarted nodeId
  | .nodeFinished nodeId outcome => graph.markNodeFinished nodeId outcome

def initialRefresh (graph : ExecutionGraph) : ExecutionGraph :=
  graph.refreshLifecycle.refreshReadyNodes

/-- A ready graph has a ready node. -/
def Progresses (graph : ExecutionGraph) : Prop :=
  graph.status = .ready → ∃ node ∈ graph.nodes, node.status = .ready

/-- The ends of the edges are nodes. -/
def Linked (graph : ExecutionGraph) : Prop :=
  ∀ e ∈ graph.edges, e.fromNodeId ∈ graph.nodes.map (·.nodeId) ∧
    e.toNodeId ∈ graph.nodes.map (·.nodeId)

instance (graph : ExecutionGraph) : Decidable graph.Linked :=
  inferInstanceAs (Decidable (∀ e ∈ graph.edges, _))

/-- A graph that can be worked off: without cycles, with edges between its nodes. No node
times out, since no operation lets it. -/
structure Workable (graph : ExecutionGraph) : Prop where
  acyclic : Digraph.Acyclic graph.links
  linked : graph.Linked
  noTimeout : ∀ node ∈ graph.nodes, node.status ≠ .timeout

variable {graph graph' : ExecutionGraph} {f : ExecutionNode → ExecutionNode}

theorem lifecycleStatus_eq_ready
    (h : Runtime.ExecutionGraph.lifecycleStatus graph.plain.nodes = .ready) :
    (∀ node ∈ graph.nodes, node.status ∉ [.blocked, .failed, .cancelled, .running]) ∧
      ∃ node ∈ graph.nodes, node.isDone = false := by
  unfold Runtime.ExecutionGraph.lifecycleStatus at h
  simp only [any_status_iff] at h
  split at h
  · cases h
  rename_i hblocked
  split at h
  · cases h
  rename_i hfailed
  split at h
  · cases h
  rename_i hcancelled
  split at h
  · cases h
  rename_i hdone
  split at h
  · cases h
  rename_i hrunning
  constructor
  · intro node hnode hstatus
    simp only [mem_cons, not_mem_nil, or_false] at hstatus
    rcases hstatus with hs | hs | hs | hs
    · exact hblocked ⟨node, hnode, hs⟩
    · exact hfailed ⟨node, hnode, hs⟩
    · exact hcancelled ⟨node, hnode, hs⟩
    · exact hrunning ⟨node, hnode, hs⟩
  · by_contra hall
    apply hdone
    simp only [plain, all_map, all_eq_true, Function.comp_apply]
    intro node hnode
    by_contra hnot
    rw [Bool.not_eq_true] at hnot
    exact hall ⟨node, hnode, hnot⟩

theorem exists_ready (h : graph.Workable)
    (hstatus : Runtime.ExecutionGraph.lifecycleStatus graph.plain.nodes = .ready) :
    ∃ node ∈ graph.nodes, node.status = .ready ∨
      graph.plain.isReady node.toExecutionNode = true := by
  obtain ⟨hnone, unfinished, hunfinished, hnotDone⟩ := lifecycleStatus_eq_ready hstatus
  let left := (graph.nodes.filter fun node => !node.isDone).map (·.nodeId)
  have hleft : ∀ node ∈ graph.nodes, node.isDone = false → node.nodeId ∈ left := by
    intro node hnode hdone
    exact mem_map_of_mem (mem_filter.mpr ⟨hnode, by simp [hdone]⟩)
  have hne : left ≠ [] := ne_nil_of_mem (hleft unfinished hunfinished hnotDone)
  obtain ⟨nodeId, hnodeId, hmin⟩ := h.acyclic.exists_minimal hne
  obtain ⟨node, hnode, rfl⟩ := mem_map.mp hnodeId
  rw [mem_filter, Bool.not_eq_true'] at hnode
  obtain ⟨hmem, hdone⟩ := hnode
  refine ⟨node, hmem, ?_⟩
  have hwaits : node.status = .ready ∨ node.status = .pending ∨ node.status = .waiting := by
    have hstopped := hnone node hmem
    have htimeout := h.noTimeout node hmem
    have hnotDone : ¬(node.status = .completed ∨ node.status = .partially ∨
        node.status = .skipped) := by
      rw [← isDone_iff, hdone]
      simp
    cases hs : node.status <;> simp [hs] at hstopped htimeout hnotDone ⊢
  rcases hwaits with hready | hwaits
  · exact .inl hready
  · right
    refine isReady_iff.mpr ⟨hwaits, ?_, ?_⟩
    · rintro e he hto hrequired ⟨source, hsource, -, hstopped⟩
      have hstatus := hnone source hsource
      simp only [Runtime.ExecutionGraph.isStopped, Bool.or_eq_true, decide_eq_true_eq] at hstopped
      rcases hstopped with (hs | hs) | hs <;> simp [hs] at hstatus
    · -- a source that is not done would be an earlier unfinished node
      intro e he hto hrequired
      obtain ⟨source, hsource, hfrom⟩ := mem_map.mp (h.linked e he).1
      refine ⟨source, hsource, hfrom, ?_⟩
      by_contra hnotDone
      rw [Bool.not_eq_true] at hnotDone
      refine hmin source.nodeId (hleft source hsource hnotDone) ?_
      rw [← hto, hfrom]
      exact mem_map.mpr ⟨e, he, rfl⟩

theorem Workable.progresses (h : graph.Workable) (hnodes : graph'.nodes = graph.nodes.map f)
    (hstatus : graph'.status = Runtime.ExecutionGraph.lifecycleStatus graph.plain.nodes)
    (hready : ∀ node, graph.plain.isReady node.toExecutionNode = true →
      f node = node.withStatus .ready)
    (hkeeps : ∀ node : ExecutionNode, node.status = .ready → f node = node) :
    graph'.Progresses := by
  intro hgraph
  rw [hstatus] at hgraph
  obtain ⟨node, hnode, hnodeReady⟩ := exists_ready h hgraph
  refine ⟨f node, ?_, ?_⟩
  · rw [hnodes]
    exact mem_map_of_mem hnode
  · rcases hnodeReady with hs | hs
    · rw [hkeeps node hs, hs]
    · rw [hready node hs, ExecutionNode.withStatus_status]

theorem not_isReady_of_ready {node : ExecutionNode} (h : node.status = .ready) :
    graph.plain.isReady node.toExecutionNode = false := by
  rw [← Bool.not_eq_true]
  intro hready
  rcases (isReady_iff.mp hready).1 with hs | hs <;> rw [h] at hs <;> cases hs

theorem Workable.progresses_refreshReadyNodes (h : graph.Workable) :
    graph.refreshLifecycle.refreshReadyNodes.Progresses := by
  refine h.progresses (refreshReadyNodes_nodes _) rfl ?_ ?_
  · intro node hready
    exact if_pos hready
  · intro node hs
    unfold readyEffect
    rw [not_isReady_of_ready hs]
    simp [hs]

theorem Workable.progresses_markReady (h : graph.Workable) :
    graph.refreshLifecycle.markReady.Progresses := by
  refine h.progresses rfl rfl ?_ ?_
  · intro node hready
    exact if_pos hready
  · intro node hs
    have hnot : graph.refreshLifecycle.plain.isReady node.toExecutionNode = false :=
      not_isReady_of_ready hs
    rw [hnot]
    rfl

theorem Workable.of_nodes (h : graph.Workable) (hedges : graph'.edges = graph.edges)
    (hids : graph'.nodes.map (·.nodeId) = graph.nodes.map (·.nodeId))
    (htimeout : ∀ node ∈ graph'.nodes, node.status ≠ .timeout) : graph'.Workable where
  acyclic := by
    unfold links
    rw [hedges]
    exact h.acyclic
  linked := by
    unfold Linked
    rw [hedges, hids]
    exact h.linked
  noTimeout := htimeout

theorem Workable.updateFirst (h : graph.Workable) {isMeant : ExecutionNode → Bool}
    (hnodes : graph'.nodes = updateFirst isMeant f graph.nodes)
    (hedges : graph'.edges = graph.edges) (hid : ∀ node, (f node).nodeId = node.nodeId)
    (htimeout : ∀ node, (f node).status ≠ .timeout) : graph'.Workable := by
  refine h.of_nodes hedges ?_ ?_
  · rw [hnodes]
    exact map_updateFirst hid _
  · rw [hnodes]
    intro node' hnode'
    rcases mem_updateFirst hnode' with hnode | ⟨node, -, rfl⟩
    · exact h.noTimeout node' hnode
    · exact htimeout node

theorem Workable.refresh (h : graph.Workable) (hnodes : graph'.nodes = graph.nodes.map f)
    (hedges : graph'.edges = graph.edges)
    (hf : ∀ node, f node = node.withStatus .ready ∨ f node = node.withStatus .waiting ∨
      f node = node) : graph'.Workable := by
  refine h.of_nodes hedges ?_ ?_
  · rw [hnodes, map_nodeId_of_keeps]
    intro node
    rcases hf node with heq | heq | heq <;> rw [heq] <;> rfl
  · rw [hnodes]
    intro node' hnode'
    obtain ⟨node, hnode, rfl⟩ := mem_map.mp hnode'
    rcases hf node with heq | heq | heq <;> rw [heq]
    · simp
    · simp
    · exact h.noTimeout node hnode

theorem Workable.refreshReadyNodes (h : graph.Workable) : graph.refreshReadyNodes.Workable := by
  refine h.refresh (refreshReadyNodes_nodes graph) rfl fun node => ?_
  rcases readyEffect_cases graph node with ⟨-, heq⟩ | ⟨-, heq⟩ | heq
  · exact .inl heq
  · exact .inr (.inl heq)
  · exact .inr (.inr heq)

theorem Workable.markReady (h : graph.Workable) : graph.markReady.Workable := by
  refine h.refresh rfl rfl fun node => ?_
  split
  · exact .inl rfl
  · exact .inr (.inr rfl)

theorem nodeStatus_ne_timeout (status : String) : nodeStatus status ≠ .timeout := by
  unfold nodeStatus
  repeat' split
  all_goals simp

theorem Workable.refreshLifecycle (h : graph.Workable) : graph.refreshLifecycle.Workable :=
  h.of_nodes rfl rfl h.noTimeout

theorem settled_congr (hstatus : graph'.status = graph.status)
    (hnodes : graph'.nodes = graph.nodes) (hedges : graph'.edges = graph.edges)
    (h : graph.Workable ∧ graph.Progresses) : graph'.Workable ∧ graph'.Progresses := by
  refine ⟨h.1.of_nodes hedges (by rw [hnodes]) (by rw [hnodes]; exact h.1.noTimeout), ?_⟩
  unfold Progresses
  rw [hstatus, hnodes]
  exact h.2

theorem Workable.settle_refreshReadyNodes (h : graph.Workable) (nodeId : String)
    (status : NodeStatus) :
    (graph.refreshLifecycle.refreshReadyNodes.checkpointFinished nodeId status).Workable ∧
      (graph.refreshLifecycle.refreshReadyNodes.checkpointFinished nodeId status).Progresses := by
  have hrefreshed := And.intro h.refreshLifecycle.refreshReadyNodes h.progresses_refreshReadyNodes
  refine settled_congr ?_ ?_ ?_ hrefreshed <;> rfl

theorem Workable.settle_markReady (h : graph.Workable) (nodeId : String) (status : NodeStatus) :
    (graph.refreshLifecycle.markReady.checkpointFinished nodeId status).Workable ∧
      (graph.refreshLifecycle.markReady.checkpointFinished nodeId status).Progresses := by
  have hrefreshed := And.intro h.refreshLifecycle.markReady h.progresses_markReady
  refine settled_congr ?_ ?_ ?_ hrefreshed <;> rfl

theorem mark_step (h : graph.Workable ∧ graph.Progresses) (m : Mark) :
    (graph.mark m).Workable ∧ (graph.mark m).Progresses := by
  have hstarted : ∀ isMeant, (graph.markStarted isMeant).Workable ∧
      (graph.markStarted isMeant).Progresses := by
    intro isMeant
    unfold markStarted
    split
    · exact h
    · refine ⟨h.1.updateFirst rfl rfl (fun _ => rfl) (fun _ => by simp), ?_⟩
      intro hready
      cases hready
  cases m with
  | stepStarted | nodeStarted => exact hstarted _
  | stepFinished stepId status outputSummary warnings violations =>
    simp only [mark, markStepFinished]
    split
    · exact h
    · apply Workable.settle_markReady
      exact h.1.updateFirst rfl rfl (fun _ => rfl) (fun _ => nodeStatus_ne_timeout status)
  | nodeFinished nodeId outcome =>
    simp only [mark, markNodeFinished]
    split
    · exact h
    · apply Workable.settle_refreshReadyNodes
      exact h.1.updateFirst rfl rfl (finishNode_nodeId outcome)
        (fun _ => nodeStatus_ne_timeout outcome.status)

/-- From the initial refresh of a graph without cycles, whatever nodes are marked as
started and finished, a graph that is ready has a ready node. -/
theorem ready_graph_has_ready_node {graph : ExecutionGraph} (h : graph.Workable)
    (marks : List Mark) : (run mark graph.initialRefresh marks).Progresses := by
  have hstart : graph.initialRefresh.Workable ∧ graph.initialRefresh.Progresses :=
    ⟨h.refreshLifecycle.refreshReadyNodes, h.progresses_refreshReadyNodes⟩
  have hrun := run_always (P := fun graph : ExecutionGraph => graph.Workable ∧ graph.Progresses)
    (fun _ m hgraph => mark_step hgraph m) hstart marks
  exact hrun.2

/-- A graph of pending nodes that has been made ready. -/
structure Opened (graph : ExecutionGraph) : Prop where
  fresh : ∃ fresh : ExecutionGraph, graph = fresh.refreshReadyNodes ∧
    (∀ node ∈ fresh.nodes, node.status = .pending) ∧
    Digraph.isAcyclic (fresh.nodes.map (·.nodeId)) fresh.links = true

/-- A graph that is built without a warning has no cycle, and its nodes are made ready. -/
theorem Assembled.opened (h : graph.Assembled) (hwarnings : graph.warnings = []) :
    graph.Opened := by
  have hacyclic : ∀ {status nodes edges dependencies checkpoint},
      (assemble status nodes edges dependencies checkpoint).warnings = [] →
      Digraph.isAcyclic (nodes.map (·.nodeId))
        (assemble status nodes edges dependencies checkpoint).links = true := by
    intro status nodes edges dependencies checkpoint hnone
    by_contra hcycle
    rw [Bool.not_eq_true] at hcycle
    have hcycle' : Digraph.isAcyclic (nodes.map (·.nodeId))
        (edges.map fun e => (e.fromNodeId, e.toNodeId)) = false := hcycle
    simp [assemble, hcycle'] at hnone
  have hspecs : ∀ {status specs checkpoint},
      (buildFromSpecs status specs checkpoint).warnings = [] →
      (buildFromSpecs status specs checkpoint).Opened := by
    intro status specs checkpoint hnone
    unfold buildFromSpecs at hnone ⊢
    dsimp only at hnone ⊢
    split at hnone
    · rename_i hok
      rw [if_pos hok]
      refine ⟨_, rfl, ?_, hacyclic hok⟩
      intro node hnode
      obtain ⟨spec, -, rfl⟩ := mem_map.mp hnode
      rfl
    · rename_i hbad
      exact absurd hnone hbad
  cases h with
  | cooperative | report => exact hspecs hwarnings
  | plan casefold plan contractType =>
    refine ⟨_, markReady_eq_refreshReadyNodes ?_, ?_, hacyclic hwarnings⟩
    · intro node hnode
      obtain ⟨step, -, rfl⟩ := mem_map.mp hnode
      rfl
    · intro node hnode
      obtain ⟨step, -, rfl⟩ := mem_map.mp hnode
      rfl

theorem lifecycleStatus_of_waiting
    (hnone : ∀ node ∈ graph.nodes, node.status ∉ [.blocked, .failed, .cancelled, .running])
    (hleft : ∃ node ∈ graph.nodes, node.isDone = false) :
    Runtime.ExecutionGraph.lifecycleStatus graph.plain.nodes = .ready := by
  have hany : ∀ status ∈ [Runtime.NodeStatus.blocked, .failed, .cancelled, .running],
      ¬(graph.plain.nodes.any fun node => node.status = status) = true := by
    intro status hstatus hany
    obtain ⟨node, hnode, hs⟩ := any_status_iff.mp hany
    exact hnone node hnode (hs ▸ hstatus)
  have hdone : ¬(graph.plain.nodes.all Runtime.ExecutionGraph.isDone) = true := by
    obtain ⟨node, hnode, hnotDone⟩ := hleft
    intro hall
    exact absurd (all_eq_true.mp hall _ (mem_map_of_mem hnode)) (Bool.not_eq_true _ ▸ hnotDone)
  unfold Runtime.ExecutionGraph.lifecycleStatus
  rw [if_neg (hany .blocked (by simp)), if_neg (hany .failed (by simp)),
    if_neg (hany .cancelled (by simp)), if_neg hdone, if_neg (hany .running (by simp))]

theorem Opened.workable (h : graph.Opened) :
    graph.Workable ∧ (graph.nodes ≠ [] → ∃ node ∈ graph.nodes, node.status = .ready) := by
  obtain ⟨fresh, rfl, hpending, hchecked⟩ := h.fresh
  obtain ⟨hacyclic, hlinked⟩ := Digraph.acyclic_of_isAcyclic hchecked
  have hworkable : fresh.Workable := by
    refine ⟨hacyclic, ?_, ?_⟩
    · intro e he
      exact hlinked (e.fromNodeId, e.toNodeId) (mem_map.mpr ⟨e, he, rfl⟩)
    · intro node hnode
      rw [hpending node hnode]
      decide
  refine ⟨hworkable.refreshReadyNodes, fun hne => ?_⟩
  have hlifecycle : Runtime.ExecutionGraph.lifecycleStatus fresh.plain.nodes = .ready := by
    rw [refreshReadyNodes_nodes, ne_eq, map_eq_nil_iff] at hne
    obtain ⟨node, hnode⟩ := exists_mem_of_ne_nil fresh.nodes hne
    refine lifecycleStatus_of_waiting (fun node hnode => by simp [hpending node hnode])
      ⟨node, hnode, ?_⟩
    simp [ExecutionNode.isDone, Runtime.ExecutionGraph.isDone, hpending node hnode]
  obtain ⟨node, hnode, hready⟩ := exists_ready hworkable hlifecycle
  refine ⟨fresh.readyEffect node, mem_map_of_mem hnode, ?_⟩
  rcases hready with hs | hs
  · rw [hpending node hnode] at hs
    cases hs
  · unfold readyEffect
    rw [if_pos hs, ExecutionNode.withStatus_status]

theorem planner_makes_nodes_ready :
    (run mark (buildCooperativeGraph plainTexts "x" []).initialRefresh
      [.nodeStarted "node_planner",
        .nodeFinished "node_planner" (plainOutcome "completed")]).Progresses :=
  ready_graph_has_ready_node
    ((Assembled.cooperative plainTexts "x" []).opened (by decide +kernel)).workable.1 _

end ExecutionGraph

end AIpinho.Graph
