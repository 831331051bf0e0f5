import AIpinho.Graph.Service

/-!
# What one operation does to the nodes

If the nodes of a graph have distinct identifiers, each operation changes every node
by itself. The edges and the identifiers of the nodes stay as they are.
-/

namespace AIpinho.Graph

open List Lib
open AIpinho.Runtime (NodeStatus GraphStatus ExecutionEdge)

namespace ExecutionGraph

def Distinct (graph : ExecutionGraph) : Prop := (graph.nodes.map (·.nodeId)).Nodup

instance (graph : ExecutionGraph) : Decidable graph.Distinct :=
  inferInstanceAs (Decidable (List.Nodup _))

def links (graph : ExecutionGraph) : List (String × String) :=
  graph.edges.map fun e => (e.fromNodeId, e.toNodeId)

variable {graph a b : ExecutionGraph} {nodes : List ExecutionNode}
  {f : ExecutionNode → ExecutionNode}

theorem mem_downstreamNodeIds {a b : String} :
    b ∈ graph.downstreamNodeIds a ↔ Relation.TransGen (Digraph.Edge graph.links) a b :=
  Digraph.mem_downstream_iff

theorem toNodeId_mem_downstream {e : ExecutionEdge} {a : String} (he : e ∈ graph.edges)
    (ha : e.fromNodeId = a ∨ e.fromNodeId ∈ graph.downstreamNodeIds a) :
    e.toNodeId ∈ graph.downstreamNodeIds a := by
  have hedge : Digraph.Edge graph.links e.fromNodeId e.toNodeId := mem_map.mpr ⟨e, he, rfl⟩
  rw [mem_downstreamNodeIds] at ha ⊢
  rcases ha with rfl | ha
  · exact .single hedge
  · exact ha.tail hedge

def changeNode (nodeId : String) (f : ExecutionNode → ExecutionNode) (node : ExecutionNode) :
    ExecutionNode :=
  if node.nodeId = nodeId then f node else node

def changeNodes (nodeIds : List String) (f : ExecutionNode → ExecutionNode)
    (node : ExecutionNode) : ExecutionNode :=
  if node.nodeId ∈ nodeIds then f node else node

theorem updateFirst_isNode (h : (nodes.map (·.nodeId)).Nodup) (nodeId : String)
    (f : ExecutionNode → ExecutionNode) :
    updateFirst (isNode nodeId) f nodes = nodes.map (changeNode nodeId f) :=
  updateFirst_eq_map h

theorem map_nodeId_of_keeps (hf : ∀ node, (f node).nodeId = node.nodeId) :
    (nodes.map f).map (·.nodeId) = nodes.map (·.nodeId) := by
  rw [map_map]
  exact map_congr_left fun node _ => hf node

theorem changeNode_nodeId {nodeId : String} (hf : ∀ node, (f node).nodeId = node.nodeId)
    (node : ExecutionNode) : (changeNode nodeId f node).nodeId = node.nodeId := by
  unfold changeNode
  split
  · exact hf node
  · rfl

theorem changeNodes_nodeId {nodeIds : List String} (hf : ∀ node, (f node).nodeId = node.nodeId)
    (node : ExecutionNode) : (changeNodes nodeIds f node).nodeId = node.nodeId := by
  unfold changeNodes
  split
  · exact hf node
  · rfl

theorem updateNodes_eq_map (hf : ∀ node, (f node).nodeId = node.nodeId)
    (h : (nodes.map (·.nodeId)).Nodup) {nodeIds : List String} (hids : nodeIds.Nodup) :
    updateNodes f nodeIds nodes = nodes.map (changeNodes nodeIds f) := by
  unfold updateNodes
  induction nodeIds generalizing nodes with
  | nil =>
    have hid : changeNodes [] f = id := by
      funext node
      simp [changeNodes]
    rw [hid, map_id]
    rfl
  | cons nodeId nodeIds ih =>
    rw [nodup_cons] at hids
    have hids' : ((nodes.map (changeNode nodeId f)).map (·.nodeId)).Nodup := by
      rw [map_nodeId_of_keeps (changeNode_nodeId hf)]
      exact h
    rw [foldl_cons, updateFirst_isNode h, ih hids' hids.2, map_map]
    refine map_congr_left fun node _ => ?_
    by_cases hnode : node.nodeId = nodeId
    · have hnot : node.nodeId ∉ nodeIds := by
        rw [hnode]
        exact hids.1
      simp [changeNodes, changeNode, hnode, hf, hids.1]
    · simp [changeNodes, changeNode, hnode]

@[simp]
theorem resetNode_nodeId (node : ExecutionNode) : (resetNode node).nodeId = node.nodeId := rfl

@[simp]
theorem resetNode_status (node : ExecutionNode) : (resetNode node).status = .pending := rfl

@[simp]
theorem finishNode_nodeId (outcome : Outcome) (node : ExecutionNode) :
    (finishNode outcome node).nodeId = node.nodeId := rfl

@[simp]
theorem finishNode_status (outcome : Outcome) (node : ExecutionNode) :
    (finishNode outcome node).status = nodeStatus outcome.status := rfl

@[simp]
theorem stopNode_nodeId (reason : String) (node : ExecutionNode) :
    (stopNode reason node).nodeId = node.nodeId := rfl

@[simp]
theorem stopNode_status (reason : String) (node : ExecutionNode) :
    (stopNode reason node).status = .cancelled := rfl

@[simp]
theorem reopenNode_nodeId (node : ExecutionNode) : (reopenNode node).nodeId = node.nodeId := by
  unfold reopenNode
  split <;> rfl

@[simp]
theorem blockNode_nodeId (nodeId : String) (node : ExecutionNode) :
    (blockNode nodeId node).nodeId = node.nodeId := by
  unfold blockNode
  split <;> rfl

section

variable {graph : ExecutionGraph} {nodeId reason : String} {outcome : Outcome}

def retryEffect (graph : ExecutionGraph) (nodeId : String) (node : ExecutionNode) : ExecutionNode :=
  changeNodes (graph.downstreamNodeIds nodeId) reopenNode (changeNode nodeId resetNode node)

def cancelEffect (graph : ExecutionGraph) (nodeId reason : String) (node : ExecutionNode) :
    ExecutionNode :=
  changeNodes (graph.downstreamNodeIds nodeId) (blockNode nodeId)
    (changeNode nodeId (stopNode reason) node)

theorem retryEffect_nodeId (node : ExecutionNode) :
    (retryEffect graph nodeId node).nodeId = node.nodeId := by
  unfold retryEffect
  rw [changeNodes_nodeId reopenNode_nodeId, changeNode_nodeId resetNode_nodeId]

theorem cancelEffect_nodeId (node : ExecutionNode) :
    (cancelEffect graph nodeId reason node).nodeId = node.nodeId := by
  unfold cancelEffect
  rw [changeNodes_nodeId (blockNode_nodeId nodeId), changeNode_nodeId (stopNode_nodeId reason)]

theorem updateDownstream_eq_map (h : graph.Distinct) {f g : ExecutionNode → ExecutionNode}
    (hf : ∀ node, (f node).nodeId = node.nodeId) (hg : ∀ node, (g node).nodeId = node.nodeId) :
    updateNodes g (graph.downstreamNodeIds nodeId) (updateFirst (isNode nodeId) f graph.nodes) =
      graph.nodes.map fun node =>
        changeNodes (graph.downstreamNodeIds nodeId) g (changeNode nodeId f node) := by
  have hids : ((graph.nodes.map (changeNode nodeId f)).map (·.nodeId)).Nodup := by
    rw [map_nodeId_of_keeps (changeNode_nodeId hf)]
    exact h
  have hdownstream : (graph.downstreamNodeIds nodeId).Nodup := Digraph.downstream_nodup _ _
  rw [updateFirst_isNode h, updateNodes_eq_map hg hids hdownstream, map_map]
  rfl

theorem find?_isNode (graph : ExecutionGraph) (nodeId : String) :
    graph.nodes.find? (isNode nodeId) = none ∨
      ∃ node, graph.nodes.find? (isNode nodeId) = some node ∧ node ∈ graph.nodes ∧
        node.nodeId = nodeId := by
  cases hfind : graph.nodes.find? (isNode nodeId) with
  | none => exact .inl rfl
  | some node =>
    have hnode : isNode nodeId node = true := find?_some hfind
    exact .inr ⟨node, rfl, mem_of_find?_eq_some hfind, by simpa [isNode] using hnode⟩

end

def SourceDone (graph : ExecutionGraph) (nodeId : String) : Prop :=
  ∃ node ∈ graph.nodes, node.nodeId = nodeId ∧ node.isDone = true

instance (graph : ExecutionGraph) (nodeId : String) : Decidable (graph.SourceDone nodeId) :=
  inferInstanceAs (Decidable (∃ node ∈ graph.nodes, _))

/-- Some node with an identifier is blocked, failed or cancelled. -/
def SourceStopped (graph : ExecutionGraph) (nodeId : String) : Prop :=
  ∃ node ∈ graph.nodes, node.nodeId = nodeId ∧
    Runtime.ExecutionGraph.isStopped node.toExecutionNode = true

theorem isReady_iff {node : ExecutionNode} : graph.plain.isReady node.toExecutionNode = true ↔
      (node.status = .pending ∨ node.status = .waiting) ∧
      (∀ e ∈ graph.edges, e.toNodeId = node.nodeId → e.required = true →
        ¬graph.SourceStopped e.fromNodeId) ∧
      ∀ e ∈ graph.edges, e.toNodeId = node.nodeId → e.required = true →
        graph.SourceDone e.fromNodeId := by
  simp only [Runtime.ExecutionGraph.isReady, plain, SourceStopped, SourceDone,
    ExecutionNode.isDone, Bool.and_eq_true, Bool.or_eq_true, decide_eq_true_eq, and_assoc]
  refine and_congr_right fun _ => and_congr ?_ ?_
  · simp only [Bool.not_eq_true', any_eq_false, mem_map, mem_filter,
      Bool.and_eq_true, decide_eq_true_eq, any_eq_true, forall_exists_index, and_imp]
    constructor
    · rintro h e he hto hrequired ⟨node, hnode, hid, hstopped⟩
      exact h _ e he hto hrequired rfl ⟨_, ⟨node, hnode, rfl⟩, hid, hstopped⟩
    · rintro h _ e he hto hrequired rfl ⟨_, ⟨node, hnode, rfl⟩, hid, hstopped⟩
      exact h e he hto hrequired ⟨node, hnode, hid, hstopped⟩
  · simp only [all_eq_true, mem_map, mem_filter, Bool.and_eq_true,
      decide_eq_true_eq, any_eq_true, forall_exists_index, and_imp]
    constructor
    · intro h e he hto hrequired
      obtain ⟨_, ⟨node, hnode, rfl⟩, hid, hdone⟩ := h _ e he hto hrequired rfl
      exact ⟨node, hnode, hid, hdone⟩
    · rintro h _ e he hto hrequired rfl
      obtain ⟨node, hnode, hid, hdone⟩ := h e he hto hrequired
      exact ⟨_, ⟨node, hnode, rfl⟩, hid, hdone⟩

def readyEffect (graph : ExecutionGraph) (node : ExecutionNode) : ExecutionNode :=
  if graph.plain.isReady node.toExecutionNode then node.withStatus .ready
  else if node.status = .pending ∧ node.dependencies ≠ [] then node.withStatus .waiting
  else node

theorem refreshReadyNodes_nodes (graph : ExecutionGraph) :
    graph.refreshReadyNodes.nodes = graph.nodes.map graph.readyEffect := rfl

theorem readyEffect_cases (graph : ExecutionGraph) (node : ExecutionNode) :
    graph.plain.isReady node.toExecutionNode = true ∧
        graph.readyEffect node = node.withStatus .ready ∨
      node.status = .pending ∧ graph.readyEffect node = node.withStatus .waiting ∨
      graph.readyEffect node = node := by
  unfold readyEffect
  split
  · rename_i hready
    exact .inl ⟨hready, rfl⟩
  · split
    · rename_i hpending
      exact .inr (.inl ⟨hpending.1, rfl⟩)
    · exact .inr (.inr rfl)

@[simp]
theorem readyEffect_nodeId (graph : ExecutionGraph) (node : ExecutionNode) :
    (graph.readyEffect node).nodeId = node.nodeId := by
  rcases readyEffect_cases graph node with ⟨-, h⟩ | ⟨-, h⟩ | h <;> rw [h] <;> rfl

theorem isDone_iff {node : ExecutionNode} : node.isDone = true ↔
      node.status = .completed ∨ node.status = .partially ∨ node.status = .skipped := by
  simp [ExecutionNode.isDone, Runtime.ExecutionGraph.isDone, or_assoc]

@[simp]
theorem isDone_readyEffect (graph : ExecutionGraph) (node : ExecutionNode) :
    (graph.readyEffect node).isDone = node.isDone := by
  rw [Bool.eq_iff_iff, isDone_iff, isDone_iff]
  rcases readyEffect_cases graph node with ⟨hready, h⟩ | ⟨hpending, h⟩ | h
  · have hstatus := (isReady_iff.mp hready).1
    rw [h, ExecutionNode.withStatus_status]
    rcases hstatus with hs | hs <;> simp [hs]
  · rw [h, ExecutionNode.withStatus_status]
    simp [hpending]
  · rw [h]

/-- The operations of a cooperative graph. -/
inductive Op
  | poll
  | start (nodeId : String)
  | finish (nodeId : String) (outcome : Outcome)
  | retry (nodeId reason : String)
  | cancel (nodeId reason : String)

/-- One step of the service on the graph. -/
def apply (graph : ExecutionGraph) : Op → ExecutionGraph
  | .poll => graph.pollGraph
  | .start nodeId => graph.markNodeStarted nodeId
  | .finish nodeId outcome => graph.markNodeFinished nodeId outcome
  | .retry nodeId reason => graph.retryNode nodeId reason
  | .cancel nodeId reason => graph.cancelNode nodeId reason

/-- Graphs with the same nodes, edges and aggregates. -/
structure SameWork (a b : ExecutionGraph) : Prop where
  nodes : a.nodes = b.nodes
  edges : a.edges = b.edges
  dependencies : a.dependencies = b.dependencies
  artifacts : a.artifacts = b.artifacts
  memoryCandidates : a.memoryCandidates = b.memoryCandidates

theorem SameWork.refl (graph : ExecutionGraph) : SameWork graph graph := ⟨rfl, rfl, rfl, rfl, rfl⟩

/-- The work of a graph after an operation on a node that exists, before nodes become
ready. -/
def changed (graph : ExecutionGraph) : Op → ExecutionGraph
  | .poll => graph
  | .start nodeId =>
    { graph with nodes := graph.nodes.map (changeNode nodeId (·.withStatus .running)) }
  | .finish nodeId outcome =>
    { graph with
      nodes := graph.nodes.map (changeNode nodeId (finishNode outcome))
      artifacts := graph.artifacts ++ outcome.artifactRefs
      memoryCandidates := graph.memoryCandidates ++ outcome.memoryCandidates
      dependencies := markEdgesCompletedFrom nodeId graph.dependencies }
  | .retry nodeId _ => { graph with nodes := graph.nodes.map (retryEffect graph nodeId) }
  | .cancel nodeId reason =>
    { graph with nodes := graph.nodes.map (cancelEffect graph nodeId reason) }

/-- Whether nodes become ready at the end of an operation. -/
def Op.refreshes : Op → Bool
  | .start _ | .cancel _ _ => false
  | _ => true

def worked (graph : ExecutionGraph) (op : Op) : ExecutionGraph :=
  if op.refreshes then (graph.changed op).refreshReadyNodes else graph.changed op

def Has (graph : ExecutionGraph) : Op → Prop
  | .poll => True
  | .start nodeId | .finish nodeId _ | .retry nodeId _ | .cancel nodeId _ =>
    ∃ node ∈ graph.nodes, node.nodeId = nodeId

theorem isReady_congr (hnodes : a.nodes = b.nodes) (hedges : a.edges = b.edges)
    (node : Runtime.ExecutionNode) : a.plain.isReady node = b.plain.isReady node := by
  unfold Runtime.ExecutionGraph.isReady plain
  rw [hnodes, hedges]

theorem SameWork.refresh (h : SameWork a b) :
    SameWork a.refreshLifecycle.refreshReadyNodes b.refreshReadyNodes where
  nodes := by
    have hready : ∀ node, a.refreshLifecycle.plain.isReady node = b.plain.isReady node :=
      isReady_congr h.nodes h.edges
    have hnodes : a.refreshLifecycle.nodes = b.nodes := h.nodes
    unfold refreshReadyNodes
    simp only [hready, hnodes]
  edges := h.edges
  dependencies := h.dependencies
  artifacts := h.artifacts
  memoryCandidates := h.memoryCandidates

theorem SameWork.checkpoint (h : SameWork a b) (nodeId : Option String) (status summary : String) :
    SameWork (a.checkpoint nodeId status summary) b :=
  ⟨h.nodes, h.edges, h.dependencies, h.artifacts, h.memoryCandidates⟩

theorem sameWork_of_has (h : graph.Distinct) {op : Op} (hhas : graph.Has op) :
    SameWork (graph.apply op) (graph.worked op) := by
  have hfound : ∀ {nodeId : String}, (∃ node ∈ graph.nodes, node.nodeId = nodeId) →
      ∃ node, graph.nodes.find? (isNode nodeId) = some node := by
    rintro nodeId ⟨node, hnode, hid⟩
    rcases find?_isNode graph nodeId with hnone | ⟨found, hfind, -⟩
    · exact absurd (decide_eq_true hid) (find?_eq_none.mp hnone node hnode)
    · exact ⟨found, hfind⟩
  cases op with
  | poll => exact (SameWork.refl graph).refresh.checkpoint _ _ _
  | start nodeId =>
    obtain ⟨node, hfind⟩ := hfound hhas
    simp only [apply, markNodeStarted, markStarted, hfind]
    exact ⟨updateFirst_isNode h _ _, rfl, rfl, rfl, rfl⟩
  | finish nodeId outcome =>
    obtain ⟨node, hfind⟩ := hfound hhas
    simp only [apply, markNodeFinished, hfind]
    apply SameWork.checkpoint
    apply SameWork.refresh
    exact ⟨updateFirst_isNode h _ _, rfl, rfl, rfl, rfl⟩
  | retry nodeId reason =>
    obtain ⟨node, hfind⟩ := hfound hhas
    simp only [apply, retryNode, hfind]
    apply SameWork.refresh
    exact ⟨updateDownstream_eq_map h resetNode_nodeId reopenNode_nodeId, rfl, rfl, rfl, rfl⟩
  | cancel nodeId reason =>
    obtain ⟨node, hfind⟩ := hfound hhas
    simp only [apply, cancelNode, hfind]
    exact ⟨updateDownstream_eq_map h (stopNode_nodeId reason) (blockNode_nodeId nodeId),
      rfl, rfl, rfl, rfl⟩

theorem apply_cases (h : graph.Distinct) (op : Op) :
    graph.apply op = graph ∨ graph.Has op ∧ SameWork (graph.apply op) (graph.worked op) := by
  by_cases hhas : graph.Has op
  · exact .inr ⟨hhas, sameWork_of_has h hhas⟩
  · left
    cases op with
    | poll => exact absurd trivial hhas
    | start nodeId | finish nodeId | retry nodeId | cancel nodeId =>
      have hnone : graph.nodes.find? (isNode nodeId) = none :=
        (find?_isNode graph nodeId).resolve_right fun ⟨node, _, hnode⟩ => hhas ⟨node, hnode⟩
      simp [apply, markNodeStarted, markStarted, markNodeFinished, retryNode, cancelNode, hnone]

/-- A property of the nodes, edges and aggregates that holds after the work of an
operation holds after the operation. -/
theorem apply_induction {P : ExecutionGraph → Prop} (hP : ∀ {a b}, SameWork a b → P b → P a)
    (hdistinct : graph.Distinct) (op : Op) (hgraph : P graph)
    (hwork : graph.Has op → P (graph.changed op)) (hrefresh : ∀ {a}, P a → P a.refreshReadyNodes) :
    P (graph.apply op) := by
  rcases apply_cases hdistinct op with heq | ⟨hhas, hsame⟩
  · rw [heq]
    exact hgraph
  · refine hP hsame ?_
    unfold worked
    split
    · exact hrefresh (hwork hhas)
    · exact hwork hhas

def effect (graph : ExecutionGraph) : Op → ExecutionNode → ExecutionNode
  | .poll => id
  | .start nodeId => changeNode nodeId (·.withStatus .running)
  | .finish nodeId outcome => changeNode nodeId (finishNode outcome)
  | .retry nodeId _ => retryEffect graph nodeId
  | .cancel nodeId reason => cancelEffect graph nodeId reason

theorem changed_nodes (graph : ExecutionGraph) (op : Op) :
    (graph.changed op).nodes = graph.nodes.map (graph.effect op) := by
  cases op with
  | poll => exact (map_id _).symm
  | start | finish | retry | cancel => rfl

theorem changed_edges (graph : ExecutionGraph) (op : Op) :
    (graph.changed op).edges = graph.edges := by
  cases op <;> rfl

theorem effect_nodeId (graph : ExecutionGraph) (op : Op) (node : ExecutionNode) :
    (graph.effect op node).nodeId = node.nodeId := by
  cases op with
  | poll => rfl
  | start nodeId => exact changeNode_nodeId (ExecutionNode.withStatus_nodeId _) node
  | finish nodeId outcome => exact changeNode_nodeId (finishNode_nodeId outcome) node
  | retry nodeId reason => exact retryEffect_nodeId node
  | cancel nodeId reason => exact cancelEffect_nodeId node

theorem Distinct.apply (h : graph.Distinct) (op : Op) : (graph.apply op).Distinct := by
  refine apply_induction (P := Distinct) ?_ h op h ?_ ?_
  · intro a b hsame hb
    unfold Distinct
    rw [hsame.nodes]
    exact hb
  · intro _
    unfold Distinct
    rw [changed_nodes, map_nodeId_of_keeps (effect_nodeId graph op)]
    exact h
  · intro a ha
    unfold Distinct
    rw [refreshReadyNodes_nodes, map_nodeId_of_keeps a.readyEffect_nodeId]
    exact ha

end ExecutionGraph

end AIpinho.Graph
