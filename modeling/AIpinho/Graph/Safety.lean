import AIpinho.Graph.Steps

/-!
# Ready and running nodes

A node that is ready or running has its required sources done. A retry or a cancellation takes
sources back: it reaches the ready nodes downstream, but not those that run.
-/

namespace AIpinho.Graph

open List Lib
open AIpinho.Runtime (NodeStatus GraphStatus ExecutionEdge TaskRunPlan)

namespace ExecutionGraph

def isActive (node : ExecutionNode) : Bool := node.status = .ready || node.status = .running

/-- The required sources of ready and running nodes are done. -/
def Safe (graph : ExecutionGraph) : Prop :=
  ∀ node ∈ graph.nodes, isActive node = true → ∀ e ∈ graph.edges,
    e.toNodeId = node.nodeId → e.required = true → graph.SourceDone e.fromNodeId

instance (graph : ExecutionGraph) : Decidable graph.Safe :=
  inferInstanceAs (Decidable (∀ node ∈ graph.nodes, _ → ∀ e ∈ graph.edges, _))

theorem isActive_iff {node : ExecutionNode} :
    isActive node = true ↔ node.status = .ready ∨ node.status = .running := by
  simp [isActive]

/-- The invariant speaks of nodes and edges only. -/
theorem Safe.of_sameWork {a b : ExecutionGraph} (hsame : SameWork a b) (h : b.Safe) : a.Safe := by
  unfold Safe SourceDone at h ⊢
  rw [hsame.nodes, hsame.edges]
  exact h

variable {graph : ExecutionGraph}

theorem Safe.map {graph' : ExecutionGraph} (h : graph.Safe) {f : ExecutionNode → ExecutionNode}
    (hnodes : graph'.nodes = graph.nodes.map f) (hedges : graph'.edges = graph.edges)
    (hid : ∀ node, (f node).nodeId = node.nodeId)
    (hactive : ∀ node ∈ graph.nodes, isActive (f node) = true → isActive node = true)
    (hdone : ∀ node ∈ graph.nodes, isActive (f node) = true → ∀ e ∈ graph.edges,
      e.toNodeId = node.nodeId → e.required = true → ∀ source ∈ graph.nodes,
      source.nodeId = e.fromNodeId → source.isDone = true → (f source).isDone = true) :
    graph'.Safe := by
  intro node' hnode' hactive' e he hto hrequired
  rw [hnodes] at hnode'
  rw [hedges] at he
  obtain ⟨node, hnode, rfl⟩ := mem_map.mp hnode'
  rw [hid] at hto
  obtain ⟨source, hsource, hfrom, hsourceDone⟩ :=
    h node hnode (hactive node hnode hactive') e he hto hrequired
  refine ⟨f source, ?_, ?_, ?_⟩
  · rw [hnodes]
    exact mem_map_of_mem hsource
  · rw [hid, hfrom]
  · exact hdone node hnode hactive' e he hto hrequired source hsource hfrom hsourceDone

theorem Safe.refreshReadyNodes (h : graph.Safe) : graph.refreshReadyNodes.Safe := by
  intro node' hnode' hactive e he hto hrequired
  rw [refreshReadyNodes_nodes] at hnode'
  obtain ⟨node, hnode, rfl⟩ := mem_map.mp hnode'
  rw [readyEffect_nodeId] at hto
  have hsource : graph.SourceDone e.fromNodeId := by
    rcases readyEffect_cases graph node with ⟨hready, -⟩ | ⟨-, heq⟩ | heq
    · exact (isReady_iff.mp hready).2.2 e he hto hrequired
    · rw [heq, isActive_iff, ExecutionNode.withStatus_status] at hactive
      simp at hactive
    · rw [heq] at hactive
      exact h node hnode hactive e he hto hrequired
  obtain ⟨source, hmem, hfrom, hdone⟩ := hsource
  refine ⟨graph.readyEffect source, ?_, ?_, ?_⟩
  · rw [refreshReadyNodes_nodes]
    exact mem_map_of_mem hmem
  · rw [readyEffect_nodeId, hfrom]
  · rw [isDone_readyEffect, hdone]

/-- A node is started only when it is ready, and finished only when it runs. -/
def Enabled (graph : ExecutionGraph) : Op → Prop
  | .start nodeId => ∃ node ∈ graph.nodes, node.nodeId = nodeId ∧ node.status = .ready
  | .finish nodeId _ => ∃ node ∈ graph.nodes, node.nodeId = nodeId ∧ node.status = .running
  | _ => True

instance (graph : ExecutionGraph) : ∀ op, Decidable (graph.Enabled op)
  | .start _ | .finish _ _ => inferInstanceAs (Decidable (∃ node ∈ graph.nodes, _))
  | .poll | .retry _ _ | .cancel _ _ => inferInstanceAs (Decidable True)

def takesBack (graph : ExecutionGraph) (op : Op) (source : ExecutionNode) : Bool :=
  match op with
  | .retry nodeId _ => source.nodeId = nodeId ||
      (source.nodeId ∈ graph.downstreamNodeIds nodeId &&
        (source.status = .completed || source.status = .partially))
  | .cancel nodeId _ => source.nodeId = nodeId
  | _ => false

def Op.target : Op → Option String
  | .poll => none
  | .start nodeId | .finish nodeId _ | .retry nodeId _ | .cancel nodeId _ => some nodeId

/-- The step takes back no source of another running node. -/
def KeepsRunning (graph : ExecutionGraph) (op : Op) : Prop :=
  ∀ node ∈ graph.nodes, node.status = .running → some node.nodeId ≠ op.target →
    ∀ e ∈ graph.edges, e.toNodeId = node.nodeId → e.required = true →
      ∀ source ∈ graph.nodes, source.nodeId = e.fromNodeId → graph.takesBack op source = false

instance (graph : ExecutionGraph) (op : Op) : Decidable (graph.KeepsRunning op) :=
  inferInstanceAs (Decidable (∀ node ∈ graph.nodes, _ → _ → ∀ e ∈ graph.edges, _ → _ →
    ∀ source ∈ graph.nodes, _))

section

variable {graph : ExecutionGraph}

theorem Distinct.eq_of_nodeId (h : graph.Distinct) {a b : ExecutionNode} (ha : a ∈ graph.nodes)
    (hb : b ∈ graph.nodes) (hid : a.nodeId = b.nodeId) : a = b :=
  inj_on_of_nodup_map h ha hb hid

variable {f : ExecutionNode → ExecutionNode}

variable {nodeId : String}

theorem Safe.change {graph' : ExecutionGraph} (h : graph.Safe) (hdistinct : graph.Distinct)
    (hnodes : graph'.nodes = graph.nodes.map (changeNode nodeId f))
    (hedges : graph'.edges = graph.edges) (hid : ∀ node, (f node).nodeId = node.nodeId)
    {node : ExecutionNode} (hnode : node ∈ graph.nodes) (hnodeId : node.nodeId = nodeId)
    (hactive : isActive node = true) : graph'.Safe := by
  refine h.map hnodes hedges (changeNode_nodeId hid) ?_ ?_
  · intro other hother hactive'
    unfold changeNode at hactive'
    split at hactive'
    · rename_i hid'
      rw [hdistinct.eq_of_nodeId hother hnode (hid'.trans hnodeId.symm)]
      exact hactive
    · exact hactive'
  · intro _ _ _ _ _ _ _ source hsource _ hdone
    have hne : source.nodeId ≠ nodeId := by
      intro hid'
      rw [hdistinct.eq_of_nodeId hsource hnode (hid'.trans hnodeId.symm), isDone_iff] at hdone
      rw [isActive_iff] at hactive
      rcases hactive with hstatus | hstatus <;> simp [hstatus] at hdone
    simpa [changeNode, hne] using hdone

/-- If one node becomes inactive and of those downstream of it only running nodes stay
active, a node that is active afterwards was so before: it runs, or it is ready and
not downstream. -/
theorem active_of_changes {g : ExecutionNode → ExecutionNode}
    (hf : ∀ node, isActive (f node) = false)
    (hg : ∀ node, isActive (g node) = true → node.status = .running) {node : ExecutionNode}
    (h : isActive (changeNodes (graph.downstreamNodeIds nodeId) g (changeNode nodeId f node)) =
      true) :
    node.nodeId ≠ nodeId ∧ (node.status = .running ∨
      node.status = .ready ∧ node.nodeId ∉ graph.downstreamNodeIds nodeId) := by
  unfold changeNodes changeNode at h
  by_cases hid : node.nodeId = nodeId
  · rw [if_pos hid] at h
    split at h
    · have hrunning := hg _ h
      have hinactive := hf node
      rw [isActive, hrunning] at hinactive
      simp at hinactive
    · rw [hf] at h
      cases h
  · rw [if_neg hid] at h
    refine ⟨hid, ?_⟩
    split at h
    · exact .inl (hg node h)
    · rename_i hdownstream
      rw [isActive_iff] at h
      rcases h with h | h
      · exact .inr ⟨h, hdownstream⟩
      · exact .inl h

theorem running_of_reopenNode (node : ExecutionNode) (h : isActive (reopenNode node) = true) :
    node.status = .running := by
  rw [isActive_iff] at h
  unfold reopenNode at h
  split at h
  · simp at h
  · rename_i hstatus
    rcases h with h | h
    · simp [h] at hstatus
    · exact h

theorem running_of_blockNode (node : ExecutionNode) (h : isActive (blockNode nodeId node) = true) :
    node.status = .running := by
  rw [isActive_iff] at h
  unfold blockNode at h
  split at h
  · simp at h
  · rename_i hstatus
    rcases h with h | h
    · simp [h] at hstatus
    · exact h

theorem isDone_retryEffect {reason : String} {source : ExecutionNode}
    (hdone : source.isDone = true) (hkept : graph.takesBack (.retry nodeId reason) source = false) :
    (retryEffect graph nodeId source).isDone = true := by
  simp only [takesBack, Bool.or_eq_false_iff, decide_eq_false_iff_not, Bool.and_eq_false_imp,
    decide_eq_true_eq] at hkept
  obtain ⟨hid, hdownstream⟩ := hkept
  unfold retryEffect changeNodes changeNode
  rw [if_neg hid]
  split
  · rename_i hmem
    obtain ⟨hcompleted, hpartial⟩ := hdownstream hmem
    rw [isDone_iff] at hdone
    have hskipped : source.status = .skipped := by simpa [hcompleted, hpartial] using hdone
    unfold reopenNode
    rw [if_neg (by simp [hskipped])]
    exact isDone_iff.mpr (.inr (.inr hskipped))
  · exact hdone

theorem isDone_cancelEffect {reason reason' : String} {source : ExecutionNode}
    (hdone : source.isDone = true)
    (hkept : graph.takesBack (.cancel nodeId reason') source = false) :
    (cancelEffect graph nodeId reason source).isDone = true := by
  have hid : source.nodeId ≠ nodeId := by simpa [takesBack] using hkept
  unfold cancelEffect changeNodes changeNode
  rw [if_neg hid]
  split
  · unfold blockNode
    rw [isDone_iff] at hdone
    rw [if_neg (by rcases hdone with h | h | h <;> simp [h])]
    exact isDone_iff.mpr hdone
  · exact hdone

theorem Safe.takeBack {graph' : ExecutionGraph} (h : graph.Safe) {op : Op}
    (htarget : op.target = some nodeId) (hkeeps : graph.KeepsRunning op)
    (hnodes : graph'.nodes = graph.nodes.map f) (hedges : graph'.edges = graph.edges)
    (hid : ∀ node, (f node).nodeId = node.nodeId)
    (hreach : ∀ source, graph.takesBack op source = true →
      source.nodeId = nodeId ∨ source.nodeId ∈ graph.downstreamNodeIds nodeId)
    (hactive : ∀ node, isActive (f node) = true → node.nodeId ≠ nodeId ∧ (node.status = .running ∨
        node.status = .ready ∧ node.nodeId ∉ graph.downstreamNodeIds nodeId))
    (hdone : ∀ source, source.isDone = true → graph.takesBack op source = false →
      (f source).isDone = true) : graph'.Safe := by
  refine h.map hnodes hedges hid ?_ ?_
  · intro node _ hnode
    rw [isActive_iff]
    rcases (hactive node hnode).2 with hrunning | ⟨hready, -⟩
    · exact .inr hrunning
    · exact .inl hready
  · intro node hnode hnode' e he hto hrequired source hsource hfrom hsourceDone
    obtain ⟨hne, hstatus⟩ := hactive node hnode'
    refine hdone source hsourceDone ?_
    rcases hstatus with hrunning | ⟨-, hnot⟩
    · refine hkeeps node hnode hrunning ?_ e he hto hrequired source hsource hfrom
      rw [htarget]
      exact fun heq => hne (Option.some.inj heq)
    · -- a ready node that is kept is not downstream, so its sources are not either
      by_contra htaken
      rw [Bool.not_eq_false] at htaken
      have hsourceReach := hreach source htaken
      rw [hfrom] at hsourceReach
      have hmem := toNodeId_mem_downstream he hsourceReach
      rw [hto] at hmem
      exact hnot hmem

theorem Safe.changed (h : graph.Safe) (hdistinct : graph.Distinct) {op : Op}
    (henabled : graph.Enabled op) (hkeeps : graph.KeepsRunning op) : (graph.changed op).Safe := by
  have hnodes := changed_nodes graph op
  have hedges := changed_edges graph op
  cases op with
  | poll => exact h
  | start nodeId =>
    obtain ⟨node, hnode, hid, hstatus⟩ := henabled
    exact h.change hdistinct hnodes hedges (ExecutionNode.withStatus_nodeId _) hnode hid
      (isActive_iff.mpr (.inl hstatus))
  | finish nodeId outcome =>
    obtain ⟨node, hnode, hid, hstatus⟩ := henabled
    exact h.change hdistinct hnodes hedges (finishNode_nodeId outcome) hnode hid
      (isActive_iff.mpr (.inr hstatus))
  | retry nodeId reason =>
    refine h.takeBack rfl hkeeps hnodes hedges retryEffect_nodeId ?_
      (fun _ => active_of_changes (fun _ => rfl) running_of_reopenNode)
      (fun _ => isDone_retryEffect)
    intro source hsource
    simp only [takesBack, Bool.or_eq_true, decide_eq_true_eq, Bool.and_eq_true] at hsource
    exact hsource.imp_right (·.1)
  | cancel nodeId reason =>
    refine h.takeBack rfl hkeeps hnodes hedges cancelEffect_nodeId ?_
      (fun _ => active_of_changes (fun _ => rfl) running_of_blockNode)
      (fun _ => isDone_cancelEffect)
    intro source hsource
    exact .inl (by simpa [takesBack] using hsource)

end

/-- The graphs that are built for a task: a cooperative graph, or the graph of a plan,
whose steps have distinct identifiers. -/
inductive Built : ExecutionGraph → Prop
  | cooperative (services : TextServices) (objective : String) (requestedNodes : List String) :
    Built (buildCooperativeGraph services objective requestedNodes)
  | plan (casefold : String → String) (plan : TaskRunPlan) (contractType : Option String)
    (hsteps : (plan.steps.map (·.stepId)).Nodup) : Built (buildFromPlan casefold plan contractType)

theorem markReady_eq_refreshReadyNodes (h : ∀ node ∈ graph.nodes, node.dependencies = []) :
    graph.markReady = graph.refreshReadyNodes := by
  unfold markReady refreshReadyNodes
  congr 1
  refine map_congr_left fun node hnode => ?_
  simp [h node hnode]

theorem safe_of_pending (h : ∀ node ∈ graph.nodes, node.status = .pending) : graph.Safe := by
  intro node hnode hactive
  rw [isActive_iff, h node hnode] at hactive
  simp at hactive

theorem buildFromSpecs_cases (status : GraphStatus) (specs : List NodeSpec)
    (checkpoint : ExecutionCheckpoint) :
    ∃ fresh : ExecutionGraph, fresh.nodes = specs.map (fun spec =>
        freshNode spec.nodeId none spec.dependencies spec.outputContracts) ∧
      (buildFromSpecs status specs checkpoint = fresh ∨
        buildFromSpecs status specs checkpoint = fresh.refreshReadyNodes) := by
  unfold buildFromSpecs
  dsimp only
  split
  · exact ⟨_, rfl, .inr rfl⟩
  · exact ⟨_, rfl, .inl rfl⟩

theorem buildFromPlan_cases (casefold : String → String) (plan : TaskRunPlan)
    (contractType : Option String) :
    ∃ fresh : ExecutionGraph, fresh.nodes = plan.steps.map (fun step =>
        freshNode (Runtime.ExecutionGraph.nodeId step) (some step.stepId) []
          (contractType.filter (· ≠ "")).toList) ∧
      buildFromPlan casefold plan contractType = fresh.refreshReadyNodes := by
  refine ⟨_, rfl, markReady_eq_refreshReadyNodes ?_⟩
  intro node hnode
  obtain ⟨step, -, rfl⟩ := mem_map.mp hnode
  rfl

theorem nodeId_injective : Function.Injective fun stepId : String => "node_" ++ stepId := by
  intro a b h
  exact String.append_right_inj _ |>.mp h

theorem cooperativeNodeSpecs_nodup (services : TextServices) (objective : String)
    (requestedNodes : List String) :
    ((cooperativeNodeSpecs services objective requestedNodes).map (·.nodeId)).Nodup := by
  unfold cooperativeNodeSpecs
  dsimp only
  split <;> decide

theorem Built.safe (h : graph.Built) : graph.Distinct ∧ graph.Safe := by
  cases h with
  | cooperative services objective requestedNodes =>
    obtain ⟨fresh, hnodes, hbuilt⟩ := buildFromSpecs_cases .ready
      (cooperativeNodeSpecs services objective requestedNodes)
      ⟨none, "ready", "Cooperative ExecutionGraph created by AIpinho."⟩
    have hdistinct : fresh.Distinct := by
      unfold Distinct
      rw [hnodes, map_map]
      exact cooperativeNodeSpecs_nodup services objective requestedNodes
    have hsafe : fresh.Safe := safe_of_pending (by
      rw [hnodes]
      intro node hnode
      obtain ⟨spec, -, rfl⟩ := mem_map.mp hnode
      rfl)
    unfold buildCooperativeGraph
    rcases hbuilt with hbuilt | hbuilt
    · rw [hbuilt]
      exact ⟨hdistinct, hsafe⟩
    · rw [hbuilt]
      refine ⟨?_, hsafe.refreshReadyNodes⟩
      unfold Distinct
      rw [refreshReadyNodes_nodes, map_nodeId_of_keeps fresh.readyEffect_nodeId]
      exact hdistinct
  | plan casefold plan contractType hsteps =>
    obtain ⟨fresh, hnodes, hbuilt⟩ := buildFromPlan_cases casefold plan contractType
    have hsafe : fresh.Safe := safe_of_pending (by
      rw [hnodes]
      intro node hnode
      obtain ⟨step, -, rfl⟩ := mem_map.mp hnode
      rfl)
    rw [hbuilt]
    refine ⟨?_, hsafe.refreshReadyNodes⟩
    unfold Distinct
    rw [refreshReadyNodes_nodes, map_nodeId_of_keeps fresh.readyEffect_nodeId, hnodes, map_map]
    have hids := hsteps.map nodeId_injective
    rw [map_map] at hids
    exact hids

/-- In every run from a built graph whose retries and cancellations take back no source
of another running node, the sources of ready and running nodes are done. -/
theorem active_nodes_have_done_sources {graph : ExecutionGraph} (hbuilt : graph.Built)
    {ops : List Op}
    (hops : Along apply (fun graph op => graph.Enabled op ∧ graph.KeepsRunning op) graph ops) :
    (run apply graph ops).Safe := by
  have hinvariant : (run apply graph ops).Distinct ∧ (run apply graph ops).Safe := by
    refine run_invariant (P := fun graph => graph.Distinct ∧ graph.Safe) ?_ hbuilt.safe hops
    rintro graph op ⟨hdistinct, hsafe⟩ ⟨henabled, hkeeps⟩
    refine ⟨hdistinct.apply op, ?_⟩
    exact apply_induction Safe.of_sameWork hdistinct op hsafe
      (fun _ => hsafe.changed hdistinct henabled hkeeps) Safe.refreshReadyNodes
  exact hinvariant.2

def plainTexts : TextServices := ⟨id, id⟩

/-- A node that finishes with a status and nothing else. -/
def plainOutcome (status : String) : Outcome :=
  ⟨status, .obj [], [], [], .obj [], .obj [], .obj [], [], []⟩

def executorRuns : List Op :=
  [.start "node_planner", .finish "node_planner" (plainOutcome "completed"),
    .start "node_executor"]

theorem executor_runs_after_planner :
    (run apply (buildCooperativeGraph plainTexts "x" []) executorRuns).Safe :=
  active_nodes_have_done_sources (.cooperative plainTexts "x" []) (by decide +kernel)

/-- A retry of the planner leaves the executor running. -/
theorem retried_planner_leaves_executor_running :
    Along apply Enabled (buildCooperativeGraph plainTexts "x" [])
        (executorRuns ++ [.retry "node_planner" "again"]) ∧
      ¬(run apply (buildCooperativeGraph plainTexts "x" [])
        (executorRuns ++ [.retry "node_planner" "again"])).Safe := by
  decide +kernel

end ExecutionGraph

end AIpinho.Graph
