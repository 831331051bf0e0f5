import AIpinho.Graph.Safety

/-!
# The aggregates of a graph

A graph keeps the artifacts and memory candidates of its nodes once more, and marks the
dependencies on finished nodes. These lists only grow, and marks are never taken away.
-/

namespace AIpinho.Graph

open List Lib
open AIpinho.Runtime (NodeStatus)

namespace ExecutionGraph

/-- The aggregates of a graph are those of its nodes, and a dependency is completed
exactly if its source is done. -/
structure Mirrored (graph : ExecutionGraph) : Prop where
  artifacts : graph.artifacts.Perm (graph.nodes.flatMap (·.artifacts))
  memoryCandidates : graph.memoryCandidates.Perm (graph.nodes.flatMap (·.memoryCandidates))
  dependencies : ∀ dependency ∈ graph.dependencies,
    dependency.status = .completed ↔ graph.SourceDone dependency.sourceNodeId

theorem Mirrored.of_sameWork {a b : ExecutionGraph} (hsame : SameWork a b) (h : b.Mirrored) :
    a.Mirrored := by
  obtain ⟨hartifacts, hmemory, hdependencies⟩ := h
  refine ⟨?_, ?_, ?_⟩
  · rw [hsame.artifacts, hsame.nodes]
    exact hartifacts
  · rw [hsame.memoryCandidates, hsame.nodes]
    exact hmemory
  · unfold SourceDone at hdependencies ⊢
    rw [hsame.dependencies, hsame.nodes]
    exact hdependencies

section

variable {graph graph' : ExecutionGraph} {f : ExecutionNode → ExecutionNode}

theorem flatMap_map_eq {β : Type} {held : ExecutionNode → List β} {nodes : List ExecutionNode}
    (h : ∀ node ∈ nodes, held (f node) = held node) :
    (nodes.map f).flatMap held = nodes.flatMap held := by
  induction nodes with
  | nil => rfl
  | cons node nodes ih =>
    rw [forall_mem_cons] at h
    rw [map_cons, flatMap_cons, flatMap_cons, h.1, ih h.2]

theorem sourceDone_map_iff (hnodes : graph'.nodes = graph.nodes.map f)
    (hid : ∀ node, (f node).nodeId = node.nodeId) {nodeId : String}
    (h : ∀ node ∈ graph.nodes, node.nodeId = nodeId → (f node).isDone = node.isDone) :
    graph'.SourceDone nodeId ↔ graph.SourceDone nodeId := by
  unfold SourceDone
  rw [hnodes]
  constructor
  · rintro ⟨node', hnode', hnodeId, hdone⟩
    obtain ⟨node, hnode, rfl⟩ := mem_map.mp hnode'
    rw [hid] at hnodeId
    exact ⟨node, hnode, hnodeId, by rw [← h node hnode hnodeId, hdone]⟩
  · rintro ⟨node, hnode, hnodeId, hdone⟩
    exact ⟨f node, mem_map_of_mem hnode, by rw [hid, hnodeId], by rw [h node hnode hnodeId, hdone]⟩

theorem Mirrored.map (h : graph.Mirrored) (hnodes : graph'.nodes = graph.nodes.map f)
    (hartifacts : graph'.artifacts = graph.artifacts)
    (hmemory : graph'.memoryCandidates = graph.memoryCandidates)
    (hdependencies : graph'.dependencies = graph.dependencies)
    (hid : ∀ node, (f node).nodeId = node.nodeId)
    (hheld : ∀ node ∈ graph.nodes, (f node).artifacts = node.artifacts ∧
      (f node).memoryCandidates = node.memoryCandidates)
    (hdone : ∀ dependency ∈ graph.dependencies, ∀ node ∈ graph.nodes,
      node.nodeId = dependency.sourceNodeId → (f node).isDone = node.isDone) :
    graph'.Mirrored where
  artifacts := by
    rw [hartifacts, hnodes, flatMap_map_eq fun node hnode => (hheld node hnode).1]
    exact h.artifacts
  memoryCandidates := by
    rw [hmemory, hnodes, flatMap_map_eq fun node hnode => (hheld node hnode).2]
    exact h.memoryCandidates
  dependencies := by
    rw [hdependencies]
    intro dependency hdependency
    rw [h.dependencies dependency hdependency,
      sourceDone_map_iff hnodes hid (hdone dependency hdependency)]

theorem Mirrored.refreshReadyNodes (h : graph.Mirrored) : graph.refreshReadyNodes.Mirrored := by
  refine h.map (refreshReadyNodes_nodes graph) rfl rfl rfl graph.readyEffect_nodeId ?_
    fun _ _ node _ _ => isDone_readyEffect graph node
  intro node _
  rcases readyEffect_cases graph node with ⟨-, heq⟩ | ⟨-, heq⟩ | heq <;> rw [heq] <;>
    exact ⟨rfl, rfl⟩

end

def NoDependents (graph : ExecutionGraph) (nodeId : String) : Prop :=
  ∀ dependency ∈ graph.dependencies, dependency.sourceNodeId ≠ nodeId

instance (graph : ExecutionGraph) (nodeId : String) : Decidable (graph.NoDependents nodeId) :=
  inferInstanceAs (Decidable (∀ dependency ∈ graph.dependencies, _))

def holdsNothing (node : ExecutionNode) : Bool :=
  node.artifacts.isEmpty && node.memoryCandidates.isEmpty

/-- No node loses what it has added: what finishes or is retried holds nothing yet, what
others depend on finishes well, and no source of a dependency that is done is started
again, retried or cancelled. -/
def KeepsAggregates (graph : ExecutionGraph) : Op → Prop
  | .poll => True
  | .start nodeId => ∀ node ∈ graph.nodes, node.nodeId = nodeId → node.isDone = true →
      graph.NoDependents nodeId
  | .finish nodeId outcome => ∀ node ∈ graph.nodes, node.nodeId = nodeId →
      holdsNothing node = true ∧
        (nodeStatus outcome.status ∈ [.completed, .partially, .skipped] ∨
          graph.NoDependents nodeId)
  | .retry nodeId reason => ∀ node ∈ graph.nodes,
      (node.nodeId = nodeId → holdsNothing node = true) ∧
        (node.isDone = true → graph.takesBack (.retry nodeId reason) node = true →
          graph.NoDependents node.nodeId)
  | .cancel nodeId reason => ∀ node ∈ graph.nodes, node.isDone = true →
      graph.takesBack (.cancel nodeId reason) node = true → graph.NoDependents node.nodeId

instance (graph : ExecutionGraph) : ∀ op, Decidable (graph.KeepsAggregates op)
  | .poll => inferInstanceAs (Decidable True)
  | .start _ | .finish _ _ | .retry _ _ | .cancel _ _ =>
    inferInstanceAs (Decidable (∀ node ∈ graph.nodes, _))

section

variable {graph : ExecutionGraph}

variable {node : ExecutionNode}

theorem holdsNothing_iff :
    holdsNothing node = true ↔ node.artifacts = [] ∧ node.memoryCandidates = [] := by
  simp [holdsNothing]

variable {nodeId : String}

theorem isDone_of_retryEffect (h : (retryEffect graph nodeId node).isDone = true) :
    node.isDone = true := by
  unfold retryEffect changeNodes changeNode at h
  rw [isDone_iff] at h
  by_cases hid : node.nodeId = nodeId
  · rw [if_pos hid] at h
    split at h <;> simp [reopenNode] at h
  · rw [if_neg hid] at h
    split at h
    · unfold reopenNode at h
      split at h
      · simp at h
      · exact isDone_iff.mpr h
    · exact isDone_iff.mpr h

theorem isDone_of_cancelEffect {reason : String}
    (h : (cancelEffect graph nodeId reason node).isDone = true) : node.isDone = true := by
  unfold cancelEffect changeNodes changeNode at h
  rw [isDone_iff] at h
  by_cases hid : node.nodeId = nodeId
  · rw [if_pos hid] at h
    split at h <;> simp [blockNode] at h
  · rw [if_neg hid] at h
    split at h
    · unfold blockNode at h
      split at h
      · simp at h
      · exact isDone_iff.mpr h
    · exact isDone_iff.mpr h

theorem retryEffect_held (h : node.nodeId = nodeId → holdsNothing node = true) :
    (retryEffect graph nodeId node).artifacts = node.artifacts ∧
      (retryEffect graph nodeId node).memoryCandidates = node.memoryCandidates := by
  have hreopen : ∀ node : ExecutionNode, (reopenNode node).artifacts = node.artifacts ∧
      (reopenNode node).memoryCandidates = node.memoryCandidates := by
    intro node
    unfold reopenNode
    split <;> exact ⟨rfl, rfl⟩
  have hreset : (changeNode nodeId resetNode node).artifacts = node.artifacts ∧
      (changeNode nodeId resetNode node).memoryCandidates = node.memoryCandidates := by
    unfold changeNode
    split
    · rename_i hid
      obtain ⟨hartifacts, hmemory⟩ := holdsNothing_iff.mp (h hid)
      exact ⟨hartifacts.symm, hmemory.symm⟩
    · exact ⟨rfl, rfl⟩
  unfold retryEffect changeNodes
  split
  · rw [(hreopen _).1, (hreopen _).2]
    exact hreset
  · exact hreset

theorem cancelEffect_held {reason : String} :
    (cancelEffect graph nodeId reason node).artifacts = node.artifacts ∧
      (cancelEffect graph nodeId reason node).memoryCandidates = node.memoryCandidates := by
  unfold cancelEffect changeNodes changeNode blockNode
  repeat' split
  all_goals exact ⟨rfl, rfl⟩

theorem perm_flatMap_changeNode {β : Type} {held : ExecutionNode → List β}
    {f : ExecutionNode → ExecutionNode} {nodes : List ExecutionNode}
    (hnodup : (nodes.map (·.nodeId)).Nodup) (hnode : node ∈ nodes) (hid : node.nodeId = nodeId)
    (hempty : held node = []) :
    (nodes.flatMap held ++ held (f node)).Perm
      ((nodes.map (changeNode nodeId f)).flatMap held) := by
  obtain ⟨before, after, rfl⟩ := append_of_mem hnode
  rw [map_append, map_cons, List.nodup_append] at hnodup
  obtain ⟨-, hafter, hbefore⟩ := hnodup
  rw [nodup_cons] at hafter
  have hkeepsBefore : ∀ other ∈ before, held (changeNode nodeId f other) = held other := by
    intro other hother
    have hne : other.nodeId ≠ node.nodeId := hbefore _ (mem_map_of_mem hother) _ mem_cons_self
    rw [changeNode, if_neg (by rw [← hid]; exact hne)]
  have hkeepsAfter : ∀ other ∈ after, held (changeNode nodeId f other) = held other := by
    intro other hother
    have hne : other.nodeId ≠ node.nodeId := by
      intro heq
      exact hafter.1 (by rw [← heq]; exact mem_map_of_mem hother)
    rw [changeNode, if_neg (by rw [← hid]; exact hne)]
  have hchanged : changeNode nodeId f node = f node := if_pos hid
  rw [map_append, map_cons, flatMap_append, flatMap_append, flatMap_cons,
    flatMap_cons, flatMap_map_eq hkeepsBefore, flatMap_map_eq hkeepsAfter, hchanged, hempty,
    nil_append, append_assoc]
  exact List.perm_append_comm.append_left _

theorem Mirrored.finish (h : graph.Mirrored) (hdistinct : graph.Distinct) {outcome : Outcome}
    (hhas : graph.Has (.finish nodeId outcome))
    (hkeeps : graph.KeepsAggregates (.finish nodeId outcome)) :
    (graph.changed (.finish nodeId outcome)).Mirrored := by
  obtain ⟨node, hnode, hid⟩ := hhas
  obtain ⟨hempty, hends⟩ := hkeeps node hnode hid
  rw [holdsNothing_iff] at hempty
  have hnodes : (graph.changed (.finish nodeId outcome)).nodes =
    graph.nodes.map (changeNode nodeId (finishNode outcome)) := rfl
  refine ⟨?_, ?_, ?_⟩
  · have hadded := perm_flatMap_changeNode (f := finishNode outcome) hdistinct hnode hid hempty.1
    exact (h.artifacts.append_right _).trans hadded
  · have hadded := perm_flatMap_changeNode (f := finishNode outcome) hdistinct hnode hid hempty.2
    exact (h.memoryCandidates.append_right _).trans hadded
  · intro dependency' hdependency'
    obtain ⟨dependency, hdependency, rfl⟩ := mem_map.mp hdependency'
    by_cases hsource : dependency.sourceNodeId = nodeId
    · -- the dependency is marked, and the node has finished well since it has a dependent
      rw [if_pos hsource]
      have hdone : nodeStatus outcome.status ∈ [.completed, .partially, .skipped] :=
        hends.resolve_right fun hnone => hnone dependency hdependency hsource
      have hsourceDone :
          (graph.changed (.finish nodeId outcome)).SourceDone dependency.sourceNodeId := by
        refine ⟨changeNode nodeId (finishNode outcome) node, ?_, ?_, ?_⟩
        · rw [hnodes]
          exact mem_map_of_mem hnode
        · rw [changeNode_nodeId (finishNode_nodeId outcome), hid, hsource]
        · rw [changeNode, if_pos hid, isDone_iff, finishNode_status]
          simpa using hdone
      exact iff_of_true rfl hsourceDone
    · rw [if_neg hsource, h.dependencies dependency hdependency]
      refine (sourceDone_map_iff hnodes (changeNode_nodeId (finishNode_nodeId outcome)) ?_).symm
      intro other _ hother
      rw [changeNode, if_neg (by rw [hother]; exact hsource)]

/-- A step that keeps what nodes have added keeps the aggregates. -/
theorem Mirrored.changed (h : graph.Mirrored) (hdistinct : graph.Distinct) {op : Op}
    (hhas : graph.Has op) (hkeeps : graph.KeepsAggregates op) : (graph.changed op).Mirrored := by
  cases op with
  | poll => exact h
  | finish nodeId outcome => exact h.finish hdistinct hhas hkeeps
  | start nodeId =>
    refine h.map (changed_nodes graph (.start nodeId)) rfl rfl rfl
      (effect_nodeId graph (.start nodeId)) ?_ ?_
    · intro node _
      change (changeNode _ _ _).artifacts = _ ∧ (changeNode _ _ _).memoryCandidates = _
      unfold changeNode
      split <;> exact ⟨rfl, rfl⟩
    · intro dependency hdependency node hnode hsource
      change (changeNode _ _ _).isDone = _
      unfold changeNode
      split
      · rename_i hid
        have hnot : node.isDone = false := by
          rw [← Bool.not_eq_true]
          intro hdone
          exact hkeeps node hnode hid hdone dependency hdependency (hsource.symm.trans hid)
        rw [hnot]
        rfl
      · rfl
  | retry nodeId reason =>
    refine h.map (changed_nodes graph (.retry nodeId reason)) rfl rfl rfl
      (effect_nodeId graph (.retry nodeId reason)) ?_ ?_
    · exact fun node hnode => retryEffect_held (hkeeps node hnode).1
    · intro dependency hdependency node hnode hsource
      rw [Bool.eq_iff_iff]
      refine ⟨isDone_of_retryEffect, fun hdone => ?_⟩
      have hkept : graph.takesBack (.retry nodeId reason) node = false := by
        rw [← Bool.not_eq_true]
        intro htaken
        exact (hkeeps node hnode).2 hdone htaken dependency hdependency hsource.symm
      exact isDone_retryEffect hdone hkept
  | cancel nodeId reason =>
    refine h.map (changed_nodes graph (.cancel nodeId reason)) rfl rfl rfl
      (effect_nodeId graph (.cancel nodeId reason)) (fun _ _ => cancelEffect_held) ?_
    intro dependency hdependency node hnode hsource
    rw [Bool.eq_iff_iff]
    refine ⟨isDone_of_cancelEffect, fun hdone => ?_⟩
    have hkept : graph.takesBack (.cancel nodeId reason) node = false := by
      rw [← Bool.not_eq_true]
      intro htaken
      exact hkeeps node hnode hdone htaken dependency hdependency hsource.symm
    exact isDone_cancelEffect hdone hkept

end

theorem mirrored_of_fresh {graph : ExecutionGraph}
    (hnodes : ∀ node ∈ graph.nodes, holdsNothing node = true ∧ node.isDone = false)
    (hartifacts : graph.artifacts = []) (hmemory : graph.memoryCandidates = [])
    (hdependencies : ∀ dependency ∈ graph.dependencies, dependency.status ≠ .completed) :
    graph.Mirrored where
  artifacts := by
    have hnone : graph.nodes.flatMap (·.artifacts) = [] := by
      rw [flatMap_eq_nil_iff]
      exact fun node hnode => (holdsNothing_iff.mp (hnodes node hnode).1).1
    rw [hartifacts, hnone]
  memoryCandidates := by
    have hnone : graph.nodes.flatMap (·.memoryCandidates) = [] := by
      rw [flatMap_eq_nil_iff]
      exact fun node hnode => (holdsNothing_iff.mp (hnodes node hnode).1).2
    rw [hmemory, hnone]
  dependencies := by
    intro dependency hdependency
    refine iff_of_false (hdependencies dependency hdependency) ?_
    rintro ⟨node, hnode, -, hdone⟩
    rw [(hnodes node hnode).2] at hdone
    cases hdone

theorem buildFromSpecs_mirrored (status : Runtime.GraphStatus) (specs : List NodeSpec)
    (checkpoint : ExecutionCheckpoint) : (buildFromSpecs status specs checkpoint).Mirrored := by
  unfold buildFromSpecs
  dsimp only
  generalize hspecs : (specs.map fun spec =>
    freshNode spec.nodeId none spec.dependencies spec.outputContracts) = nodes
  have hfresh : (assemble status nodes (dependencyEdges nodes) (nodeDependencies nodes)
      checkpoint).Mirrored := by
    refine mirrored_of_fresh ?_ rfl rfl ?_
    · intro node hnode
      change node ∈ nodes at hnode
      rw [← hspecs] at hnode
      obtain ⟨spec, -, rfl⟩ := mem_map.mp hnode
      exact ⟨rfl, rfl⟩
    · intro dependency hdependency
      obtain ⟨node, -, hdependency⟩ := mem_flatMap.mp hdependency
      obtain ⟨source, -, rfl⟩ := mem_map.mp hdependency
      simp
  split
  · exact hfresh.refreshReadyNodes
  · exact hfresh

/-- In every run from a fresh cooperative graph in which no node loses what it has added,
the aggregates show the nodes. -/
theorem aggregates_mirror_nodes (services : TextServices) (objective : String)
    (requestedNodes : List String) {ops : List Op}
    (hops : Along apply KeepsAggregates (buildCooperativeGraph services objective requestedNodes)
      ops) :
    (run apply (buildCooperativeGraph services objective requestedNodes) ops).Mirrored := by
  have hstart : (buildCooperativeGraph services objective requestedNodes).Distinct ∧
      (buildCooperativeGraph services objective requestedNodes).Mirrored :=
    ⟨(Built.cooperative services objective requestedNodes).safe.1, buildFromSpecs_mirrored _ _ _⟩
  refine (run_invariant (P := fun graph => graph.Distinct ∧ graph.Mirrored) ?_ hstart hops).2
  rintro graph op ⟨hdistinct, hmirrored⟩ hkeeps
  refine ⟨hdistinct.apply op, ?_⟩
  exact apply_induction Mirrored.of_sameWork hdistinct op hmirrored
    (fun hhas => hmirrored.changed hdistinct hhas hkeeps) Mirrored.refreshReadyNodes

def plannerFinishes : List Op :=
  [.start "node_planner",
    .finish "node_planner" { plainOutcome "completed" with artifactRefs := [.str "plan"] }]

theorem planner_artifact_is_mirrored :
    (run apply (buildCooperativeGraph plainTexts "x" []) plannerFinishes).Mirrored :=
  aggregates_mirror_nodes plainTexts "x" [] (by decide +kernel)

/-- A retry of the planner leaves its artifact with the graph. -/
theorem retried_planner_leaves_artifact : ¬(run apply (buildCooperativeGraph plainTexts "x" [])
      (plannerFinishes ++ [.retry "node_planner" "again"])).Mirrored := by
  intro h
  have hlength := h.artifacts.length_eq
  exact absurd hlength (by decide +kernel)

end ExecutionGraph

end AIpinho.Graph
