import AIpinho.Graph.Safety

/-!
# What polling makes of a graph

A poll computes the status of a graph from its nodes alone. So it forgets why a graph
was blocked when it was built, and it forgets a cancellation unless the nodes tell
of it.
-/

namespace AIpinho.Graph

open List Lib
open AIpinho.Runtime (NodeStatus GraphStatus TaskRunPlan)

namespace ExecutionGraph

theorem pollGraph_nodes (graph : ExecutionGraph) :
    graph.pollGraph.nodes = graph.nodes.map graph.refreshLifecycle.readyEffect := rfl

theorem pollGraph_status (graph : ExecutionGraph) :
    graph.pollGraph.status = Runtime.ExecutionGraph.lifecycleStatus graph.plain.nodes := rfl

variable {graph : ExecutionGraph}

theorem any_status_iff {status : NodeStatus} :
    (graph.plain.nodes.any fun node => node.status = status) = true ↔
      ∃ node ∈ graph.nodes, node.status = status := by
  simp [plain]

/-- The graphs that the service builds. -/
inductive Assembled : ExecutionGraph → Prop
  | cooperative (services : TextServices) (objective : String) (requestedNodes : List String) :
    Assembled (buildCooperativeGraph services objective requestedNodes)
  | plan (casefold : String → String) (plan : TaskRunPlan) (contractType : Option String) :
    Assembled (buildFromPlan casefold plan contractType)
  | report (report : PlanningReport) : Assembled (buildFromPlanningReport report)

/-- However often the graph is polled, it is blocked and none of its nodes is active. -/
def StaysBlocked (graph : ExecutionGraph) : Prop :=
  ∀ n : ℕ, (pollGraph^[n] graph).status = .blocked ∧
    ∀ node ∈ (pollGraph^[n] graph).nodes, isActive node = false

theorem status_of_refreshed {fresh : ExecutionGraph}
    (h : ∀ node ∈ fresh.nodes, node.status = .pending) :
    ∀ node ∈ fresh.refreshReadyNodes.nodes, node.status ∈ [.pending, .ready, .waiting] := by
  intro node hnode
  rw [refreshReadyNodes_nodes] at hnode
  obtain ⟨before, hbefore, rfl⟩ := mem_map.mp hnode
  rcases readyEffect_cases fresh before with ⟨-, heq⟩ | ⟨-, heq⟩ | heq
  · simp [heq]
  · simp [heq]
  · simp [heq, h before hbefore]

theorem Assembled.status (h : graph.Assembled) :
    ∀ node ∈ graph.nodes, node.status ∈ [.pending, .ready, .waiting] := by
  have hspecs : ∀ status specs checkpoint, ∀ node ∈ (buildFromSpecs status specs checkpoint).nodes,
      node.status ∈ [.pending, .ready, .waiting] := by
    intro status specs checkpoint
    obtain ⟨fresh, hnodes, hbuilt⟩ := buildFromSpecs_cases status specs checkpoint
    have hpending : ∀ node ∈ fresh.nodes, node.status = .pending := by
      rw [hnodes]
      intro node hnode
      obtain ⟨spec, -, rfl⟩ := mem_map.mp hnode
      rfl
    rcases hbuilt with hbuilt | hbuilt
    · rw [hbuilt]
      intro node hnode
      simp [hpending node hnode]
    · rw [hbuilt]
      exact status_of_refreshed hpending
  cases h with
  | cooperative | report => exact hspecs _ _ _
  | plan casefold plan contractType =>
    obtain ⟨fresh, hnodes, hbuilt⟩ := buildFromPlan_cases casefold plan contractType
    rw [hbuilt]
    apply status_of_refreshed
    rw [hnodes]
    intro node hnode
    obtain ⟨step, -, rfl⟩ := mem_map.mp hnode
    rfl

theorem pollGraph_status_ne_blocked (h : ∀ node ∈ graph.nodes, node.status ≠ .blocked) :
    graph.pollGraph.status ≠ .blocked := by
  have hany : ¬(graph.plain.nodes.any fun node => node.status = .blocked) = true := by
    rw [any_status_iff]
    rintro ⟨node, hnode, hblocked⟩
    exact h node hnode hblocked
  rw [pollGraph_status]
  unfold Runtime.ExecutionGraph.lifecycleStatus
  rw [if_neg hany]
  repeat' split
  all_goals simp

/-- No graph that is built blocked stays so. -/
theorem blocked_graph_is_reopened {graph : ExecutionGraph} (hbuilt : graph.Assembled)
    (_hblocked : graph.status = .blocked) : ¬graph.StaysBlocked := by
  intro h
  refine pollGraph_status_ne_blocked ?_ (h 1).1
  intro node hnode hstatus
  have hmem := hbuilt.status node hnode
  simp [hstatus] at hmem

def cyclicReport : PlanningReport := ⟨"ready", [⟨"a", ["b"], []⟩, ⟨"b", ["a"], []⟩]⟩

theorem cyclic_graph_is_reopened : (buildFromPlanningReport cyclicReport).status = .blocked ∧
      ¬(buildFromPlanningReport cyclicReport).StaysBlocked :=
  ⟨by decide +kernel, blocked_graph_is_reopened (.report cyclicReport) (by decide +kernel)⟩

def unreadyPlan : TaskRunPlan where
  status := "blocked"
  steps := [
    { stepId := "s", stepType := "run", action := "run", required := true, sideEffect := false
      status := .pending, warnings := [], violations := [] }]
  executionId := none

/-- The graph of a plan that is not ready is ready after one poll, and so is its node. -/
theorem unready_plan_is_ready_after_poll :
    (buildFromPlan String.toLower unreadyPlan none).status = .blocked ∧
      (buildFromPlan String.toLower unreadyPlan none).pollGraph.status = .ready ∧
      ¬(buildFromPlan String.toLower unreadyPlan none).StaysBlocked := by
  have hready : (buildFromPlan String.toLower unreadyPlan none).pollGraph.status = .ready := by
    decide +kernel
  refine ⟨by decide +kernel, hready, fun h => ?_⟩
  have hblocked : (buildFromPlan String.toLower unreadyPlan none).pollGraph.status = .blocked :=
    (h 1).1
  rw [hready] at hblocked
  cases hblocked

/-- After a cancellation no node is left to run, and however often the graph is polled it
is cancelled and no node becomes ready. -/
def CancelledForGood (graph : ExecutionGraph) : Prop :=
  (∀ node ∈ graph.nodes, node.status ∉ [.pending, .waiting, .ready, .running]) ∧
    ∀ n : ℕ, (pollGraph^[n] graph).status = .cancelled ∧
      ∀ node ∈ (pollGraph^[n] graph).nodes, node.status ≠ .ready

def cancelledEffect (node : ExecutionNode) : ExecutionNode :=
  if node.status ∈ [.pending, .ready, .running] then node.withStatus .cancelled else node

theorem markCancelled_nodes (graph : ExecutionGraph) (reason : String) :
    (graph.markCancelled reason).nodes = graph.nodes.map cancelledEffect := rfl

theorem pollGraph_nodes_eq
    (h : ∀ node ∈ graph.nodes, node.status ∉ [.pending, .waiting, .ready, .running]) :
    graph.pollGraph.nodes = graph.nodes := by
  rw [pollGraph_nodes, map_congr_left (g := id), map_id]
  intro node hnode
  have hstatus := h node hnode
  rcases readyEffect_cases graph.refreshLifecycle node with ⟨hready, -⟩ | ⟨hpending, -⟩ | heq
  · rcases (isReady_iff.mp hready).1 with hs | hs <;> simp [hs] at hstatus
  · simp [hpending] at hstatus
  · exact heq

theorem lifecycleStatus_eq_cancelled_iff :
    Runtime.ExecutionGraph.lifecycleStatus graph.plain.nodes = .cancelled ↔
      (∀ node ∈ graph.nodes, node.status ∉ [.blocked, .failed]) ∧
        ∃ node ∈ graph.nodes, node.status = .cancelled := by
  unfold Runtime.ExecutionGraph.lifecycleStatus
  simp only [any_status_iff]
  constructor
  · intro h
    split at h
    · cases h
    · rename_i hblocked
      split at h
      · cases h
      · rename_i hfailed
        split at h
        · rename_i hcancelled
          refine ⟨?_, hcancelled⟩
          intro node hnode hstatus
          rcases mem_cons.mp hstatus with hs | hs
          · exact hblocked ⟨node, hnode, hs⟩
          · exact hfailed ⟨node, hnode, mem_singleton.mp hs⟩
        · split at h
          · cases h
          · split at h <;> cases h
  · rintro ⟨hnone, hcancelled⟩
    have hblocked : ¬∃ node ∈ graph.nodes, node.status = .blocked := by
      rintro ⟨node, hnode, hs⟩
      exact hnone node hnode (by simp [hs])
    have hfailed : ¬∃ node ∈ graph.nodes, node.status = .failed := by
      rintro ⟨node, hnode, hs⟩
      exact hnone node hnode (by simp [hs])
    rw [if_neg hblocked, if_neg hfailed, if_pos hcancelled]

theorem cancelledForGood_iff (hstatus : graph.status = .cancelled) : graph.CancelledForGood ↔
      (∀ node ∈ graph.nodes, node.status ∉ [.pending, .waiting, .ready, .running]) ∧
        Runtime.ExecutionGraph.lifecycleStatus graph.plain.nodes = .cancelled := by
  constructor
  · rintro ⟨hended, hpolls⟩
    exact ⟨hended, (hpolls 1).1⟩
  · rintro ⟨hended, hlifecycle⟩
    -- every poll leaves the nodes, and so the status, as they are
    have hpolls : ∀ n : ℕ, (pollGraph^[n] graph).status = .cancelled ∧
        (pollGraph^[n] graph).nodes = graph.nodes := by
      intro n
      induction n with
      | zero => exact ⟨hstatus, rfl⟩
      | succ n ih =>
        have hplain : (pollGraph^[n] graph).plain.nodes = graph.plain.nodes := by
          unfold plain
          rw [ih.2]
        rw [Function.iterate_succ_apply']
        constructor
        · rw [pollGraph_status, hplain, hlifecycle]
        · rw [pollGraph_nodes_eq, ih.2]
          rw [ih.2]
          exact hended
    refine ⟨hended, fun n => ⟨(hpolls n).1, ?_⟩⟩
    rw [(hpolls n).2]
    intro node hnode hready
    exact hended node hnode (by simp [hready])

/-- A cancellation is complete and final exactly if no node waits, is blocked or has
failed, and some node is cancelled or can be. -/
theorem cancellation_is_final_iff (graph : ExecutionGraph) (reason : String) :
    (graph.markCancelled reason).CancelledForGood ↔
      (∀ node ∈ graph.nodes, node.status ∉ [.waiting, .blocked, .failed]) ∧
        ∃ node ∈ graph.nodes, node.status ∈ [.pending, .ready, .running, .cancelled] := by
  have heffect : ∀ node : ExecutionNode, ((cancelledEffect node).status = .cancelled ↔
        node.status ∈ [.pending, .ready, .running, .cancelled]) ∧
      ((cancelledEffect node).status ∉ [.pending, .waiting, .ready, .running] ↔
        node.status ≠ .waiting) ∧
      ((cancelledEffect node).status ∈ [.blocked, .failed] ↔
        node.status ∈ [.blocked, .failed]) := by
    intro node
    unfold cancelledEffect
    cases hs : node.status <;> simp [hs]
  rw [cancelledForGood_iff rfl, lifecycleStatus_eq_cancelled_iff, markCancelled_nodes]
  simp only [forall_mem_map]
  constructor
  · rintro ⟨hended, hstopped, node', hnode', hcancelled⟩
    obtain ⟨node, hnode, rfl⟩ := mem_map.mp hnode'
    refine ⟨?_, node, hnode, (heffect node).1.mp hcancelled⟩
    intro other hother hstatus
    rcases mem_cons.mp hstatus with hs | hs
    · exact (heffect other).2.1.mp (hended other hother) hs
    · exact hstopped other hother ((heffect other).2.2.mpr hs)
  · rintro ⟨hnone, node, hnode, hcancelled⟩
    refine ⟨?_, ?_, cancelledEffect node, mem_map_of_mem hnode, (heffect node).1.mpr hcancelled⟩
    · intro other hother
      refine (heffect other).2.1.mpr fun hs => hnone other hother ?_
      rw [hs]
      exact mem_cons_self
    · intro other hother hstatus
      exact hnone other hother (mem_cons_of_mem _ ((heffect other).2.2.mp hstatus))

/-- A cancellation of a fresh graph leaves the nodes that wait. -/
theorem cancelled_graph_has_waiting_nodes :
    ¬((buildCooperativeGraph plainTexts "x" []).markCancelled "stop").CancelledForGood := by
  rw [cancelledForGood_iff rfl]
  decide +kernel

end ExecutionGraph

end AIpinho.Graph
