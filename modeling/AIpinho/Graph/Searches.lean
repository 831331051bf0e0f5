import AIpinho.Graph.Steps
import AIpinho.Semantics.Revision

/-!
# The searches in a graph

The check for cycles, in the execution graph service and in the compiler and the revision of
semantic graphs, and the search for what is downstream of a node. Each works off a list that
grows on the way, and ends in every graph.
-/

namespace AIpinho.Graph

open Lib
open AIpinho.Runtime (GraphStatus ExecutionEdge)

/-- `ExecutionGraphService._is_acyclic`. -/
def isAcyclic (nodes : List ExecutionNode) (edges : List ExecutionEdge) : Bool :=
  Digraph.isAcyclic (nodes.map (·.nodeId)) (edges.map fun e => (e.fromNodeId, e.toNodeId))

/-- A check for cycles ends, and returns `true` exactly if each end of an edge is a node and
there is no cycle, in whatever order it goes over the nodes. -/
structure ChecksCycles {Node Arrow : Type} (nodeId : Node → String)
    (ends : Arrow → String × String) (check : List Node → List Arrow → Bool) : Prop where
  terminates : ∀ (nodes : List Node) (edges : List Arrow),
    Digraph.Checked (nodes.map nodeId) (edges.map ends) (check nodes edges)
  exact : ∀ (nodes : List Node) (edges : List Arrow) (result : Bool),
    Digraph.Checked (nodes.map nodeId) (edges.map ends) result → (result = true ↔
      (∀ e ∈ edges, (ends e).1 ∈ nodes.map nodeId ∧ (ends e).2 ∈ nodes.map nodeId) ∧
        Digraph.Acyclic (edges.map ends))

theorem checksCycles_of_isAcyclic {Node Arrow : Type} (nodeId : Node → String)
    (ends : Arrow → String × String) :
    ChecksCycles nodeId ends fun nodes edges =>
      Digraph.isAcyclic (nodes.map nodeId) (edges.map ends) where
  terminates _ _ := Digraph.checked_isAcyclic _ _
  exact _ _ _ h := by rw [h.iff, List.forall_mem_map]

/-- The three checks: of execution graphs, of the compiler and of the revision service. -/
theorem cycle_checks_are_exact : ChecksCycles (fun node : ExecutionNode => node.nodeId)
      (fun e : ExecutionEdge => (e.fromNodeId, e.toNodeId)) isAcyclic ∧
    ChecksCycles Semantics.SemanticWorkUnitContract.workUnitId
      (fun edge : Semantics.SemanticDependencyEdge =>
        (edge.producerWorkUnitId, edge.consumerWorkUnitId)) Semantics.isAcyclicGraph ∧
    ChecksCycles Semantics.SemanticWorkUnitContract.workUnitId
      (fun edge : Semantics.SemanticDependencyEdge =>
        (edge.producerWorkUnitId, edge.consumerWorkUnitId)) Semantics.isAcyclicRevision :=
  ⟨checksCycles_of_isAcyclic _ _, checksCycles_of_isAcyclic _ _, checksCycles_of_isAcyclic _ _⟩

/-- The search for what is downstream of a node ends, and finds the nodes that can be reached
over one or more edges, each of them once. -/
theorem downstream_is_exact (graph : ExecutionGraph) (nodeId : String) :
    Digraph.Collects graph.links (Digraph.successors graph.links nodeId).reverse []
        (graph.downstreamNodeIds nodeId) ∧
      (graph.downstreamNodeIds nodeId).Nodup ∧
      ∀ id, id ∈ graph.downstreamNodeIds nodeId ↔
        Relation.TransGen (Digraph.Edge graph.links) nodeId id :=
  ⟨Digraph.collects_downstream _ _, Digraph.downstream_nodup _ _, fun _ =>
    Digraph.mem_downstream_iff⟩

end AIpinho.Graph
