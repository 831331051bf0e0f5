import AIpinho.Lib.Digraph
import AIpinho.Lib.Runs
import AIpinho.Runtime.ExecutionGraph

/-!
# The execution graph service

`ExecutionGraphService` with all that its operations read and write: the results and artifacts
of nodes, the dependencies between them, and the aggregates that the graph keeps of its nodes.
Timestamps, metrics and the texts that describe a node are left out.
-/

namespace AIpinho.Graph

open Lib
open AIpinho.Runtime (NodeStatus GraphStatus ExecutionEdge TaskRunStep TaskRunPlan)

structure ExecutionNode extends Runtime.ExecutionNode where
  dependencies : List String
  contracts : List String
  outputs : Json
  outputSummary : Json
  artifacts : List Json
  memoryCandidates : List Json
  speakertruth : Json
  review : Json
  retryCount : ℕ

inductive DependencyStatus
  | pending | completed | blocked
  deriving DecidableEq

structure ExecutionDependency where
  sourceNodeId : String
  targetNodeId : String
  status : DependencyStatus
  outputContract : Option String

structure ExecutionResult where
  nodeId : String
  status : NodeStatus
  outputContract : Option String
  outputs : Json
  artifactRefs : List Json
  memoryCandidates : List Json
  speakertruth : Json
  review : Json
  validation : Json

structure ExecutionCheckpoint where
  nodeId : Option String
  status : String
  summary : String

structure ExecutionLifecycle where
  status : GraphStatus
  currentNodeId : Option String
  completedNodeIds : List String
  blockedNodeIds : List String
  failedNodeIds : List String
  cancelledNodeIds : List String

structure ExecutionGraph where
  status : GraphStatus
  nodes : List ExecutionNode
  edges : List ExecutionEdge
  dependencies : List ExecutionDependency
  results : List ExecutionResult
  checkpoints : List ExecutionCheckpoint
  lifecycle : ExecutionLifecycle
  artifacts : List Json
  memoryCandidates : List Json
  warnings : List String

def graphStatusText : GraphStatus → String
  | .created => "created"
  | .ready => "ready"
  | .waiting => "waiting"
  | .running => "running"
  | .completed => "completed"
  | .partially => "partial"
  | .blocked => "blocked"
  | .failed => "failed"
  | .cancelled => "cancelled"
  | .timeout => "timeout"

/-- `_node_status`. -/
def nodeStatus (status : String) : NodeStatus :=
  if status = "completed" then .completed
  else if status = "partial" then .partially
  else if status = "blocked" then .blocked
  else if status = "cancelled" then .cancelled
  else if status = "skipped" then .skipped
  else .failed

namespace ExecutionNode

/-- Whether a node is in a status that lets its successors start. -/
def isDone (node : ExecutionNode) : Bool := Runtime.ExecutionGraph.isDone node.toExecutionNode

variable (status : NodeStatus)

variable (node : ExecutionNode)

def withStatus : ExecutionNode :=
  { node with status := status }

@[simp]
theorem withStatus_status : (node.withStatus status).status = status := rfl

@[simp]
theorem withStatus_nodeId : (node.withStatus status).nodeId = node.nodeId := rfl

@[simp]
theorem withStatus_artifacts : (node.withStatus status).artifacts = node.artifacts := rfl

@[simp]
theorem withStatus_memoryCandidates :
    (node.withStatus status).memoryCandidates = node.memoryCandidates := rfl

end ExecutionNode

namespace ExecutionGraph

variable (graph : ExecutionGraph)

/-- The graph as a task run carries it. -/
def plain : Runtime.ExecutionGraph where
  status := graph.status
  nodes := graph.nodes.map ExecutionNode.toExecutionNode
  edges := graph.edges

def nodeIdsIn (statuses : List NodeStatus) (nodes : List ExecutionNode) : List String :=
  (nodes.filter (·.status ∈ statuses)).map (·.nodeId)

/-- `_refresh_lifecycle`. -/
def refreshLifecycle (graph : ExecutionGraph) : ExecutionGraph :=
  let status := graph.plain.refreshLifecycle.status
  { graph with
    status := status
    lifecycle :=
      { graph.lifecycle with
        status := status
        completedNodeIds := nodeIdsIn [.completed, .partially] graph.nodes
        blockedNodeIds := nodeIdsIn [.blocked] graph.nodes
        failedNodeIds := nodeIdsIn [.failed] graph.nodes
        cancelledNodeIds := nodeIdsIn [.cancelled] graph.nodes } }

/-- Mark the nodes that `ExecutionScheduler.ready_nodes` gives. -/
def markReady : ExecutionGraph :=
  { graph with
    nodes := graph.nodes.map fun node =>
      if graph.plain.isReady node.toExecutionNode then node.withStatus .ready else node }

/-- `_refresh_ready_nodes`. -/
def refreshReadyNodes : ExecutionGraph :=
  { graph with
    nodes := graph.nodes.map fun node =>
      if graph.plain.isReady node.toExecutionNode then node.withStatus .ready
      else if node.status = .pending ∧ node.dependencies ≠ [] then node.withStatus .waiting
      else node }

def checkpoint (nodeId : Option String) (status summary : String) (graph : ExecutionGraph) :
    ExecutionGraph :=
  { graph with checkpoints := graph.checkpoints ++ [⟨nodeId, status, summary⟩] }

variable (nodeId : String)

variable (node : ExecutionNode)

/-- `poll_graph`. -/
def pollGraph : ExecutionGraph :=
  let graph := graph.refreshLifecycle.refreshReadyNodes
  graph.checkpoint none (graphStatusText graph.status)
    "ExecutionGraph polled from node runtime state."

def isNode : Bool := node.nodeId = nodeId

def isNodeOf (stepId : String) (node : ExecutionNode) : Bool := node.stepId = some stepId

def markStarted (isMeant : ExecutionNode → Bool) (graph : ExecutionGraph) : ExecutionGraph :=
  match graph.nodes.find? isMeant with
  | none => graph
  | some node =>
    { graph with
      status := .running
      lifecycle := { graph.lifecycle with status := .running, currentNodeId := some node.nodeId }
      nodes := updateFirst isMeant (·.withStatus .running) graph.nodes }
      |>.checkpoint (some node.nodeId) "running" ("Node " ++ node.nodeId ++ " started.")

/-- `mark_step_started`. -/
def markStepStarted (stepId : String) (graph : ExecutionGraph) : ExecutionGraph :=
  graph.markStarted (isNodeOf stepId)

/-- `mark_node_started`. -/
def markNodeStarted (graph : ExecutionGraph) : ExecutionGraph :=
  graph.markStarted (isNode nodeId)

def checkpointFinished (status : NodeStatus) (graph : ExecutionGraph) : ExecutionGraph :=
  graph.checkpoint (some nodeId) status.text
    ("Node " ++ nodeId ++ " finished with status " ++ status.text ++ ".")

/-- `mark_step_finished`. -/
def markStepFinished (stepId status : String) (outputSummary : Json)
    (warnings violations : List String) (graph : ExecutionGraph) : ExecutionGraph :=
  match graph.nodes.find? (isNodeOf stepId) with
  | none => graph
  | some node =>
    { graph with
      lifecycle := { graph.lifecycle with currentNodeId := none }
      nodes := updateFirst (isNodeOf stepId) (fun node =>
          { node with
            status := nodeStatus status
            outputSummary := outputSummary
            warnings := warnings.eraseDups
            violations := violations.eraseDups })
        graph.nodes }
      |>.refreshLifecycle |>.markReady |>.checkpointFinished node.nodeId (nodeStatus status)

/-- What `mark_node_finished` is told of the node. -/
structure Outcome where
  status : String
  outputs : Json
  artifactRefs : List Json
  memoryCandidates : List Json
  speakertruth : Json
  review : Json
  validation : Json
  warnings : List String
  violations : List String

variable (outcome : Outcome)

def finishNode (node : ExecutionNode) : ExecutionNode :=
  { node with
    status := nodeStatus outcome.status
    outputs := outcome.outputs
    outputSummary := outcome.outputs
    artifacts := outcome.artifactRefs
    memoryCandidates := outcome.memoryCandidates
    speakertruth := outcome.speakertruth
    review := outcome.review
    warnings := outcome.warnings.eraseDups
    violations := outcome.violations.eraseDups }

variable (nodes : List ExecutionNode)

/-- `_node_output_contract`. -/
def nodeOutputContract : Option String :=
  (nodes.find? (isNode nodeId)).bind (·.contracts.head?)

def nodeResult : ExecutionResult where
  nodeId := nodeId
  status := nodeStatus outcome.status
  outputContract := nodeOutputContract nodeId nodes
  outputs := outcome.outputs
  artifactRefs := outcome.artifactRefs
  memoryCandidates := outcome.memoryCandidates
  speakertruth := outcome.speakertruth
  review := outcome.review
  validation := outcome.validation

/-- `_mark_edges_completed_from`. -/
def markEdgesCompletedFrom (dependencies : List ExecutionDependency) : List ExecutionDependency :=
  dependencies.map fun dependency =>
    if dependency.sourceNodeId = nodeId then { dependency with status := .completed }
    else dependency

/-- `mark_node_finished`. -/
def markNodeFinished (graph : ExecutionGraph) : ExecutionGraph :=
  match graph.nodes.find? (isNode nodeId) with
  | none => graph
  | some _ =>
    { graph with
      nodes := updateFirst (isNode nodeId) (finishNode outcome) graph.nodes
      results := graph.results ++ [nodeResult nodeId outcome graph.nodes]
      artifacts := graph.artifacts ++ outcome.artifactRefs
      memoryCandidates := graph.memoryCandidates ++ outcome.memoryCandidates
      lifecycle := { graph.lifecycle with currentNodeId := none }
      dependencies := markEdgesCompletedFrom nodeId graph.dependencies }
      |>.refreshLifecycle |>.refreshReadyNodes
      |>.checkpointFinished nodeId (nodeStatus outcome.status)

/-- `_downstream_node_ids`. -/
def downstreamNodeIds : List String :=
  Digraph.downstream (graph.edges.map fun e => (e.fromNodeId, e.toNodeId)) nodeId

def updateNodes (f : ExecutionNode → ExecutionNode) (nodeIds : List String)
    (nodes : List ExecutionNode) : List ExecutionNode :=
  nodeIds.foldl (fun nodes nodeId => updateFirst (isNode nodeId) f nodes) nodes

def resetNode : ExecutionNode :=
  { node with
    retryCount := node.retryCount + 1
    status := .pending
    outputs := .obj []
    outputSummary := .obj []
    artifacts := []
    memoryCandidates := []
    speakertruth := .obj []
    review := .obj []
    warnings := []
    violations := [] }

/-- A node after a retried one is pending again, unless it runs or is skipped or
cancelled. -/
def reopenNode : ExecutionNode :=
  if node.status ∈ [.ready, .waiting, .blocked, .failed, .completed, .partially] then
    node.withStatus .pending
  else node

variable (reason : String)

/-- `retry_node`. -/
def retryNode (graph : ExecutionGraph) : ExecutionGraph :=
  match graph.nodes.find? (isNode nodeId) with
  | none => graph
  | some _ =>
    { graph with
      nodes := updateNodes reopenNode (graph.downstreamNodeIds nodeId)
        (updateFirst (isNode nodeId) resetNode graph.nodes) }
      |>.checkpoint (some nodeId) "pending" reason |>.refreshLifecycle |>.refreshReadyNodes

def stopNode (node : ExecutionNode) : ExecutionNode :=
  { node with status := .cancelled, violations := (node.violations ++ [reason]).eraseDups }

def blockNode : ExecutionNode :=
  if node.status ∈ [.pending, .ready, .waiting] then
    { node with
      status := .blocked
      violations := (node.violations ++ ["dependency_cancelled:" ++ nodeId]).eraseDups }
  else node

/-- `cancel_node`. -/
def cancelNode (graph : ExecutionGraph) : ExecutionGraph :=
  match graph.nodes.find? (isNode nodeId) with
  | none => graph
  | some _ =>
    { graph with
      nodes := updateNodes (blockNode nodeId) (graph.downstreamNodeIds nodeId)
        (updateFirst (isNode nodeId) (stopNode reason) graph.nodes) }
      |>.checkpoint (some nodeId) "cancelled" reason |>.refreshLifecycle

/-- `mark_cancelled`. -/
def markCancelled (graph : ExecutionGraph) : ExecutionGraph :=
  let nodes := graph.nodes.map fun node =>
    if node.status ∈ [.pending, .ready, .running] then node.withStatus .cancelled else node
  { graph with
    status := .cancelled
    nodes := nodes
    lifecycle :=
      { graph.lifecycle with
        status := .cancelled
        cancelledNodeIds := nodeIdsIn [.cancelled] nodes } }
    |>.checkpoint none "cancelled" reason

def freshNode (stepId : Option String) (dependencies contracts : List String) : ExecutionNode where
  nodeId := nodeId
  stepId := stepId
  status := .pending
  warnings := []
  violations := []
  dependencies := dependencies
  contracts := contracts
  outputs := .obj []
  outputSummary := .obj []
  artifacts := []
  memoryCandidates := []
  speakertruth := .obj []
  review := .obj []
  retryCount := 0

def assemble (status : GraphStatus) (nodes : List ExecutionNode) (edges : List ExecutionEdge)
    (dependencies : List ExecutionDependency) (checkpoint : ExecutionCheckpoint) :
    ExecutionGraph :=
  let acyclic := Digraph.isAcyclic (nodes.map (·.nodeId))
    (edges.map fun e => (e.fromNodeId, e.toNodeId))
  let status := if acyclic then status else .blocked
  { status := status
    nodes := nodes
    edges := edges
    dependencies := dependencies
    results := []
    checkpoints := [checkpoint]
    lifecycle := ⟨status, none, [], [], [], []⟩
    artifacts := []
    memoryCandidates := []
    warnings := if acyclic then [] else ["execution_graph_cycle_detected"] }

/-- `build_from_plan`. -/
def buildFromPlan (casefold : String → String) (plan : TaskRunPlan)
    (contractType : Option String) : ExecutionGraph :=
  let nodes := plan.steps.map fun step =>
    freshNode (Runtime.ExecutionGraph.nodeId step) (some step.stepId) []
      (contractType.filter (· ≠ "")).toList
  markReady (assemble (if plan.status = "ready" then .ready else .blocked) nodes
    (Runtime.ExecutionGraph.resolveEdges casefold ⟨none, none, none⟩ plan.steps) []
    ⟨none, plan.status, "ExecutionGraph built from TaskRunPlan."⟩)

/-- What a node of a cooperative graph is built from. -/
structure NodeSpec where
  nodeId : String
  dependencies : List String
  outputContracts : List String

def dependencyEdges : List ExecutionEdge :=
  nodes.flatMap fun node => node.dependencies.map fun source => ⟨source, node.nodeId, true⟩

def nodeDependencies : List ExecutionDependency :=
  nodes.flatMap fun node => node.dependencies.map fun source =>
    ⟨source, node.nodeId, .pending, nodeOutputContract source nodes⟩

def buildFromSpecs (status : GraphStatus) (specs : List NodeSpec)
    (checkpoint : ExecutionCheckpoint) : ExecutionGraph :=
  let nodes := specs.map fun spec =>
    freshNode spec.nodeId none spec.dependencies spec.outputContracts
  let graph := assemble status nodes (dependencyEdges nodes) (nodeDependencies nodes) checkpoint
  if graph.warnings = [] then graph.refreshReadyNodes else graph

/-- Stripping and case folding of texts. -/
structure TextServices where
  strip : String → String
  casefold : String → String

/-- `_cooperative_node_specs`. -/
def cooperativeNodeSpecs (services : TextServices) (objective : String)
    (requestedNodes : List String) : List NodeSpec :=
  let requested := (requestedNodes.filter (services.strip · ≠ "")).map fun item =>
    services.casefold (services.strip item)
  let text := services.casefold objective
  let wantsVisual := requested.any (· ∈ ["vision", "ocr"]) ||
    ["android", "ui", "visual", "imagem", "screenshot", "tela", "ocr"].any
      (Runtime.ExecutionGraph.occursIn · text)
  let parallelNodes : List NodeSpec :=
    [⟨"node_executor", ["node_planner"], ["executor_result", "patch_or_analysis_artifact"]⟩,
      ⟨"node_debugger", ["node_planner"], ["debugger_result"]⟩] ++
    if wantsVisual then
      [⟨"node_vision", ["node_planner"], ["vision_result"]⟩,
        ⟨"node_ocr", ["node_planner"], ["ocr_result"]⟩]
    else []
  [⟨"node_planner", [], ["plan_result"]⟩] ++ parallelNodes ++
    [⟨"node_review", parallelNodes.map (·.nodeId), ["review_result"]⟩,
      ⟨"node_memory", ["node_review"], ["memory_candidates"]⟩,
      ⟨"node_supervisor", ["node_review", "node_memory"], ["supervisor_result"]⟩,
      ⟨"node_final", ["node_supervisor"], ["final_result"]⟩]

/-- `build_cooperative_graph`. -/
def buildCooperativeGraph (services : TextServices) (objective : String)
    (requestedNodes : List String) : ExecutionGraph :=
  buildFromSpecs .ready (cooperativeNodeSpecs services objective requestedNodes)
    ⟨none, "ready", "Cooperative ExecutionGraph created by AIpinho."⟩

structure PlanningReport where
  status : String
  nodes : List NodeSpec

/-- `build_from_planning_report`. -/
def buildFromPlanningReport (report : PlanningReport) : ExecutionGraph :=
  buildFromSpecs (if report.status = "ready" then .ready else .blocked) report.nodes
    ⟨none, report.status, "ExecutionGraph created from Intelligent Planner strategy."⟩

end ExecutionGraph

end AIpinho.Graph
