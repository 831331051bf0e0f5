import AIpinho.Lib.Mirror
import AIpinho.Runtime.TaskRun

/-!
# The execution graph of a plan

`ExecutionGraphService` keeps one node for each step of a plan. The loop marks nodes as started
and finished; then the status of the graph is computed anew, and nodes whose dependencies are
met become ready.
-/

namespace AIpinho.Runtime

open Lib

/-- `ExecutionGraphService._node_status`. -/
def StepStatus.nodeStatus : StepStatus → NodeStatus
  | .completed => .completed
  | .partially => .partially
  | .blocked => .blocked
  | .cancelled => .cancelled
  | .skipped => .skipped
  | _ => .failed

namespace ExecutionGraph

def isDone (node : ExecutionNode) : Bool :=
  node.status = .completed || node.status = .partially || node.status = .skipped

def isStopped (node : ExecutionNode) : Bool :=
  node.status = .blocked || node.status = .failed || node.status = .cancelled

variable (graph : ExecutionGraph)

/-- `ExecutionScheduler.ready_nodes`, for one node. -/
def isReady (node : ExecutionNode) : Bool :=
  let sources := (graph.edges.filter fun e => e.toNodeId = node.nodeId && e.required).map
    (·.fromNodeId)
  (node.status = .pending || node.status = .waiting) &&
    !sources.any (fun id => graph.nodes.any fun n => n.nodeId = id && isStopped n) &&
    sources.all (fun id => graph.nodes.any fun n => n.nodeId = id && isDone n)

def markReady : ExecutionGraph :=
  { graph with
    nodes := graph.nodes.map fun node =>
      if graph.isReady node then { node with status := .ready } else node }

def lifecycleStatus (nodes : List ExecutionNode) : GraphStatus :=
  if nodes.any (·.status = .blocked) then .blocked
  else if nodes.any (·.status = .failed) then .failed
  else if nodes.any (·.status = .cancelled) then .cancelled
  else if nodes.all isDone then .completed
  else if nodes.any (·.status = .running) then .running
  else .ready

/-- `ExecutionGraphService._refresh_lifecycle`. -/
def refreshLifecycle : ExecutionGraph :=
  { graph with status := lifecycleStatus graph.nodes }

def isNodeOf (stepId : String) (node : ExecutionNode) : Bool := node.stepId = some stepId

/-- `ExecutionGraphService.mark_step_started`. -/
def markStepStarted (stepId : String) (graph : ExecutionGraph) : ExecutionGraph :=
  if graph.nodes.any (isNodeOf stepId) then
    { graph with
      status := .running
      nodes := updateFirst (isNodeOf stepId) (fun node => { node with status := .running })
        graph.nodes }
  else graph

/-- `ExecutionGraphService.mark_step_finished`. -/
def markStepFinished (stepId : String) (status : StepStatus) (warnings violations : List String)
    (graph : ExecutionGraph) : ExecutionGraph :=
  if graph.nodes.any (isNodeOf stepId) then
    (refreshLifecycle
      { graph with
        nodes := updateFirst (isNodeOf stepId) (fun node =>
            { node with
              status := status.nodeStatus
              warnings := warnings.eraseDups
              violations := violations.eraseDups })
          graph.nodes }).markReady
  else graph

/-- `ExecutionGraphService.mark_cancelled`. -/
def markCancelled : ExecutionGraph :=
  { graph with
    status := .cancelled
    nodes := graph.nodes.map fun node =>
      if node.status = .pending ∨ node.status = .ready ∨ node.status = .running then
        { node with status := .cancelled }
      else node }

def occursIn (needle text : String) : Bool := text.toList.tails.any (needle.toList.isPrefixOf ·)

variable (casefold : String → String) (step : TaskRunStep)

def stepText : String := casefold (step.action ++ " " ++ step.stepType)

/-- `DependencyResolver._is_validation`. -/
def isValidation : Bool :=
  occursIn "validat" (stepText casefold step) || occursIn "test" (stepText casefold step)

/-- `DependencyResolver._is_reporting`. -/
def isReporting : Bool :=
  occursIn "report" (stepText casefold step) || occursIn "artifact" (stepText casefold step) ||
    occursIn "publish" (stepText casefold step)

/-- `DependencyResolver.node_id`. -/
def nodeId : String := "node_" ++ step.stepId

/-- What the resolver remembers of the steps before. -/
structure ResolverState where
  /-- The last step without a side effect. -/
  lastContext : Option String
  lastSideEffect : Option String
  previousRequired : Option String

def ResolverState.source (state : ResolverState) (step : TaskRunStep) : Option String :=
  if isValidation casefold step ∧ state.lastSideEffect.isSome then state.lastSideEffect
  else if step.sideEffect ∧ state.lastContext.isSome then state.lastContext
  else if isReporting casefold step ∧ state.previousRequired.isSome then state.previousRequired
  else if step.required then state.previousRequired
  else none

/-- `DependencyResolver.resolve`. -/
def resolveEdges : ResolverState → List TaskRunStep → List ExecutionEdge
  | _, [] => []
  | state, step :: steps =>
    let state' : ResolverState :=
      { lastContext := if step.sideEffect then state.lastContext else some (nodeId step)
        lastSideEffect := if step.sideEffect then some (nodeId step) else state.lastSideEffect
        previousRequired := if step.required then some (nodeId step) else state.previousRequired }
    ((state.source casefold step).map fun source => ⟨source, nodeId step, true⟩).toList ++
      resolveEdges state' steps

/-- `ExecutionGraphService.build_from_plan`. The edges lead from earlier to
later steps, so the check for cycles does not stop a plan with distinct steps. -/
def buildFromPlan (plan : TaskRunPlan) : ExecutionGraph :=
  markReady
    { status := if plan.status = "ready" then .ready else .blocked
      nodes := plan.steps.map fun step =>
        { nodeId := nodeId step, stepId := some step.stepId, status := .pending
          warnings := [], violations := [] }
      edges := resolveEdges casefold ⟨none, none, none⟩ plan.steps }

end ExecutionGraph

end AIpinho.Runtime
