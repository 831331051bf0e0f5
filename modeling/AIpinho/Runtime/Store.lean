import AIpinho.Lib.Program
import AIpinho.Runtime.EventLog
import AIpinho.Runtime.TaskRun

/-!
# The store of one run

A run is three documents, `run.json`, `events.json` and `result.json`, with an index and the
payload files. Each method of `TaskRunStore` that reads or writes one of them is one operation;
a service is a program over these operations.
-/

namespace AIpinho.Runtime

open Lib

/-- The files of one run. -/
structure RunFiles where
  /-- `run.json`. -/
  run : Option TaskRun
  /-- The status in `run_index.json`. -/
  index : Option TaskRunStatus
  /-- `events.json`. -/
  events : List TaskRunEvent
  /-- `result.json`. -/
  result : Option TaskRunResult
  /-- The files under `payload_refs`. -/
  payloads : PayloadFiles

/-- What reading a run gives: nothing, a document that fails the schema, or a
run. -/
inductive RunRead
  | missing
  | invalid
  | found (run : TaskRun)

/-- A read document, checked against the schema. -/
def RunRead.ofRun : Option TaskRun → RunRead
  | none => .missing
  | some run => if run.isValid then .found run else .invalid

namespace RunFiles

/-- `get_run`. -/
def getRun (files : RunFiles) : RunRead := .ofRun (files.run.map (·.hydrated files.payloads))

/-- `get_run_lightweight`. -/
def getRunLightweight (files : RunFiles) : RunRead := .ofRun (files.run.map (·.projected))

/-- `update_run`. -/
def updateRun (codec : Codec) (run : TaskRun) (files : RunFiles) : RunFiles :=
  { files with
    run := some (run.stored codec)
    index := some run.status
    payloads := files.payloads.writeAll codec run.runId run.spilled }

def nextEventId (files : RunFiles) : String :=
  "task_run_event_" ++ toString (files.events.length + 1)

/-- `append_event` for a new event, which receives its identifier
here. -/
def appendEvent (codec : Codec) (runId : String) (e : TaskRunEvent) (files : RunFiles) : RunFiles :=
  let e := { e with eventId := files.nextEventId, runId := runId }
  let events := Runtime.appendEvent codec runId ⟨files.nextEventId, e.timestamp⟩ e files.events
  { files with
    events := events
    payloads := files.payloads.writeAll codec runId (spilledEventPayloads events) }

/-- `_append_terminalization_ignored`. -/
def ignoreTerminalization (codec : Codec) (runId attemptedStatus reasonCode timestamp : String)
    (files : RunFiles) : RunFiles :=
  match firstTerminalEvent files.events with
  | none => files
  | some terminal =>
    let events := appendTerminalizationIgnored codec runId ⟨files.nextEventId, timestamp⟩ terminal
      attemptedStatus reasonCode files.events
    { files with
      events := events
      payloads := files.payloads.writeAll codec runId (spilledEventPayloads events) }

end RunFiles

def ResultStatus.runStatus : ResultStatus → TaskRunStatus
  | .completed => .completed
  | .completedWithLimitations => .partially
  | .partially => .partially
  | .failed => .failed
  | .cancelled => .cancelled
  | .blocked => .blocked

def TaskRun.cohered (now : String) (status : ResultStatus) (run : TaskRun) : TaskRun :=
  { run with
    status := status.runStatus
    finishedAt := if run.finishedAt.getD "" = "" then some now else run.finishedAt
    currentStepId := none
    revision := run.revision + 1 }

def TaskRun.isCoherent (status : ResultStatus) (run : TaskRun) : Bool :=
  run.status = status.runStatus && run.finishedAt.getD "" ≠ "" && run.currentStepId.isNone

namespace RunFiles

/-- `_cohere_terminal_result`: the saved document is changed and
written again as it is, without reading its payloads. -/
def cohereTerminalResult (codec : Codec) (now : String) (status : ResultStatus)
    (files : RunFiles) : RunFiles :=
  match files.run with
  | none => files
  | some run =>
    if run.isCoherent status then files
    else files.updateRun codec (run.cohered now status)

/-- `save_result`. -/
def saveResult (codec : Codec) (now : String) (result : TaskRunResult) (files : RunFiles) :
    RunFiles :=
  cohereTerminalResult codec now result.status
    { files with result := some (result.mapText sanitizeText) }

end RunFiles

/-- The operations of the services on the files of a run. -/
inductive RunOp
  | getRun
  /-- `get_run`, called to look for a request to cancel before the step at an
  index. -/
  | getLatest (index : ℕ)
  | getRunIndex
  | updateRun (run : TaskRun)
  | getEvents
  | appendEvent (e : TaskRunEvent)
  /-- `_append_terminalization_ignored`. -/
  | ignoreTerminalization (attemptedStatus reasonCode timestamp : String)
  /-- `_read_result_model`. -/
  | readResult
  /-- `save_result`, at a given time. -/
  | saveResult (now : String) (result : TaskRunResult)
  /-- `_cohere_terminal_result` of a result that was read. -/
  | cohereTerminalResult (now : String) (result : TaskRunResult)
  | executeStep (index : ℕ)

def runStore : Signature where
  Op := RunOp
  Answer
    | .getRun => RunRead
    | .getLatest _ => RunRead
    | .getRunIndex => Option TaskRunStatus
    | .updateRun _ => Unit
    | .getEvents => List TaskRunEvent
    | .appendEvent _ => String
    | .ignoreTerminalization .. => Unit
    | .readResult => Option TaskRunResult
    | .saveResult .. => Unit
    | .cohereTerminalResult .. => Unit
    | .executeStep _ => Unit

/-- A service that works on the files of a run. -/
abbrev RunProgram (α : Type) : Type := Program runStore α

def runHandler (codec : Codec) (runId : String) : Handler runStore RunFiles
  | .getRun, files => (files.getRun, files)
  | .getLatest _, files => (files.getRun, files)
  | .getRunIndex, files => (files.index, files)
  | .updateRun run, files => ((), files.updateRun codec run)
  | .getEvents, files => (files.events, files)
  | .appendEvent e, files => (files.nextEventId, files.appendEvent codec runId e)
  | .ignoreTerminalization attemptedStatus reasonCode timestamp, files =>
    ((), files.ignoreTerminalization codec runId attemptedStatus reasonCode timestamp)
  | .readResult, files => (files.result, files)
  | .saveResult now result, files => ((), files.saveResult codec now result)
  | .cohereTerminalResult now result, files =>
    ((), files.cohereTerminalResult codec now result.status)
  | .executeStep _, files => ((), files)

namespace RunProgram

/-- Read the run; a missing run is reported with an error, as a document that
fails the schema is. -/
def getRun (notFound : String) : RunProgram TaskRun := do
  match ← Program.perform (S := runStore) .getRun with
  | .missing => .raise notFound
  | .invalid => .raise "ValidationError"
  | .found run => pure run

def getRun? : RunProgram (Option TaskRun) := do
  match ← Program.perform (S := runStore) .getRun with
  | .missing => pure none
  | .invalid => .raise "ValidationError"
  | .found run => pure (some run)

def getLatest (index : ℕ) : RunProgram (Option TaskRun) := do
  match ← Program.perform (S := runStore) (.getLatest index) with
  | .missing => pure none
  | .invalid => .raise "ValidationError"
  | .found run => pure (some run)

def getRunIndex : RunProgram (Option TaskRunStatus) := Program.perform (S := runStore) .getRunIndex

def updateRun (run : TaskRun) : RunProgram Unit := Program.perform (S := runStore) (.updateRun run)

def getEvents : RunProgram (List TaskRunEvent) := Program.perform (S := runStore) .getEvents

def appendEvent (e : TaskRunEvent) : RunProgram String :=
  Program.perform (S := runStore) (.appendEvent e)

def ignoreTerminalization (attemptedStatus reasonCode timestamp : String) : RunProgram Unit :=
  Program.perform (S := runStore) (.ignoreTerminalization attemptedStatus reasonCode timestamp)

def readResult : RunProgram (Option TaskRunResult) := Program.perform (S := runStore) .readResult

def saveResult (now : String) (result : TaskRunResult) : RunProgram Unit :=
  Program.perform (S := runStore) (.saveResult now result)

def cohereTerminalResult (now : String) (result : TaskRunResult) : RunProgram Unit :=
  Program.perform (S := runStore) (.cohereTerminalResult now result)

def executeStep (index : ℕ) : RunProgram Unit :=
  Program.perform (S := runStore) (.executeStep index)

end RunProgram

def newEvent (now type status message : String) (metadata : List (String × Json)) : TaskRunEvent :=
  { eventId := "", runId := "", sequence := 0, type := type, status := status
    message := message, stepId := none, timestamp := now, metadata := metadata }

/-- `TaskRunEventService.create` for an event of the run. -/
def createEvent (now type status message : String) (metadata : List (String × Json)) :
    RunProgram String :=
  .appendEvent (newEvent now type status (String.ofList (message.toList.take 1000))
    (sanitizeFields metadata))

/-- `TaskRunEventService.create` for an event of a step. -/
def createStepEvent (now type status message stepId : String)
    (metadata : List (String × Json)) : RunProgram String :=
  .appendEvent { newEvent now type status (String.ofList (message.toList.take 1000))
    (sanitizeFields metadata) with stepId := some stepId }

end AIpinho.Runtime
