import AIpinho.Runtime.PayloadRefs

/-!
# The event log of a run

`TaskRunStore.append_event` numbers an event, appends it and rewrites the whole log through
`_write`, which sanitizes and lightens every event again. A second terminal event is refused,
which is recorded once for each reason code.
-/

namespace AIpinho.Runtime

open List Lib

/-- An event of a run. -/
structure TaskRunEvent where
  eventId : String
  runId : String
  /-- The position the event claims in the log. -/
  sequence : ℤ
  type : String
  status : String
  message : String
  stepId : Option String
  timestamp : String
  metadata : List (String × Json)

/-- The types of `_terminal_event_types`. -/
def terminalEventTypes : List String :=
  ["run_completed", "run_partial", "run_failed", "run_cancelled", "run_blocked"]

def TaskRunEvent.isTerminal (e : TaskRunEvent) : Bool := terminalEventTypes.contains e.type

def ignoredType : String := "terminalization_already_applied"

def metadataPath (index : ℕ) : String := "[" ++ toString index ++ "]/metadata"

/-- The metadata of the event at an index, as `_write` saves it. -/
def storedMetadata (codec : Codec) (runId : String) (index : ℕ)
    (metadata : List (String × Json)) : List (String × Json) :=
  let fields := sanitizeFields metadata
  if spills "metadata" (.obj fields) then
    payloadRefFields codec runId "metadata" (metadataPath index) (.obj fields)
  else lightenFields codec runId (metadataPath index) fields

/-- The event at an index, as `_write` saves it. -/
def storedEvent (codec : Codec) (runId : String) (index : ℕ) (e : TaskRunEvent) : TaskRunEvent :=
  { eventId := sanitizeText e.eventId
    runId := sanitizeText e.runId
    sequence := e.sequence
    type := sanitizeText e.type
    status := sanitizeText e.status
    message := sanitizeText e.message
    stepId := e.stepId.map sanitizeText
    timestamp := sanitizeText e.timestamp
    metadata := storedMetadata codec runId index e.metadata }

theorem obj_storedMetadata (codec : Codec) (runId : String) (index : ℕ)
    (metadata : List (String × Json)) :
    Json.obj (storedMetadata codec runId index metadata) =
      lightenForInline codec runId "metadata" (metadataPath index)
        (sanitizeValue (.obj metadata)) := by
  simp only [storedMetadata, sanitizeValue, lightenForInline]
  split <;> rfl

/-- The log as `_write` saves it. -/
def storedEvents (codec : Codec) (runId : String) (events : List TaskRunEvent) :
    List TaskRunEvent :=
  events.mapIdx (storedEvent codec runId)

/-- The payloads that saving a log writes to files. -/
def spilledEventPayloads (events : List TaskRunEvent) : List Json :=
  events.flatMap fun e => spilledPayloads "metadata" (sanitizeValue (.obj e.metadata))

def bySequence (events : List TaskRunEvent) : List TaskRunEvent :=
  events.insertionSort fun a b => a.sequence ≤ b.sequence

/-- `_first_terminal_event`. -/
def firstTerminalEvent (events : List TaskRunEvent) : Option TaskRunEvent :=
  (bySequence events).find? (·.isTerminal)

/-- The largest sequence number of a log plus one. -/
def nextSequence (events : List TaskRunEvent) : ℤ :=
  (events.map (·.sequence)).max?.getD 0 + 1

/-- The identifier and the time a new event receives. -/
structure Stamp where
  eventId : String
  timestamp : String

def valueText (codec : Codec) : Json → String
  | .null => "None"
  | .bool b => if b then "True" else "False"
  | .int n => toString n
  | .float t => t
  | .str s => s
  | v => codec.containerText v

def attemptedReasonCode (codec : Codec) (e : TaskRunEvent) : String :=
  match e.metadata.lookup "reason_code" with
  | some v => if v.truthy then valueText codec v else e.type
  | none => e.type

def ignoredMetadata (terminal : TaskRunEvent) (attemptedStatus reasonCode : String) :
    List (String × Json) :=
  [("terminal_event_id", .str terminal.eventId), ("terminal_status", .str terminal.status),
    ("terminal_reason_code", (terminal.metadata.lookup "reason_code").getD .null),
    ("attempted_status", .str attemptedStatus), ("attempted_reason_code", .str reasonCode),
    ("ignored", .bool true), ("reason", .str "terminal_state_already_set")]

/-- The record of a refusal; appending it sets its sequence number. -/
def ignoredEvent (runId : String) (stamp : Stamp) (terminal : TaskRunEvent)
    (attemptedStatus reasonCode : String) : TaskRunEvent :=
  { eventId := stamp.eventId
    runId := runId
    sequence := 0
    type := ignoredType
    status := "ignored"
    message := "Terminalization ignored because the TaskRun already has a terminal event."
    stepId := none
    timestamp := stamp.timestamp
    metadata := ignoredMetadata terminal attemptedStatus reasonCode }

def recordsRefusal (terminal : TaskRunEvent) (reasonCode : String) (e : TaskRunEvent) : Bool :=
  e.type == ignoredType &&
    textField? e.metadata "terminal_event_id" == some terminal.eventId &&
    textField? e.metadata "attempted_reason_code" == some reasonCode

/-- Number an event, append it and save the log. -/
def pushEvent (codec : Codec) (runId : String) (events : List TaskRunEvent) (e : TaskRunEvent) :
    List TaskRunEvent :=
  storedEvents codec runId (events ++ [{ e with sequence := nextSequence events }])

/-- `_append_terminalization_ignored` after a given terminal event. -/
def appendTerminalizationIgnored (codec : Codec) (runId : String) (stamp : Stamp)
    (terminal : TaskRunEvent) (attemptedStatus reasonCode : String)
    (events : List TaskRunEvent) : List TaskRunEvent :=
  if events.any (recordsRefusal terminal reasonCode) then events
  else pushEvent codec runId events (ignoredEvent runId stamp terminal attemptedStatus reasonCode)

def refusedBy (events : List TaskRunEvent) (e : TaskRunEvent) : Option TaskRunEvent :=
  if e.isTerminal then firstTerminalEvent events else none

/-- `append_event`. The stamp is for the record of a refusal. -/
def appendEvent (codec : Codec) (runId : String) (stamp : Stamp) (e : TaskRunEvent)
    (events : List TaskRunEvent) : List TaskRunEvent :=
  match refusedBy events e with
  | some terminal =>
    appendTerminalizationIgnored codec runId stamp terminal e.status
      (attemptedReasonCode codec e) events
  | none => pushEvent codec runId events e

/-- The sequence numbers are `1`, `2`, and so on in the order of the file. -/
def Numbered (events : List TaskRunEvent) : Prop :=
  events.map (·.sequence) = (List.range events.length).map fun i : ℕ => (i : ℤ) + 1

theorem numbered_nil : Numbered [] := rfl

variable {codec : Codec} {runId : String} {events : List TaskRunEvent}

@[simp] theorem length_storedEvents : (storedEvents codec runId events).length = events.length := by
  simp [storedEvents]

theorem map_sequence_storedEvents :
    (storedEvents codec runId events).map (·.sequence) = events.map (·.sequence) := by
  rw [storedEvents]
  apply ext_getElem <;> simp [storedEvent]

theorem Numbered.nextSequence (hevents : Numbered events) :
    nextSequence events = (events.length : ℤ) + 1 := by
  rw [Runtime.nextSequence, hevents]
  cases events.length with
  | zero => rfl
  | succ n =>
    have hmax : ((List.range (n + 1)).map fun i : ℕ => (i : ℤ) + 1).max? = some ((n : ℤ) + 1) := by
      rw [max?_eq_some_iff]
      refine ⟨mem_map.mpr ⟨n, by simp, rfl⟩, ?_⟩
      intro b hb
      simp only [mem_map, mem_range] at hb
      obtain ⟨i, hi, rfl⟩ := hb
      omega
    rw [hmax]
    simp

theorem Numbered.push (hevents : Numbered events) (e : TaskRunEvent) :
    Numbered (pushEvent codec runId events e) := by
  rw [Numbered, pushEvent, map_sequence_storedEvents, length_storedEvents]
  simp only [map_append, map_cons, map_nil, length_append,
    length_singleton, range_succ, hevents.nextSequence]
  rw [hevents]

theorem Numbered.bySequence (hevents : Numbered events) : bySequence events = events := by
  apply List.Pairwise.insertionSort_eq
  have hsorted : (events.map (·.sequence)).Pairwise (· ≤ ·) := by
    rw [hevents, pairwise_map]
    refine List.pairwise_lt_range.imp ?_
    intro a b hab
    omega
  exact pairwise_map.mp hsorted

theorem Numbered.firstTerminalEvent (hevents : Numbered events) :
    firstTerminalEvent events = events.find? (·.isTerminal) := by
  rw [Runtime.firstTerminalEvent, hevents.bySequence]

theorem terminalEventTypes_settled : ∀ t ∈ terminalEventTypes,
    sanitizeText t = t ∧ '[' ∉ t.toList ∧ t.toList.length < maxTextLength := by
  decide

theorem sanitizeText_mem_terminalEventTypes (t : String) :
    sanitizeText t ∈ terminalEventTypes ↔ t ∈ terminalEventTypes := by
  constructor
  · intro h
    obtain ⟨-, hmark, hlength⟩ := terminalEventTypes_settled _ h
    exact eq_of_sanitizeText rfl hmark hlength ▸ h
  · intro h
    rwa [(terminalEventTypes_settled t h).1]

@[simp] theorem isTerminal_storedEvent (index : ℕ) (e : TaskRunEvent) :
    (storedEvent codec runId index e).isTerminal = e.isTerminal := by
  rw [Bool.eq_iff_iff, TaskRunEvent.isTerminal, TaskRunEvent.isTerminal,
    contains_iff_mem, contains_iff_mem]
  exact sanitizeText_mem_terminalEventTypes e.type

def terminals (events : List TaskRunEvent) : List (String × String) :=
  (events.filter (·.isTerminal)).map fun e => (e.type, e.status)

theorem terminals_append (events events' : List TaskRunEvent) :
    terminals (events ++ events') = terminals events ++ terminals events' := by
  simp [terminals]

theorem terminals_singleton (e : TaskRunEvent) :
    terminals [e] = if e.isTerminal then [(e.type, e.status)] else [] := by
  by_cases he : e.isTerminal = true <;> simp [terminals, he]

theorem terminals_storedEvents : terminals (storedEvents codec runId events) =
      (terminals events).map fun t => (sanitizeText t.1, sanitizeText t.2) := by
  have key : ∀ index : ℕ → ℕ, terminals (events.mapIdx fun i => storedEvent codec runId (index i)) =
        (terminals events).map fun t => (sanitizeText t.1, sanitizeText t.2) := by
    induction events with
    | nil => intro index; rfl
    | cons e events ih =>
      intro index
      rw [mapIdx_cons, ← singleton_append, ← singleton_append (x := e),
        terminals_append, terminals_append, ih (fun i => index (i + 1)), map_append]
      congr 1
      rw [terminals_singleton, terminals_singleton, isTerminal_storedEvent]
      split <;> rfl
  exact key id

theorem isTerminal_ignoredEvent (stamp : Stamp) (terminal : TaskRunEvent)
    (attemptedStatus reasonCode : String) :
    (ignoredEvent runId stamp terminal attemptedStatus reasonCode).isTerminal = false := by
  simp [ignoredEvent, TaskRunEvent.isTerminal, ignoredType, terminalEventTypes]

end AIpinho.Runtime
