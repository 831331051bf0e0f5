import AIpinho.Lib.Listing
import AIpinho.Lib.Table
import Mathlib.Data.Prod.Lex
import Mathlib.Data.String.Basic
import Mathlib.Data.Int.Order.Basic

/-!
# Events of agent runs

`AgentSessionStore` keeps one event file per run and one sequence counter per session.
`MultiAgentEventBus` lists the events after a cursor, and `AgentSessionKernelService` answers
polls with these lists.
-/

namespace AIpinho.Agents

open List Lib

/-- `AgentRun`, as far as the events of a run depend on it. -/
structure AgentRun where
  runId : String
  agentId : String
  sessionId : String
  deriving DecidableEq

/-- `AgentEvent`, without the contents that are only passed on. -/
structure AgentEvent where
  eventId : String
  runId : String
  sessionId : String
  agentId : String
  sequence : ℕ
  sessionSequence : ℕ
  createdAt : String
  visibleInTimeline : Bool
  deriving DecidableEq

/-- The files of the store. -/
structure AgentStore where
  runs : Table String AgentRun
  events : Table String (List AgentEvent)
  sequences : Table (String × String) ℕ

def AgentStore.empty : AgentStore where
  runs := ⟨[], List.nodup_nil⟩
  events := ⟨[], List.nodup_nil⟩
  sequences := ⟨[], List.nodup_nil⟩

/-- How many events of a run the services read. -/
def readLimit : ℕ := 100000

/-- A name as part of a path, `name.replace("/", "_")`. -/
def safeName (name : String) : String := name.map fun c => if c = '/' then '_' else c

def sessionSequencePath (agentId sessionId : String) : String × String :=
  (safeName agentId, safeName sessionId)

def AgentStore.rows (store : AgentStore) (runId : String) : List AgentEvent :=
  (store.events.get? runId).getD []

/-- `AgentSessionStore.list_events`. -/
def AgentStore.listEvents (store : AgentStore) (runId : String) (limit : ℤ)
    (includeHidden : Bool) : List AgentEvent :=
  sliceFrom ((store.rows runId).filter fun event => includeHidden || event.visibleInTimeline)
    (-limit)

def AgentEvent.key (event : AgentEvent) : ℕ ×ₗ String ×ₗ String :=
  toLex (event.sessionSequence, toLex (event.createdAt, event.eventId))

/-- `AgentSessionStore.list_events_by_session`: the files in the order of the directory,
sorted. -/
def AgentStore.listEventsBySession (store : AgentStore) (agentId sessionId : String)
    (includeHidden : Bool) : List AgentEvent :=
  let rows := (store.events.entries.flatMap Prod.snd).filter fun event =>
    event.agentId = agentId && event.sessionId = sessionId &&
      (includeHidden || event.visibleInTimeline)
  rows.insertionSort fun first second => first.key ≤ second.key

def AgentStore.nextSessionSequence (store : AgentStore) (agentId sessionId : String) :
    ℕ × AgentStore :=
  let path := sessionSequencePath agentId sessionId
  let nextValue := (store.sequences.get? path).getD 0 + 1
  (nextValue, { store with sequences := store.sequences.insert path nextValue })

/-- `AgentSessionStore.add_event`. -/
def AgentStore.addEvent (store : AgentStore) (event : AgentEvent) : AgentStore :=
  let existing := store.listEvents event.runId readLimit true
  if existing.any fun item => item.eventId = event.eventId then store
  else
    let (sessionSequence, store) := store.nextSessionSequence event.agentId event.sessionId
    let event := { event with
      sequence := existing.length + 1
      sessionSequence := sessionSequence }
    { store with
      events := store.events.insert event.runId (store.rows event.runId ++ [event]) }

/-- `MultiAgentEventBus.append_event`, with the identifier and the time of the event. -/
def AgentStore.appendEvent (store : AgentStore) (eventId createdAt : String) (run : AgentRun)
    (visible : Bool) : AgentStore :=
  store.addEvent
    { eventId := eventId
      runId := run.runId
      sessionId := run.sessionId
      agentId := run.agentId
      sequence := 0
      sessionSequence := 0
      createdAt := createdAt
      visibleInTimeline := visible }

/-- `AgentSessionKernelService.create_run`: the record is saved and a hidden event is
appended. -/
def AgentStore.createRun (store : AgentStore) (eventId createdAt : String) (run : AgentRun) :
    AgentStore :=
  let saved := { store with runs := store.runs.insert run.runId run }
  saved.appendEvent eventId createdAt run false

def applyCursor (events : List AgentEvent) (afterEventId : Option String)
    (afterSequence : Option ℤ) (limit : ℤ) (sequence : AgentEvent → ℕ) : List AgentEvent :=
  let selected :=
    match afterEventId with
    | none => some events
    | some eventId =>
      if eventId = "" then some events
      else
        let indexes := (events.zipIdx.filter fun (item : AgentEvent × ℕ) =>
          item.1.eventId = eventId).map Prod.snd
        indexes.getLast?.map fun index => events.drop (index + 1)
  match selected with
  | none => []
  | some selected =>
    let selected :=
      match afterSequence with
      | none => selected
      | some after => selected.filter fun event => (sequence event : ℤ) > after
    selected.take (max 1 (min limit 1000)).toNat

/-- What a client polls. -/
inductive View
  | run (runId : String)
  | session (agentId sessionId : String)
  deriving DecidableEq

/-- The cursor and the size of a poll. -/
structure PollRequest where
  afterEventId : Option String := none
  afterSequence : Option ℤ := none
  limit : ℤ
  /-- Whether hidden events are asked for: `include_hidden` or a mode that shows them. -/
  includeHidden : Bool := false

/-- The part of a response that the cursor protocol is about. -/
structure PollResponse where
  latestEventId : Option String
  latestSequence : ℕ
  events : List AgentEvent
  hasMore : Bool
  deriving DecidableEq

def View.sequence : View → AgentEvent → ℕ
  | .run _ => AgentEvent.sequence
  | .session _ _ => AgentEvent.sessionSequence

def AgentStore.listView (store : AgentStore) (includeHidden : Bool) : View → List AgentEvent
  | .run runId => store.listEvents runId readLimit includeHidden
  | .session agentId sessionId => store.listEventsBySession agentId sessionId includeHidden

def AgentStore.hasView (store : AgentStore) (hasSession : String → String → Bool) : View → Bool
  | .run runId => (store.runs.get? runId).isSome
  | .session agentId sessionId => hasSession agentId sessionId

/-- `run_events_response` and `timeline_response`; there is no answer where they raise. -/
def AgentStore.respond (store : AgentStore) (hasSession : String → String → Bool) (view : View)
    (request : PollRequest) : Option PollResponse :=
  if store.hasView hasSession view then
    let events := applyCursor (store.listView request.includeHidden view) request.afterEventId
      request.afterSequence request.limit view.sequence
    let latest := (store.listView true view).getLast?
    some
      { latestEventId := latest.map AgentEvent.eventId
        latestSequence := (latest.map view.sequence).getD 0
        events := events
        hasMore := (events.length : ℤ) ≥ request.limit }
  else none

def AgentEvent.sequencePath (event : AgentEvent) : String × String :=
  sessionSequencePath event.agentId event.sessionId

/-- The store holds a history of events, in the order in which they were appended: each
file has its share, the sequences of a session increase, and the sequences of a run
count up to the number of events that are read. -/
structure AgentStore.Records (store : AgentStore) (history : List AgentEvent) : Prop where
  rows : ∀ runId, store.rows runId = history.filter fun event => event.runId = runId
  files : (store.events.entries.flatMap Prod.snd).Perm history
  counters : ∀ event ∈ history,
    event.sessionSequence ≤ (store.sequences.get? event.sequencePath).getD 0
  positive : ∀ event ∈ history, 0 < event.sessionSequence
  increasing : history.Pairwise fun first second => first.sequencePath = second.sequencePath →
    first.sessionSequence < second.sessionSequence
  numbered : ∀ (runId : String) (index : ℕ) (event : AgentEvent),
    (history.filter fun event => event.runId = runId)[index]? = some event →
      event.sequence = min index readLimit + 1
  ids : (history.map AgentEvent.eventId).Nodup

theorem AgentStore.empty_records : AgentStore.empty.Records [] where
  rows _ := rfl
  files := List.Perm.refl _
  counters _ h := by simp at h
  positive _ h := by simp at h
  increasing := List.Pairwise.nil
  numbered _ _ _ h := by simp at h
  ids := nodup_nil

variable {store : AgentStore} {history : List AgentEvent}

theorem AgentStore.Records.saveRun (h : store.Records history) (runs : Table String AgentRun) :
    ({ store with runs := runs } : AgentStore).Records history :=
  ⟨h.rows, h.files, h.counters, h.positive, h.increasing, h.numbered, h.ids⟩

/-- The event that `add_event` writes. -/
def AgentStore.stamped (store : AgentStore) (event : AgentEvent) : AgentEvent :=
  { event with
    sequence := min (store.rows event.runId).length readLimit + 1
    sessionSequence := (store.sequences.get? event.sequencePath).getD 0 + 1 }

theorem AgentStore.stamped_saveRun (store : AgentStore) (runs : Table String AgentRun)
    (event : AgentEvent) :
    ({ store with runs := runs } : AgentStore).stamped event = store.stamped event := rfl

theorem AgentStore.listEvents_all (store : AgentStore) (runId : String) :
    store.listEvents runId readLimit true = (store.rows runId).rtake readLimit := by
  have hpos : 0 < readLimit := by decide
  rw [AgentStore.listEvents, sliceFrom_neg _ hpos]
  simp

theorem AgentStore.addEvent_eq {event : AgentEvent}
    (hnew : ∀ item ∈ store.rows event.runId, item.eventId ≠ event.eventId) :
    store.addEvent event = { store with
        events := store.events.insert event.runId
          (store.rows event.runId ++ [store.stamped event])
        sequences := store.sequences.insert event.sequencePath
          ((store.sequences.get? event.sequencePath).getD 0 + 1) } := by
  have hany : (((store.rows event.runId).rtake readLimit).any
      fun item => item.eventId = event.eventId) = false := by
    rw [any_eq_false]
    intro item hitem
    have hmem : item ∈ store.rows event.runId := mem_of_mem_drop hitem
    simpa using hnew item hmem
  rw [AgentStore.addEvent, AgentStore.listEvents_all, hany]
  simp only [AgentStore.nextSessionSequence, length_rtake, Bool.false_eq_true, if_false,
    AgentStore.stamped, Nat.min_comm readLimit, AgentEvent.sequencePath, AgentStore.rows]

/-- An appended event is recorded after all others. -/
theorem AgentStore.Records.addEvent (h : store.Records history) {event : AgentEvent}
    (hnew : event.eventId ∉ history.map AgentEvent.eventId) :
    (store.addEvent event).Records (history ++ [store.stamped event]) := by
  have hfresh : ∀ item ∈ store.rows event.runId, item.eventId ≠ event.eventId := by
    intro item hitem heq
    rw [h.rows] at hitem
    exact hnew (mem_map.mpr ⟨item, (mem_filter.mp hitem).1, heq⟩)
  rw [AgentStore.addEvent_eq hfresh]
  have hrun : (store.stamped event).runId = event.runId := rfl
  have hpath : (store.stamped event).sequencePath = event.sequencePath := rfl
  constructor
  case rows =>
    intro runId
    rw [filter_append, ← h.rows runId]
    by_cases hid : runId = event.runId
    · subst hid
      simp [AgentStore.rows, hrun]
    · have hne : ¬(store.stamped event).runId = runId := fun heq => hid (hrun ▸ heq.symm)
      simp [AgentStore.rows, Table.get?_insert_of_ne hid, hne]
  case files =>
    exact (Table.flatMap_insert_append event.runId _).trans (h.files.append_right _)
  case counters =>
    intro item hitem
    rcases mem_append.mp hitem with hitem | hitem
    · have hle := h.counters item hitem
      by_cases hsame : item.sequencePath = event.sequencePath
      · rw [hsame] at hle ⊢
        simp only [Table.get?_insert_self, Option.getD_some]
        omega
      · simpa only [Table.get?_insert_of_ne hsame] using hle
    · rw [mem_singleton] at hitem
      subst hitem
      rw [hpath]
      simp [AgentStore.stamped]
  case positive =>
    intro item hitem
    rcases mem_append.mp hitem with hitem | hitem
    · exact h.positive item hitem
    · rw [mem_singleton] at hitem
      subst hitem
      exact Nat.succ_pos _
  case increasing =>
    rw [pairwise_append]
    refine ⟨h.increasing, pairwise_singleton _ _, ?_⟩
    intro first hfirst second hsecond hsame
    rw [mem_singleton] at hsecond
    subst hsecond
    have hle := h.counters first hfirst
    rw [hsame, hpath] at hle
    simp only [AgentStore.stamped]
    omega
  case numbered =>
    intro runId index item hitem
    rw [filter_append] at hitem
    by_cases hid : event.runId = runId
    · rw [filter_singleton, hrun, hid] at hitem
      simp only [decide_true, cond_true] at hitem
      rw [getElem?_append] at hitem
      split at hitem
      · exact h.numbered runId index item hitem
      · rename_i hge
        rw [getElem?_singleton] at hitem
        split at hitem
        · cases hitem
          simp only [AgentStore.stamped, hid, h.rows]
          omega
        · cases hitem
    · have hnone : [store.stamped event].filter (fun item => item.runId = runId) = [] := by
        rw [filter_singleton, hrun]
        simp [hid]
      rw [hnone, append_nil] at hitem
      exact h.numbered runId index item hitem
  case ids =>
    rw [map_append]
    exact nodup_concat_iff.mpr ⟨hnew, h.ids⟩

def View.holds : View → AgentEvent → Bool
  | .run runId, event => event.runId = runId
  | .session agentId sessionId, event => event.agentId = agentId && event.sessionId = sessionId

def View.window {α : Type} : View → List α → List α
  | .run _, events => events.rtake readLimit
  | .session _ _, events => events

def View.events (view : View) (history : List AgentEvent) : List AgentEvent :=
  history.filter view.holds

def visible (events : List AgentEvent) : List AgentEvent := events.filter (·.visibleInTimeline)

theorem AgentStore.Records.listView_eq (h : store.Records history) (includeHidden : Bool)
    (view : View) :
    store.listView includeHidden view = view.window ((view.events history).filter
      fun event => includeHidden || event.visibleInTimeline) := by
  cases view with
  | run runId =>
    have hpos : 0 < readLimit := by decide
    simp only [AgentStore.listView, AgentStore.listEvents, View.window, View.events]
    rw [sliceFrom_neg _ hpos, h.rows]
    rfl
  | session agentId sessionId =>
    simp only [AgentStore.listView, AgentStore.listEventsBySession, View.window, View.events]
    rw [filter_filter]
    have hlisted : ∀ events : List AgentEvent,
        (events.filter fun event => event.agentId = agentId && event.sessionId = sessionId &&
          (includeHidden || event.visibleInTimeline)) =
        events.filter fun event => (includeHidden || event.visibleInTimeline) &&
          (View.session agentId sessionId).holds event := by
      intro events
      refine filter_congr fun event _ => ?_
      simp only [View.holds, Bool.and_comm]
    rw [hlisted]
    -- Within a session the keys increase along the history.
    refine insertionSort_eq_of_perm AgentEvent.key (h.files.filter _) ?_
    refine (h.increasing.filter _).imp_of_mem fun hfirst hsecond hlt => ?_
    have hpath : ∀ event ∈ history.filter (fun event => (includeHidden ||
        event.visibleInTimeline) && (View.session agentId sessionId).holds event),
        event.sequencePath = sessionSequencePath agentId sessionId := by
      intro event hevent
      simp only [mem_filter, View.holds, Bool.and_eq_true, decide_eq_true_eq] at hevent
      rw [AgentEvent.sequencePath, hevent.2.2.1, hevent.2.2.2]
    rw [AgentEvent.key, AgentEvent.key, Prod.Lex.toLex_lt_toLex]
    exact Or.inl (hlt ((hpath _ hfirst).trans (hpath _ hsecond).symm))

end AIpinho.Agents
