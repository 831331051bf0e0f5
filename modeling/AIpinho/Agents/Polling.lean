import AIpinho.Agents.SessionStore
import AIpinho.Lib.Runs

/-!
# Polling by event identifier

A client passes the `latest_event_id` of the last response as `after_event_id` of the next poll.
The service takes that identifier from all events, hidden ones included, and looks it up among
the visible ones only.
-/

namespace AIpinho.Agents

open List Lib Option

section

variable {events pre post : List AgentEvent} {event : AgentEvent} {limit : ℤ}
  {sequence : AgentEvent → ℕ}

/-- How many events a page holds at most. -/
def pageSize (limit : ℤ) : ℕ := (max 1 (min limit 1000)).toNat

theorem pageSize_le (limit : ℤ) : pageSize limit ≤ 1000 := by
  unfold pageSize
  omega

theorem applyCursor_none : applyCursor events none none limit sequence =
    events.take (pageSize limit) := rfl

theorem applyCursor_after (hid : event.eventId ≠ "")
    (hpost : ∀ item ∈ post, item.eventId ≠ event.eventId) :
    applyCursor (pre ++ event :: post) (some event.eventId) none limit sequence =
      post.take (pageSize limit) := by
  have hnone : ((post.zipIdx (pre.length + 1)).filter
      fun item : AgentEvent × ℕ => item.1.eventId = event.eventId) = [] := by
    rw [filter_eq_nil_iff]
    rintro ⟨item, index⟩ hitem
    simpa using hpost item (fst_mem_of_mem_zipIdx hitem)
  have hlast : ((((pre ++ event :: post).zipIdx).filter
      fun item : AgentEvent × ℕ => item.1.eventId = event.eventId).map Prod.snd).getLast? =
      some pre.length := by
    rw [zipIdx_append, zipIdx_cons, filter_append, filter_cons]
    simp only [decide_true, if_true, Nat.zero_add, hnone, map_append, map_cons,
      map_nil, getLast?_append, getLast?_singleton, some_or]
  have hdrop : (pre ++ event :: post).drop (pre.length + 1) = post := by
    have happend : pre ++ event :: post = (pre ++ [event]) ++ post := by simp
    rw [happend]
    exact drop_left' (by simp)
  unfold applyCursor
  simp only [hid, if_false, hlast, map_some, hdrop]
  rfl

theorem applyCursor_missing {eventId : String} (hid : eventId ≠ "")
    (hnone : ∀ item ∈ events, item.eventId ≠ eventId) :
    applyCursor events (some eventId) none limit sequence = [] := by
  have hfilter : (events.zipIdx.filter
      fun item : AgentEvent × ℕ => item.1.eventId = eventId) = [] := by
    rw [filter_eq_nil_iff]
    rintro ⟨item, index⟩ hitem
    simpa using hnone item (fst_mem_of_mem_zipIdx hitem)
  unfold applyCursor
  simp only [hid, if_false, hfilter, map_nil, getLast?_nil, map_none]

theorem length_applyCursor_le (afterEventId : Option String) (afterSequence : Option ℤ) :
    (applyCursor events afterEventId afterSequence limit sequence).length ≤ 1000 := by
  have hsize := pageSize_le limit
  unfold pageSize at hsize
  unfold applyCursor
  dsimp only
  split
  · exact Nat.zero_le _
  · exact le_trans (length_take_le _ _) hsize

theorem View.window_of_length_le (view : View) (h : events.length ≤ readLimit) :
    view.window events = events := by
  cases view with
  | run runId => exact rtake_of_length_le h
  | session agentId sessionId => rfl

theorem View.mem_of_mem_window (view : View) (h : event ∈ view.window events) : event ∈ events := by
  cases view with
  | run runId => exact mem_of_mem_drop h
  | session agentId sessionId => exact h

theorem View.getLast?_window (view : View) (events : List AgentEvent) :
    (view.window events).getLast? = events.getLast? := by
  cases view with
  | run runId =>
    have hpos : 0 < readLimit := by decide
    rw [View.window, List.rtake, getLast?_drop]
    split
    · have hnil : events = [] := eq_nil_of_length_eq_zero (by omega)
      rw [hnil, getLast?_nil]
    · rfl
  | session agentId sessionId => rfl

theorem View.window_append (view : View) (pre : List AgentEvent) (event : AgentEvent)
    (h : post.length < readLimit) :
    ∃ pre', view.window (pre ++ event :: post) = pre' ++ event :: post := by
  cases view with
  | run runId =>
    refine ⟨pre.drop ((pre ++ event :: post).length - readLimit), ?_⟩
    rw [View.window, List.rtake, drop_append_of_le_length]
    rw [length_append, length_cons]
    omega
  | session agentId sessionId => exact ⟨pre, rfl⟩

end

/-- `uuid4`: a source of identifiers that never gives one twice. -/
structure IdSource where
  /-- The identifier that is given at a time. -/
  issue : ℕ → String
  injective : Function.Injective issue
  ne_empty : ∀ n, issue n ≠ ""

/-- What happens to the store and to the client that follows it. -/
inductive AgentOp
  | createRun (run : AgentRun) (createdAt : String)
  | append (run : AgentRun) (createdAt : String) (visible : Bool)
  | poll (limit : ℤ)

/-- A store and a client of one of its views. -/
structure Follower where
  store : AgentStore
  /-- How many identifiers were given. -/
  issued : ℕ
  history : List AgentEvent
  /-- How many of them there were at the last poll. -/
  polledAt : ℕ
  /-- The `latest_event_id` of the last response. -/
  latestEventId : Option String
  received : List AgentEvent

def Follower.start : Follower := ⟨AgentStore.empty, 0, [], 0, none, []⟩

def draftEvent (eventId createdAt : String) (run : AgentRun) (visible : Bool) : AgentEvent :=
  ⟨eventId, run.runId, run.sessionId, run.agentId, 0, 0, createdAt, visible⟩

section

variable (ids : IdSource) (hasSession : String → String → Bool) (view : View)

def Follower.nextId (s : Follower) : String := ids.issue s.issued

/-- One operation on the store, seen by a client that polls. -/
def Follower.step (s : Follower) : AgentOp → Follower
  | .createRun run createdAt =>
    { s with
      store := s.store.createRun (s.nextId ids) createdAt run
      issued := s.issued + 1
      history := s.history ++ [s.store.stamped (draftEvent (s.nextId ids) createdAt run false)] }
  | .append run createdAt visible =>
    { s with
      store := s.store.appendEvent (s.nextId ids) createdAt run visible
      issued := s.issued + 1
      history := s.history ++ [s.store.stamped (draftEvent (s.nextId ids) createdAt run visible)] }
  | .poll limit =>
    match s.store.respond hasSession view { afterEventId := s.latestEventId, limit := limit } with
    | none => s
    | some response =>
      { s with
        polledAt := s.history.length
        latestEventId := response.latestEventId
        received := s.received ++ response.events }

def Follower.before (s : Follower) : List AgentEvent := view.events (s.history.take s.polledAt)

def Follower.batch (s : Follower) : List AgentEvent :=
  visible (view.events (s.history.drop s.polledAt))

/-- An answered poll asks for at least as many events as are new and visible. -/
def Follower.BatchFits (s : Follower) (op : AgentOp) : Prop :=
  ∀ limit, op = .poll limit → s.store.hasView hasSession view = true →
    ((s.batch view).length : ℤ) ≤ limit

/-- A poll hands over what is visible of all events so far. -/
def Follower.Delivered (s : Follower) (op : AgentOp) : Prop :=
  ∀ limit, op = .poll limit → s.store.hasView hasSession view = true →
    (s.step ids hasSession view op).received = visible (view.events s.history)

/-- An answered poll finds nothing new to see, or at most 1000 new visible events after a
visible one. -/
def Follower.Anchored (s : Follower) (op : AgentOp) : Prop :=
  ∀ limit, op = .poll limit → s.store.hasView hasSession view = true →
    s.batch view = [] ∨ (s.batch view).length ≤ 1000 ∧
      ∀ event, (s.before view).getLast? = some event → event.visibleInTimeline = true

/-- The store holds the events that were appended. -/
structure Follower.Recorded (s : Follower) : Prop where
  records : s.store.Records s.history
  /-- Each event got an identifier from the source. -/
  issued : ∀ event ∈ s.history, ∃ n < s.issued, event.eventId = ids.issue n

/-- The client has received what was visible at its last poll, and its cursor is the last
event there was. -/
structure Follower.InStep (s : Follower) : Prop extends s.Recorded ids where
  polledAt : s.polledAt ≤ s.history.length
  cursor : s.latestEventId = (s.before view).getLast?.map AgentEvent.eventId
  received : s.received = visible (s.before view)

variable {ids hasSession view} {s : Follower}

theorem Follower.Recorded.nextId_notMem (h : s.Recorded ids) :
    s.nextId ids ∉ s.history.map AgentEvent.eventId := by
  intro hmem
  obtain ⟨event, hevent, heq⟩ := List.mem_map.mp hmem
  obtain ⟨n, hn, hissue⟩ := h.issued event hevent
  have hsame : n = s.issued := ids.injective (hissue.symm.trans heq)
  omega

theorem Follower.Recorded.extend (h : s.Recorded ids) {store : AgentStore} {event : AgentEvent}
    (hrecords : store.Records (s.history ++ [event])) (hid : event.eventId = s.nextId ids) :
    Follower.Recorded ids
      { s with store := store, issued := s.issued + 1, history := s.history ++ [event] } := by
  refine ⟨hrecords, ?_⟩
  intro item hitem
  rcases mem_append.mp hitem with hitem | hitem
  · obtain ⟨n, hn, hissue⟩ := h.issued item hitem
    exact ⟨n, Nat.lt_succ_of_lt hn, hissue⟩
  · rw [mem_singleton] at hitem
    subst hitem
    exact ⟨s.issued, Nat.lt_succ_self _, hid⟩

theorem Follower.Recorded.step (h : s.Recorded ids) (op : AgentOp) :
    (s.step ids hasSession view op).Recorded ids := by
  cases op with
  | createRun run createdAt =>
    have hnew : (draftEvent (s.nextId ids) createdAt run false).eventId ∉
        s.history.map AgentEvent.eventId := h.nextId_notMem
    have hrecords := (h.records.saveRun (s.store.runs.insert run.runId run)).addEvent hnew
    rw [AgentStore.stamped_saveRun] at hrecords
    exact h.extend hrecords rfl
  | append run createdAt visible => exact h.extend (h.records.addEvent h.nextId_notMem) rfl
  | poll limit =>
    simp only [Follower.step]
    split
    · exact h
    · exact ⟨h.records, h.issued⟩

theorem Follower.InStep.extend (h : s.InStep ids view) {next : Follower} {event : AgentEvent}
    (hrecorded : next.Recorded ids) (hhistory : next.history = s.history ++ [event])
    (hpolledAt : next.polledAt = s.polledAt) (hcursor : next.latestEventId = s.latestEventId)
    (hreceived : next.received = s.received) : next.InStep ids view := by
  have hbefore : next.before view = s.before view := by
    rw [Follower.before, hhistory, hpolledAt, take_append_of_le_length h.polledAt, Follower.before]
  refine ⟨hrecorded, ?_, ?_, ?_⟩
  · have hle := h.polledAt
    rw [hhistory, hpolledAt, length_append]
    omega
  · rw [hcursor, hbefore]
    exact h.cursor
  · rw [hreceived, hbefore]
    exact h.received

theorem Follower.visible_history (s : Follower) (view : View) :
    visible (view.events s.history) = visible (s.before view) ++ s.batch view := by
  rw [Follower.before, Follower.batch, visible, visible, visible, View.events, View.events,
    View.events, ← filter_append, ← filter_append, take_append_drop]

theorem Follower.InStep.listView (h : s.InStep ids view) :
    s.store.listView false view = view.window (visible (s.before view) ++ s.batch view) := by
  rw [h.records.listView_eq, ← s.visible_history view]
  simp [visible]

variable (view) in
def Follower.page (s : Follower) (limit : ℤ) : List AgentEvent :=
  applyCursor (s.store.listView false view) s.latestEventId none limit view.sequence

theorem Follower.InStep.step_poll (h : s.InStep ids view) {limit : ℤ}
    (hview : s.store.hasView hasSession view = true) :
    s.step ids hasSession view (.poll limit) = { s with
        polledAt := s.history.length
        latestEventId := (view.events s.history).getLast?.map AgentEvent.eventId
        received := s.received ++ s.page view limit } := by
  have hlatest : (s.store.listView true view).getLast? = (view.events s.history).getLast? := by
    rw [h.records.listView_eq, View.getLast?_window]
    simp
  simp only [Follower.step, AgentStore.respond, hview, if_true, hlatest, Follower.page]

theorem Follower.InStep.page_of_hidden (h : s.InStep ids view) {event : AgentEvent}
    (hlast : (s.before view).getLast? = some event) (hhidden : event.visibleInTimeline = false)
    (limit : ℤ) : s.page view limit = [] := by
  have hmem : event ∈ s.history := mem_of_mem_take (mem_filter.mp (mem_of_getLast? hlast)).1
  obtain ⟨n, -, hissue⟩ := h.issued event hmem
  rw [Follower.page, h.cursor, hlast, map_some]
  refine applyCursor_missing (hissue ▸ ids.ne_empty n) ?_
  intro item hitem heq
  rw [h.listView, ← s.visible_history view] at hitem
  have hvisible := mem_filter.mp (View.mem_of_mem_window view hitem)
  have hhistory := (mem_filter.mp hvisible.1).1
  have hsame := inj_on_of_nodup_map h.records.ids hhistory hmem heq
  rw [hsame, hhidden] at hvisible
  exact absurd hvisible.2 (by decide)

theorem Follower.InStep.page_of_visible (h : s.InStep ids view)
    (hshort : (s.batch view).length ≤ 1000)
    (hlast : ∀ event, (s.before view).getLast? = some event → event.visibleInTimeline = true)
    (limit : ℤ) : s.page view limit = (s.batch view).take (pageSize limit) := by
  have hreadLimit : 1000 < readLimit := by decide
  rw [Follower.page, h.cursor, h.listView]
  cases hgetLast : (s.before view).getLast? with
  | none =>
    have hnil : s.before view = [] := getLast?_eq_none_iff.mp hgetLast
    rw [hnil, map_none, applyCursor_none]
    rw [visible, filter_nil, nil_append, View.window_of_length_le view (by omega)]
  | some event =>
    obtain ⟨earlier, hbefore⟩ := getLast?_eq_some_iff.mp hgetLast
    have hmem : event ∈ s.history := mem_of_mem_take (mem_filter.mp (mem_of_getLast? hgetLast)).1
    obtain ⟨n, -, hissue⟩ := h.issued event hmem
    have hsplit : visible (s.before view) ++ s.batch view =
        visible earlier ++ event :: s.batch view := by
      rw [hbefore, visible, filter_append, filter_singleton, hlast event hgetLast]
      simp [visible]
    obtain ⟨pre, hwindow⟩ := view.window_append (visible earlier) event
      (lt_of_le_of_lt hshort hreadLimit)
    rw [hsplit, hwindow, map_some]
    refine applyCursor_after (hissue ▸ ids.ne_empty n) ?_
    -- The event stands before the batch, and no identifier occurs twice.
    have hnodup : ((visible earlier ++ event :: s.batch view).map AgentEvent.eventId).Nodup := by
      rw [← hsplit, ← s.visible_history view]
      exact h.records.ids.sublist ((filter_sublist.trans filter_sublist).map _)
    intro item hitem heq
    rw [map_append, map_cons, List.nodup_append] at hnodup
    have hnot := (nodup_cons.mp hnodup.2.1).1
    exact hnot (List.mem_map.mpr ⟨item, hitem, heq⟩)

/-- Under its limit, a poll returns the batch exactly when the client is anchored. -/
theorem Follower.InStep.page_eq_batch_iff (h : s.InStep ids view) {limit : ℤ}
    (hfits : ((s.batch view).length : ℤ) ≤ limit) :
    s.page view limit = s.batch view ↔ s.batch view = [] ∨ (s.batch view).length ≤ 1000 ∧
        ∀ event, (s.before view).getLast? = some event → event.visibleInTimeline = true := by
  constructor
  · intro hpage
    by_cases hempty : s.batch view = []
    · exact Or.inl hempty
    refine Or.inr ⟨?_, ?_⟩
    · rw [← hpage]
      exact length_applyCursor_le _ _
    · intro event hlast
      by_contra hhidden
      rw [h.page_of_hidden hlast (by simpa using hhidden)] at hpage
      exact hempty hpage.symm
  · intro hanchored
    have hshort : (s.batch view).length ≤ 1000 := by
      rcases hanchored with hempty | hshort
      · rw [hempty]
        exact Nat.zero_le _
      · exact hshort.1
    by_cases hlast : ∀ event, (s.before view).getLast? = some event → event.visibleInTimeline = true
    · rw [h.page_of_visible hshort hlast]
      refine take_of_length_le ?_
      unfold pageSize
      omega
    · push Not at hlast
      obtain ⟨event, hgetLast, hhidden⟩ := hlast
      rcases hanchored with hempty | ⟨-, hvisible⟩
      · rw [hempty]
        exact h.page_of_hidden hgetLast (by simpa using hhidden) limit
      · exact absurd (hvisible event hgetLast) hhidden

theorem Follower.InStep.delivered_iff (h : s.InStep ids view) {op : AgentOp}
    (hfits : s.BatchFits hasSession view op) :
    s.Anchored hasSession view op ↔ s.Delivered ids hasSession view op := by
  unfold Follower.Anchored Follower.Delivered
  refine forall_congr' fun limit => ?_
  refine forall_congr' fun hop => ?_
  refine forall_congr' fun hview => ?_
  subst hop
  rw [h.step_poll hview, s.visible_history view, h.received, append_cancel_left_eq]
  exact (h.page_eq_batch_iff (hfits limit rfl hview)).symm

theorem Follower.InStep.step (h : s.InStep ids view) {op : AgentOp}
    (hfits : s.BatchFits hasSession view op) (hanchored : s.Anchored hasSession view op) :
    (s.step ids hasSession view op).InStep ids view := by
  cases op with
  | createRun run createdAt =>
    have hrecorded : (s.step ids hasSession view (.createRun run createdAt)).Recorded ids :=
      h.toRecorded.step _
    simp only [Follower.step] at hrecorded ⊢
    exact h.extend hrecorded rfl rfl rfl rfl
  | append run createdAt visible =>
    have hrecorded : (s.step ids hasSession view (.append run createdAt visible)).Recorded ids :=
      h.toRecorded.step _
    simp only [Follower.step] at hrecorded ⊢
    exact h.extend hrecorded rfl rfl rfl rfl
  | poll limit =>
    by_cases hview : s.store.hasView hasSession view = true
    · have hdelivered := (h.delivered_iff hfits).mp hanchored limit rfl hview
      rw [h.step_poll hview] at hdelivered ⊢
      refine ⟨⟨h.records, h.issued⟩, le_refl _, ?_, ?_⟩
      · simp only [Follower.before, take_length]
      · simp only [Follower.before, take_length]
        exact hdelivered
    · have hsame : s.step ids hasSession view (.poll limit) = s := by
        simp only [Follower.step, AgentStore.respond, hview, Bool.false_eq_true, if_false]
      rw [hsame]
      exact h

theorem Follower.start_recorded : Follower.start.Recorded ids :=
  ⟨AgentStore.empty_records, fun _ h => by simp [Follower.start] at h⟩

theorem Follower.start_inStep : Follower.start.InStep ids view :=
  ⟨Follower.start_recorded, le_refl _, rfl, rfl⟩

end

/-- Along a run of appends and polls whose batches fit their limits, a client receives every
visible event once and in order exactly when each answered poll with something new comes after a
visible event, with at most 1000 new ones. -/
theorem polling_delivers_iff (ids : IdSource) (hasSession : String → String → Bool) (view : View)
    (ops : List AgentOp)
    (hfits : Along (Follower.step ids hasSession view) (Follower.BatchFits hasSession view)
      Follower.start ops) :
    Along (Follower.step ids hasSession view) (Follower.Delivered ids hasSession view)
      Follower.start ops ↔
    Along (Follower.step ids hasSession view) (Follower.Anchored hasSession view)
      Follower.start ops := by
  have hcongr : Along (Follower.step ids hasSession view)
      (fun s op => s.BatchFits hasSession view op ∧ s.Anchored hasSession view op)
      Follower.start ops ↔
    Along (Follower.step ids hasSession view)
      (fun s op => s.BatchFits hasSession view op ∧ s.Delivered ids hasSession view op)
      Follower.start ops := along_congr (P := Follower.InStep ids view)
    (fun s op h => and_congr_right fun hfits => h.delivered_iff hfits)
    (fun s op h hcond => h.step hcond.1 hcond.2) Follower.start_inStep ops
  rw [along_and, along_and] at hcongr
  constructor
  · exact fun h => (hcongr.mpr ⟨hfits, h⟩).2
  · exact fun h => (hcongr.mp ⟨hfits, h⟩).2

def unaryIds : IdSource where
  issue n := String.ofList (List.replicate (n + 1) 'e')
  injective m n h := by
    have hlists := congrArg (List.length ∘ String.toList) h
    simp only [Function.comp_apply, String.toList_ofList, List.length_replicate] at hlists
    omega
  ne_empty n h := by
    have hlists := congrArg (List.length ∘ String.toList) h
    simp at hlists

def sampleRun : AgentRun := ⟨"run", "agent", "session"⟩

theorem batchFits_of_not_poll {hasSession : String → String → Bool} {view : View} {s : Follower}
    {op : AgentOp} (hop : ∀ limit, op ≠ .poll limit) : s.BatchFits hasSession view op :=
  fun limit heq => absurd heq (hop limit)

/-- A visible event before the first poll: the client receives all there is to see. -/
theorem polling_delivers_visible : Along (Follower.step unaryIds (fun _ _ => true) (.run "run"))
      (Follower.Delivered unaryIds (fun _ _ => true) (.run "run")) Follower.start
      [.createRun sampleRun "t0", .append sampleRun "t1" true, .poll 10] := by
  refine (polling_delivers_iff unaryIds (fun _ _ => true) (.run "run") _ ?_).mpr ?_
  · refine ⟨batchFits_of_not_poll (by simp), batchFits_of_not_poll (by simp), ?_, trivial⟩
    intro limit hop hview
    cases hop
    decide
  · refine ⟨fun limit hop => ?_, fun limit hop => ?_, fun limit hop hview => ?_, trivial⟩
    · cases hop
    · cases hop
    · cases hop
      refine Or.inr ⟨by decide, fun event hlast => ?_⟩
      have hnone : (Follower.before (.run "run") (((Follower.start).step unaryIds
        (fun _ _ => true) (.run "run") (.createRun sampleRun "t0")).step unaryIds (fun _ _ => true)
        (.run "run") (.append sampleRun "t1" true))).getLast? = none := by decide
      rw [hnone] at hlast
      cases hlast

def pollBeforeVisible : List AgentOp :=
  [.createRun sampleRun "t0", .poll 10, .append sampleRun "t1" true, .poll 10]

theorem pollBeforeVisible_fits {view : View}
    (hview : view = .run "run" ∨ view = .session "agent" "session") :
    Along (Follower.step unaryIds (fun _ _ => true) view)
      (Follower.BatchFits (fun _ _ => true) view) Follower.start pollBeforeVisible := by
  refine ⟨batchFits_of_not_poll (by simp), ?_, batchFits_of_not_poll (by simp), ?_, trivial⟩
  all_goals
    intro limit hop _
    cases hop
    rcases hview with rfl | rfl <;> decide

/-- The cursor of the second poll is the hidden event that every run starts with, and the
poll returns nothing, in the view of the run and in that of its session. -/
theorem first_visible_event_lost : (Along (Follower.step unaryIds (fun _ _ => true) (.run "run"))
        (Follower.BatchFits (fun _ _ => true) (.run "run")) Follower.start pollBeforeVisible ∧
      ¬Along (Follower.step unaryIds (fun _ _ => true) (.run "run"))
        (Follower.Delivered unaryIds (fun _ _ => true) (.run "run")) Follower.start
        pollBeforeVisible) ∧
    Along (Follower.step unaryIds (fun _ _ => true) (.session "agent" "session"))
        (Follower.BatchFits (fun _ _ => true) (.session "agent" "session")) Follower.start
        pollBeforeVisible ∧
      ¬Along (Follower.step unaryIds (fun _ _ => true) (.session "agent" "session"))
        (Follower.Delivered unaryIds (fun _ _ => true) (.session "agent" "session"))
        Follower.start pollBeforeVisible := by
  refine ⟨⟨pollBeforeVisible_fits (Or.inl rfl), ?_⟩, pollBeforeVisible_fits (Or.inr rfl), ?_⟩
  all_goals
    rintro ⟨-, -, -, hlast, -⟩
    exact absurd (hlast 10 rfl (by decide)) (by decide)

end AIpinho.Agents
