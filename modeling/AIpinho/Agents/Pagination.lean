import AIpinho.Agents.Polling
import AIpinho.Lib.Pages

/-!
# Pagination by sequence

A client asks for the events after sequence 0, then for those after the last sequence it was
given, as long as there are more. The bus clamps the size of a page and the kernel compares it
with the size that was asked for. This file says when the pages are complete and `has_more` is
right.
-/

namespace AIpinho.Agents

open List Lib

section

variable (store : AgentStore) (hasSession : String → String → Bool) (view : View) (limit : ℤ)

/-- One request for the events after a sequence: the events and `has_more`. -/
def AgentStore.fetchPage (after : ℤ) : List AgentEvent × Bool :=
  match store.respond hasSession view { afterSequence := some after, limit := limit } with
  | none => ([], false)
  | some response => (response.events, response.hasMore)

/-- Paging through a view from sequence 0 on ends, returns the given events once and in
order, and `has_more` is true exactly when further ones exist. -/
def AgentStore.PagesComplete (events : List AgentEvent) : Prop :=
  Completes (store.fetchPage hasSession view limit) (fun event => (view.sequence event : ℤ)) 0
    events

/-- The visible events of a run among those whose sequences are all different. -/
def numberedApart (history : List AgentEvent) : List AgentEvent :=
  visible ((view.events history).take readLimit)

/-- The limits and logs for which paging works: a limit of at most 1000 does not divide the
number of visible events, unless there are none. For a run, the services read all visible events,
and those that share the last sequence are on one page. -/
structure Pageable (view : View) (history : List AgentEvent) (limit : ℤ) : Prop where
  positive : 1 ≤ limit
  partialPage : limit ≤ 1000 → (visible (view.events history)).length = 0 ∨
    ¬limit ∣ (visible (view.events history)).length
  /-- One page is enough where more are never promised. -/
  onePage : 1000 < limit → (visible (view.events history)).length ≤ 1000
  run : ∀ runId, view = .run runId → (visible (view.events history)).length ≤ readLimit ∧
    (visible (view.events history)).length ≤
      ((numberedApart view history).length / limit.toNat + 1) * limit.toNat

end

section

variable {store : AgentStore} {hasSession : String → String → Bool} {view : View} {limit : ℤ}
  {history : List AgentEvent}

theorem AgentStore.Records.fetchPage_eq (h : store.Records history)
    (hview : store.hasView hasSession view = true) (after : ℤ) :
    store.fetchPage hasSession view limit after =
      (((view.window (visible (view.events history))).filter
          fun event => (view.sequence event : ℤ) > after).take (pageSize limit),
        decide (limit ≤ (((view.window (visible (view.events history))).filter
          fun event => (view.sequence event : ℤ) > after).take (pageSize limit)).length)) := by
  have hlist : store.listView false view = view.window (visible (view.events history)) := by
    rw [h.listView_eq]
    simp [visible]
  simp only [AgentStore.fetchPage, AgentStore.respond, hview, if_true, applyCursor, hlist]
  rfl

theorem AgentStore.Records.fetchPage_eq_fetchSorted (h : store.Records history)
    (hview : store.hasView hasSession view = true) (hpos : 1 ≤ limit) (hle : limit ≤ 1000) :
    store.fetchPage hasSession view limit =
      fetchSorted (view.window (visible (view.events history)))
        (fun event => (view.sequence event : ℤ)) limit.toNat := by
  funext after
  have hsize : pageSize limit = limit.toNat := by
    unfold pageSize
    omega
  rw [h.fetchPage_eq hview, fetchSorted, hsize]
  simp only [Prod.mk.injEq, true_and, decide_eq_decide]
  omega

theorem AgentStore.Records.fetchPage_of_gt (h : store.Records history)
    (hview : store.hasView hasSession view = true) (hgt : 1000 < limit) (after : ℤ) :
    (store.fetchPage hasSession view limit after).2 = false := by
  have hsize := pageSize_le limit
  rw [h.fetchPage_eq hview, decide_eq_false_iff_not, length_take]
  omega

theorem AgentStore.Records.fetchPage_of_le (h : store.Records history)
    (hview : store.hasView hasSession view = true) (hle : limit ≤ 0) (after : ℤ) :
    (store.fetchPage hasSession view limit after).2 = true := by
  rw [h.fetchPage_eq hview, decide_eq_true_eq]
  omega

theorem AgentStore.Records.session_increasing (h : store.Records history)
    (agentId sessionId : String) :
    ((View.session agentId sessionId).events history).Pairwise fun first second =>
      first.sessionSequence < second.sessionSequence := by
  refine (h.increasing.filter _).imp_of_mem fun hfirst hsecond hlt => ?_
  have hpath : ∀ event ∈ (View.session agentId sessionId).events history,
      event.sequencePath = sessionSequencePath agentId sessionId := by
    intro event hevent
    have hholds := (mem_filter.mp hevent).2
    simp only [View.holds, Bool.and_eq_true, decide_eq_true_eq] at hholds
    rw [AgentEvent.sequencePath, hholds.1, hholds.2]
  exact hlt ((hpath _ hfirst).trans (hpath _ hsecond).symm)

theorem AgentStore.Records.run_sequence (h : store.Records history) {runId : String} {index : ℕ}
    (hindex : index < ((View.run runId).events history).length) :
    ((View.run runId).events history)[index].sequence = min index readLimit + 1 :=
  h.numbered runId index _ (getElem?_eq_getElem hindex)

theorem AgentStore.Records.sequence_pos (h : store.Records history) {event : AgentEvent}
    (hevent : event ∈ view.events history) : 0 < view.sequence event := by
  cases view with
  | run runId =>
    obtain ⟨index, hindex, rfl⟩ := mem_iff_getElem.mp hevent
    rw [View.sequence, h.run_sequence hindex]
    omega
  | session agentId sessionId => exact h.positive event (mem_filter.mp hevent).1

theorem AgentStore.Records.numberedApart_increasing (h : store.Records history) (runId : String) :
    (numberedApart (.run runId) history).Pairwise (fun first second =>
      first.sequence < second.sequence) ∧
    ∀ event ∈ numberedApart (.run runId) history, event.sequence ≤ readLimit := by
  constructor
  · refine List.Pairwise.filter _ (pairwise_iff_getElem.mpr ?_)
    intro first second hfirst hsecond hlt
    rw [length_take] at hfirst hsecond
    rw [getElem_take, getElem_take, h.run_sequence, h.run_sequence]
    omega
  · intro event hevent
    obtain ⟨index, hindex, rfl⟩ := mem_iff_getElem.mp (mem_filter.mp hevent).1
    rw [length_take] at hindex
    rw [getElem_take, h.run_sequence]
    omega

theorem AgentStore.Records.sequence_of_drop (h : store.Records history) {runId : String}
    {event : AgentEvent}
    (hevent : event ∈ visible (((View.run runId).events history).drop readLimit)) :
    event.sequence = readLimit + 1 := by
  obtain ⟨index, hindex, rfl⟩ := mem_iff_getElem.mp (mem_filter.mp hevent).1
  rw [length_drop] at hindex
  rw [getElem_drop, h.run_sequence]
  omega

theorem visible_run (runId : String) (history : List AgentEvent) :
    visible ((View.run runId).events history) = numberedApart (.run runId) history ++
      visible (((View.run runId).events history).drop readLimit) := by
  rw [numberedApart, visible, visible, visible, ← filter_append, take_append_drop]

theorem AgentStore.Records.visible_sorted (h : store.Records history) (view : View) :
    (visible (view.events history)).Pairwise fun first second =>
      (view.sequence first : ℤ) ≤ view.sequence second := by
  cases view with
  | run runId =>
    obtain ⟨hincreasing, hle⟩ := h.numberedApart_increasing runId
    rw [visible_run, pairwise_append]
    refine ⟨hincreasing.imp fun hlt => ?_, ?_, fun first hfirst second hsecond => ?_⟩
    · simp only [View.sequence]
      omega
    · refine pairwise_of_forall_mem_list fun first hfirst second hsecond => ?_
      simp only [View.sequence, h.sequence_of_drop hfirst, h.sequence_of_drop hsecond, le_refl]
    · have hfirst' := hle first hfirst
      have hsecond' := h.sequence_of_drop hsecond
      simp only [View.sequence]
      omega
  | session agentId sessionId =>
    refine ((h.session_increasing agentId sessionId).filter _).imp fun hlt => ?_
    simp only [View.sequence]
    omega

theorem AgentStore.Records.session_strictAt (h : store.Records history)
    (agentId sessionId : String) {position : ℕ} (hpos : 0 < position) :
    StrictAt (visible ((View.session agentId sessionId).events history))
      (fun event => ((View.session agentId sessionId).sequence event : ℤ)) position := by
  intro first second hfirst hsecond
  obtain ⟨hfirst', rfl⟩ := List.getElem?_eq_some_iff.mp hfirst
  obtain ⟨hsecond', rfl⟩ := List.getElem?_eq_some_iff.mp hsecond
  have hlt := pairwise_iff_getElem.mp
    ((h.session_increasing agentId sessionId).filter (·.visibleInTimeline)) (position - 1) position
    hfirst' hsecond' (by omega)
  simp only [View.sequence]
  exact_mod_cast hlt

theorem AgentStore.Records.run_strictAt_iff (h : store.Records history) (runId : String)
    {position : ℕ} (hpos : 0 < position)
    (hlt : position < (visible ((View.run runId).events history)).length) :
    StrictAt (visible ((View.run runId).events history))
      (fun event => ((View.run runId).sequence event : ℤ)) position ↔
      position ≤ (numberedApart (.run runId) history).length := by
  obtain ⟨hincreasing, hle⟩ := h.numberedApart_increasing runId
  rw [visible_run] at hlt ⊢
  generalize hapart : numberedApart (.run runId) history = apart at *
  have hshared : ∀ index row, (apart ++ visible (((View.run runId).events history).drop
      readLimit))[index]? = some row → apart.length ≤ index → row.sequence = readLimit + 1 := by
    intro index row hrow hge
    rw [getElem?_append_right hge] at hrow
    exact h.sequence_of_drop (mem_of_getElem? hrow)
  constructor
  · intro hstrict
    by_contra hgt
    have hfirst := getElem?_eq_getElem (l := apart ++ visible
      (((View.run runId).events history).drop readLimit)) (i := position - 1) (by omega)
    have hsecond := getElem?_eq_getElem hlt
    have hless := hstrict _ _ hfirst hsecond
    simp only [View.sequence, hshared _ _ hfirst (by omega),
      hshared _ _ hsecond (by omega)] at hless
    omega
  · intro hposition first second hfirst hsecond
    rw [getElem?_append_left (by omega)] at hfirst
    have hfirst' := hle first (mem_of_getElem? hfirst)
    simp only [View.sequence]
    rcases eq_or_lt_of_le hposition with heq | hlt'
    · have hsecond' := hshared _ _ hsecond (by omega)
      omega
    · rw [getElem?_append_left hlt'] at hsecond
      obtain ⟨hb, rfl⟩ := List.getElem?_eq_some_iff.mp hfirst
      obtain ⟨hb', rfl⟩ := List.getElem?_eq_some_iff.mp hsecond
      exact_mod_cast pairwise_iff_getElem.mp hincreasing (position - 1) position hb hb'
        (by omega)

theorem AgentStore.Records.pagesComplete_of_gt (h : store.Records history)
    (hview : store.hasView hasSession view = true) (hgt : 1000 < limit) :
    store.PagesComplete hasSession view limit (visible (view.events history)) ↔
      (visible (view.events history)).length ≤ 1000 := by
  have hsize : pageSize limit = 1000 := by
    unfold pageSize
    omega
  have hread : 1000 ≤ readLimit := by decide
  rw [AgentStore.PagesComplete, completes_of_last (h.fetchPage_of_gt hview hgt 0),
    h.fetchPage_eq hview, hsize]
  constructor
  · intro hpage
    rw [← hpage]
    exact length_take_le _ _
  · intro hshort
    have hall : ((visible (view.events history)).filter
        fun event => (view.sequence event : ℤ) > 0) = visible (view.events history) := by
      rw [filter_eq_self]
      intro event hevent
      have hpos := h.sequence_pos (mem_filter.mp hevent).1
      simpa using hpos
    rw [View.window_of_length_le view (by omega), hall]
    exact take_of_length_le hshort

theorem AgentStore.Records.not_complete_of_long (h : store.Records history) {runId : String}
    (hlong : readLimit < (visible ((View.run runId).events history)).length) {size : ℕ} :
    ¬Completes (fetchSorted ((View.run runId).window (visible ((View.run runId).events history)))
      (fun event => ((View.run runId).sequence event : ℤ)) size)
      (fun event => ((View.run runId).sequence event : ℤ)) 0
      (visible ((View.run runId).events history)) := by
  intro hcompletes
  have hnodup : (visible ((View.run runId).events history)).Nodup :=
    (List.Nodup.of_map _ h.ids).sublist (filter_sublist.trans filter_sublist)
  generalize visible ((View.run runId).events history) = events at *
  -- The first event is not read.
  obtain ⟨hread, -⟩ := hcompletes.mem _ (getElem_mem (by omega : 0 < events.length))
  obtain ⟨index, hindex, heq⟩ := mem_iff_getElem.mp hread
  simp only [View.window, List.rtake, getElem_drop, length_drop] at heq hindex
  have hsame := (hnodup.getElem_inj_iff).mp heq
  omega

theorem boundaries_le_iff {size count apart : ℕ} (hsize : 0 < size) :
    (∀ k, 0 < k → k * size < count → k * size ≤ apart) ↔ count ≤ (apart / size + 1) * size := by
  have hnext : apart < (apart / size + 1) * size := by
    have hmod := Nat.mod_lt apart hsize
    have hdiv := Nat.div_add_mod apart size
    nlinarith
  constructor
  · intro h
    by_contra hlt
    have hle := h (apart / size + 1) (Nat.succ_pos _) (by omega)
    omega
  · intro h k _ hlt
    have hk : k * size < (apart / size + 1) * size := lt_of_lt_of_le hlt h
    have hk' : k ≤ apart / size := Nat.lt_succ_iff.mp (Nat.lt_of_mul_lt_mul_right hk)
    exact le_trans (Nat.mul_le_mul_right size hk') (Nat.div_mul_le_self apart size)

theorem AgentStore.Records.boundaries_iff (h : store.Records history) (view : View) {size : ℕ}
    (hsize : 0 < size) :
    (∀ k, 0 < k → k * size < (visible (view.events history)).length →
      StrictAt (visible (view.events history)) (fun event => (view.sequence event : ℤ))
        (k * size)) ↔
      ∀ runId, view = .run runId → (visible (view.events history)).length ≤
        ((numberedApart view history).length / size + 1) * size := by
  cases view with
  | run runId =>
    have hforall : (∀ runId', View.run runId = .run runId' →
        (visible ((View.run runId).events history)).length ≤
          ((numberedApart (.run runId) history).length / size + 1) * size) ↔
        (visible ((View.run runId).events history)).length ≤
          ((numberedApart (.run runId) history).length / size + 1) * size :=
      ⟨fun h => h runId rfl, fun h _ _ => h⟩
    rw [hforall, ← boundaries_le_iff hsize]
    refine forall_congr' fun k => forall_congr' fun hk => forall_congr' fun hlt => ?_
    exact h.run_strictAt_iff runId (Nat.mul_pos hk hsize) hlt
  | session agentId sessionId =>
    refine iff_of_true (fun k hk _ => h.session_strictAt agentId sessionId
      (Nat.mul_pos hk hsize)) ?_
    intro runId heq
    cases heq

/-- The pages of a recorded history are complete exactly if it is pageable. -/
theorem AgentStore.Records.pagesComplete_iff (h : store.Records history)
    (hview : store.hasView hasSession view = true) :
    store.PagesComplete hasSession view limit (visible (view.events history)) ↔
      Pageable view history limit := by
  have hread : 1000 ≤ readLimit := by decide
  rcases lt_or_ge limit 1 with hnonpos | hpos
  · refine iff_of_false ?_ fun hpageable => absurd hpageable.positive (by omega)
    exact not_completes_of_always_more (h.fetchPage_of_le hview (by omega))
  rcases lt_or_ge 1000 limit with hgt | hle
  · rw [h.pagesComplete_of_gt hview hgt]
    constructor
    · intro hshort
      refine ⟨hpos, fun hle => absurd hle (by omega), fun _ => hshort, fun runId _ => ⟨?_, ?_⟩⟩
      · omega
      · have hmul := Nat.le_mul_of_pos_left limit.toNat
          (Nat.succ_pos ((numberedApart view history).length / limit.toNat))
        rw [Nat.succ_eq_add_one] at hmul
        omega
    · exact fun hpageable => hpageable.onePage hgt
  · obtain ⟨size, rfl⟩ : ∃ size : ℕ, limit = size := ⟨limit.toNat, by omega⟩
    have hsize : 0 < size := by omega
    rw [AgentStore.PagesComplete, h.fetchPage_eq_fetchSorted hview hpos hle, Int.toNat_natCast]
    by_cases hlong : ∃ runId, view = .run runId ∧ readLimit < (visible (view.events history)).length
    · obtain ⟨runId, rfl, hlong⟩ := hlong
      refine iff_of_false (h.not_complete_of_long hlong) fun hpageable => ?_
      have hrun := (hpageable.run runId rfl).1
      omega
    · have hwindow : view.window (visible (view.events history)) =
          visible (view.events history) := by
        cases view with
        | run runId =>
          refine View.window_of_length_le _ ?_
          by_contra hgt
          exact hlong ⟨runId, rfl, by omega⟩
        | session agentId sessionId => rfl
      have hafter : ∀ event ∈ visible (view.events history), (0 : ℤ) < view.sequence event := by
        intro event hevent
        exact_mod_cast h.sequence_pos (mem_filter.mp hevent).1
      rw [hwindow, completes_fetchSorted_iff (h.visible_sorted view) hsize hafter,
        h.boundaries_iff view hsize]
      constructor
      · rintro ⟨hlast, hboundaries⟩
        refine ⟨hpos, fun _ => ?_, fun hgt => absurd hgt (by omega), fun runId hrun => ⟨?_, ?_⟩⟩
        · rwa [Int.natCast_dvd_natCast]
        · by_contra hgt
          exact hlong ⟨runId, hrun, by omega⟩
        · rw [Int.toNat_natCast]
          exact hboundaries runId hrun
      · intro hpageable
        refine ⟨?_, fun runId hrun => ?_⟩
        · have hlast := hpageable.partialPage hle
          rwa [Int.natCast_dvd_natCast] at hlast
        · have hrun := (hpageable.run runId hrun).2
          rwa [Int.toNat_natCast] at hrun

end

theorem Follower.run_recorded (ids : IdSource) (hasSession : String → String → Bool) (view : View)
    (ops : List AgentOp) :
    (run (Follower.step ids hasSession view) Follower.start ops).Recorded ids :=
  run_always (fun _ op h => h.step op) Follower.start_recorded ops

/-- The store holds all events that were ever appended, each under its own identifier: the log of a
run in order, numbered up to the limit of one read, and increasing sequences in each session. -/
theorem appended_events_are_recorded (ids : IdSource) (hasSession : String → String → Bool)
    (view : View) (ops : List AgentOp) :
    (run (Follower.step ids hasSession view) Follower.start ops).store.Records
      (run (Follower.step ids hasSession view) Follower.start ops).history :=
  (Follower.run_recorded ids hasSession view ops).records

/-- For every log that appends can leave behind, every view and every limit: paging by sequence
ends, returns every visible event once and in order, and `has_more` is right, if and only if the
log is pageable by the limit. -/
theorem pagination_complete_iff (ids : IdSource) (hasSession : String → String → Bool) (view : View)
    (ops : List AgentOp) (limit : ℤ)
    (hview : (run (Follower.step ids hasSession view) Follower.start ops).store.hasView hasSession
      view = true) :
    (run (Follower.step ids hasSession view) Follower.start ops).store.PagesComplete hasSession view
      limit (visible (view.events
        (run (Follower.step ids hasSession view) Follower.start ops).history)) ↔
    Pageable view (run (Follower.step ids hasSession view) Follower.start ops).history limit := by
  exact (Follower.run_recorded ids hasSession view ops).records.pagesComplete_iff hview

def oneVisible (view : View) : Follower :=
  run (Follower.step unaryIds (fun _ _ => true) view) Follower.start
    [.createRun sampleRun "t0", .append sampleRun "t1" true]

def threeVisible (view : View) : Follower :=
  run (Follower.step unaryIds (fun _ _ => true) view) Follower.start
    [.createRun sampleRun "t0", .append sampleRun "t1" true, .append sampleRun "t2" true,
      .append sampleRun "t3" true]

/-- A second page of two holds the last of three visible events. -/
theorem pages_of_two_complete :
    (threeVisible (.run "run")).store.PagesComplete (fun _ _ => true) (.run "run") 2
      (visible ((View.run "run").events (threeVisible (.run "run")).history)) := by
  refine (pagination_complete_iff unaryIds (fun _ _ => true) (.run "run")
    [.createRun sampleRun "t0", .append sampleRun "t1" true, .append sampleRun "t2" true,
      .append sampleRun "t3" true] 2 (by decide)).mpr ?_
  refine ⟨by decide, fun _ => Or.inr (by decide), fun h => absurd h (by decide), ?_⟩
  intro runId hrun
  cases hrun
  exact ⟨by decide, by decide⟩

/-- One visible event and pages of one: the only page promises more, in the view of the run
and in that of its session. With a limit of 0 every page promises more. -/
theorem full_last_page_promises_more :
    ¬(oneVisible (.run "run")).store.PagesComplete (fun _ _ => true) (.run "run") 1
      (visible ((View.run "run").events (oneVisible (.run "run")).history)) ∧
    ¬(oneVisible (.session "agent" "session")).store.PagesComplete (fun _ _ => true)
      (.session "agent" "session") 1 (visible ((View.session "agent" "session").events
        (oneVisible (.session "agent" "session")).history)) ∧
    ¬(oneVisible (.run "run")).store.PagesComplete (fun _ _ => true) (.run "run") 0
      (visible ((View.run "run").events (oneVisible (.run "run")).history)) := by
  have hrecorded : ∀ view, (oneVisible view).Recorded unaryIds := fun view =>
    Follower.run_recorded unaryIds _ view _
  refine ⟨fun h => ?_, fun h => ?_, fun h => ?_⟩
  · have hpageable := ((hrecorded _).records.pagesComplete_iff (by decide)).mp h
    exact absurd (hpageable.partialPage (by decide)) (by decide)
  · have hpageable := ((hrecorded _).records.pagesComplete_iff (by decide)).mp h
    exact absurd (hpageable.partialPage (by decide)) (by decide)
  · have hpageable := ((hrecorded _).records.pagesComplete_iff (by decide)).mp h
    exact absurd hpageable.positive (by decide)

end AIpinho.Agents
