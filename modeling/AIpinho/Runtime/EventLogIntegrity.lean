import AIpinho.Runtime.EventLog
import Mathlib.Data.List.Induction

/-!
# Integrity of the event log

Every append should keep the numbering and the old events, and record a refused terminal event
once for each reason code. The store rewrites the log on every append, so an old event stays
only if saving it again changes nothing; and it compares the reason code it was given with the
one it has saved.
-/

namespace AIpinho.Runtime

open List Lib

/-- One call of `append_event`, with the stamp for the record of a refusal. -/
structure AppendCall where
  event : TaskRunEvent
  /-- Identifier and time of the record, should the event be refused. -/
  stamp : Stamp

def appendAll (codec : Codec) (runId : String) (events : List TaskRunEvent)
    (calls : List AppendCall) : List TaskRunEvent :=
  calls.foldl (fun events call => appendEvent codec runId call.stamp call.event events) events

/-- What a call may do to the log that the calls before it have left. -/
structure LogLaw (codec : Codec) (runId : String) (calls : List AppendCall) (call : AppendCall) :
    Prop where
  /-- The sequence numbers are `1..n` in the order of the file. -/
  numbered : Numbered (appendAll codec runId [] (calls ++ [call]))
  /-- There is at most one terminal event. -/
  oneTerminal : ((appendAll codec runId [] (calls ++ [call])).filter (·.isTerminal)).length ≤ 1
  /-- The old events stay as they are, at the front. -/
  keeps : appendAll codec runId [] calls <+: appendAll codec runId [] (calls ++ [call])
  adds : refusedBy (appendAll codec runId [] calls) call.event = none →
    appendAll codec runId [] (calls ++ [call]) = appendAll codec runId [] calls ++
      [storedEvent codec runId (appendAll codec runId [] calls).length
        { call.event with sequence := (appendAll codec runId [] calls).length + 1 }]
  refuses : ∀ terminal, refusedBy (appendAll codec runId [] calls) call.event = some terminal →
    appendAll codec runId [] (calls ++ [call]) = appendAll codec runId [] calls ∨
      ∃ record : TaskRunEvent, record.type = ignoredType ∧
        appendAll codec runId [] (calls ++ [call]) = appendAll codec runId [] calls ++ [record]
  /-- After a refusal, another one with the same reason code adds nothing. -/
  once : ∀ before earlier after, calls = before ++ earlier :: after →
    (refusedBy (appendAll codec runId [] before) earlier.event).isSome →
    (refusedBy (appendAll codec runId [] calls) call.event).isSome →
    attemptedReasonCode codec earlier.event = attemptedReasonCode codec call.event →
    appendAll codec runId [] (calls ++ [call]) = appendAll codec runId [] calls

/-- Saving the metadata of an event a second time changes nothing. -/
def SettledMetadata (codec : Codec) (runId : String) (index : ℕ)
    (metadata : List (String × Json)) : Prop :=
  storedMetadata codec runId index (storedMetadata codec runId index metadata) =
    storedMetadata codec runId index metadata

/-- The condition on one call, given the log before it: the metadata of the event is settled; or
the event is refused, and if the refusal is not on record then its reason code is saved as it is,
in settled metadata that are not spilled. -/
def SettledCall (codec : Codec) (runId : String) (events : List TaskRunEvent)
    (call : AppendCall) : Prop :=
  match refusedBy events call.event with
  | none => SettledMetadata codec runId events.length call.event.metadata
  | some terminal =>
    let reasonCode := attemptedReasonCode codec call.event
    let metadata := ignoredMetadata terminal call.event.status reasonCode
    events.any (recordsRefusal terminal reasonCode) = true ∨
      sanitizeText reasonCode = reasonCode ∧
        spills "metadata" (.obj (sanitizeFields metadata)) = false ∧
        SettledMetadata codec runId events.length metadata

/-- Every call of a sequence meets the condition at the log it finds. -/
def SettledCalls (codec : Codec) (runId : String) (calls : List AppendCall) : Prop :=
  ∀ before call after, calls = before ++ call :: after →
    SettledCall codec runId (appendAll codec runId [] before) call

theorem settledMetadata_of_inline (codec : Codec) (runId : String) (index : ℕ)
    {metadata : List (String × Json)}
    (hinline : spilledPayloads "metadata" (sanitizeValue (.obj metadata)) = []) :
    SettledMetadata codec runId index metadata := by
  have hstored : Json.obj (storedMetadata codec runId index metadata) =
      sanitizeValue (.obj metadata) := by
    rw [obj_storedMetadata, lighten_eq_self codec runId _ _ hinline]
  have hagain : Json.obj (storedMetadata codec runId index
      (storedMetadata codec runId index metadata)) = sanitizeValue (.obj metadata) := by
    rw [obj_storedMetadata, hstored, sanitizeValue_sanitizeValue,
      lighten_eq_self codec runId _ _ hinline]
  exact Json.obj.inj (hagain.trans hstored.symm)

variable {codec : Codec} {runId : String} {events : List TaskRunEvent}

/-- What the calls keep: the log is numbered, has at most one terminal event,
and saving it again changes nothing. -/
structure Settled (codec : Codec) (runId : String) (events : List TaskRunEvent) : Prop where
  numbered : Numbered events
  oneTerminal : (events.filter (·.isTerminal)).length ≤ 1
  saved : storedEvents codec runId events = events

theorem settled_nil : Settled codec runId [] := ⟨numbered_nil, by simp, rfl⟩

theorem Settled.push_eq (hevents : Settled codec runId events) (e : TaskRunEvent) :
    pushEvent codec runId events e = events ++
      [storedEvent codec runId events.length { e with sequence := events.length + 1 }] := by
  rw [pushEvent, storedEvents, mapIdx_append, ← storedEvents, hevents.saved,
    hevents.numbered.nextSequence]
  simp only [mapIdx_cons, mapIdx_nil, Nat.zero_add]

variable {e : TaskRunEvent} {call : AppendCall} {before after : List AppendCall}

theorem storedEvent_storedEvent {index : ℕ} (he : SettledMetadata codec runId index e.metadata) :
    storedEvent codec runId index (storedEvent codec runId index e) =
      storedEvent codec runId index e := by
  have hstep : (e.stepId.map sanitizeText).map sanitizeText = e.stepId.map sanitizeText := by
    cases e.stepId <;> simp
  simp only [storedEvent, sanitizeText_sanitizeText, hstep]
  rw [he]

theorem Settled.push (hevents : Settled codec runId events)
    (hterminal : e.isTerminal = true → firstTerminalEvent events = none)
    (he : SettledMetadata codec runId events.length e.metadata) :
    Settled codec runId (pushEvent codec runId events e) := by
  refine ⟨hevents.numbered.push e, ?_, ?_⟩
  · rw [hevents.push_eq, filter_append, length_append]
    by_cases hte : e.isTerminal = true
    · have hnone := hterminal hte
      rw [hevents.numbered.firstTerminalEvent, find?_eq_none] at hnone
      rw [filter_eq_nil_iff.mpr hnone]
      exact Nat.le_trans (Nat.add_le_add_left (length_filter_le _ _) _) (by simp)
    · have hlast : (storedEvent codec runId events.length
          { e with sequence := (events.length : ℤ) + 1 }).isTerminal = false := by
        rw [isTerminal_storedEvent]
        simpa [TaskRunEvent.isTerminal] using hte
      simpa [hlast] using hevents.oneTerminal
  · rw [hevents.push_eq, storedEvents, mapIdx_append, ← storedEvents, hevents.saved]
    simp only [mapIdx_cons, mapIdx_nil, Nat.zero_add]
    rw [storedEvent_storedEvent]
    exact he

theorem Settled.eventId (hevents : Settled codec runId events) (he : e ∈ events) :
    sanitizeText e.eventId = e.eventId := by
  rw [← hevents.saved, storedEvents, mem_mapIdx] at he
  obtain ⟨i, hi, rfl⟩ := he
  exact sanitizeText_sanitizeText _

theorem textField?_ignoredMetadata (terminal : TaskRunEvent) (status reasonCode : String) :
    textField? (sanitizeFields (ignoredMetadata terminal status reasonCode))
        "terminal_event_id" = some (sanitizeText terminal.eventId) ∧
      textField? (sanitizeFields (ignoredMetadata terminal status reasonCode))
        "attempted_reason_code" = some (sanitizeText reasonCode) := by
  have hid : isSensitiveKey "terminal_event_id" = false := by decide
  have hreason : isSensitiveKey "attempted_reason_code" = false := by decide
  constructor <;>
    simp [ignoredMetadata, sanitizeFields, textField?, lookup_cons, sanitizeValue, Json.text?,
      hid, hreason]

theorem recordsRefusal_storedEvent {index : ℕ} {sequence : ℤ} {stamp : Stamp}
    {terminal : TaskRunEvent} (hid : sanitizeText terminal.eventId = terminal.eventId)
    {status reasonCode : String} (hreason : sanitizeText reasonCode = reasonCode)
    (hspill : spills "metadata"
      (.obj (sanitizeFields (ignoredMetadata terminal status reasonCode))) = false) :
    recordsRefusal terminal reasonCode (storedEvent codec runId index
      { ignoredEvent runId stamp terminal status reasonCode with
        sequence := sequence }) = true := by
  obtain ⟨hstoredId, hstoredReason⟩ := textField?_ignoredMetadata terminal status reasonCode
  have htype : sanitizeText ignoredType = ignoredType := by decide
  simp only [recordsRefusal, storedEvent, ignoredEvent, htype, storedMetadata, hspill,
    Bool.false_eq_true, if_false, textField?_lightenFields, hstoredId, hstoredReason, hid, hreason]
  simp

theorem refusedBy_mem {terminal : TaskRunEvent} (h : refusedBy events e = some terminal) :
    terminal ∈ events := by
  rw [refusedBy] at h
  split at h
  · exact (mem_insertionSort _).mp (mem_of_find?_eq_some h)
  · cases h

theorem Settled.append (hevents : Settled codec runId events)
    (hcall : SettledCall codec runId events call) :
    Settled codec runId (appendEvent codec runId call.stamp call.event events) ∧
      match refusedBy events call.event with
      | none => appendEvent codec runId call.stamp call.event events = events ++
          [storedEvent codec runId events.length
            { call.event with sequence := events.length + 1 }]
      | some terminal =>
        events.any (recordsRefusal terminal (attemptedReasonCode codec call.event)) = true ∧
          appendEvent codec runId call.stamp call.event events = events ∨
        ∃ record : TaskRunEvent, record.type = ignoredType ∧
          recordsRefusal terminal (attemptedReasonCode codec call.event) record = true ∧
          appendEvent codec runId call.stamp call.event events = events ++ [record] := by
  rw [SettledCall] at hcall
  cases href : refusedBy events call.event with
  | none =>
    rw [href] at hcall
    simp only [appendEvent, href]
    refine ⟨hevents.push ?_ hcall, hevents.push_eq _⟩
    intro hterminal
    rwa [refusedBy, if_pos hterminal] at href
  | some terminal =>
    rw [href] at hcall
    simp only [appendEvent, href, appendTerminalizationIgnored]
    by_cases hany :
        events.any (recordsRefusal terminal (attemptedReasonCode codec call.event)) = true
    · rw [if_pos hany]
      exact ⟨hevents, .inl ⟨hany, rfl⟩⟩
    · rw [if_neg hany]
      obtain ⟨hreason, hspill, hmeta⟩ := hcall.resolve_left hany
      refine ⟨hevents.push ?_ hmeta, .inr ⟨_, ?_, ?_, hevents.push_eq _⟩⟩
      · intro hterminal
        rw [isTerminal_ignoredEvent] at hterminal
        cases hterminal
      · exact (by decide : sanitizeText ignoredType = ignoredType)
      · exact recordsRefusal_storedEvent (hevents.eventId (refusedBy_mem href)) hreason hspill

theorem Settled.keeps (hevents : Settled codec runId events)
    (hcall : SettledCall codec runId events call) :
    events <+: appendEvent codec runId call.stamp call.event events := by
  have h := (hevents.append hcall).2
  cases href : refusedBy events call.event with
  | none =>
    rw [href] at h
    exact h ▸ prefix_append _ _
  | some terminal =>
    rw [href] at h
    rcases h with ⟨-, h⟩ | ⟨record, -, -, h⟩
    · exact (congrArg (events <+: ·) h).mpr (prefix_refl events)
    · exact h ▸ prefix_append _ _

variable {calls : List AppendCall}

theorem appendAll_concat (events : List TaskRunEvent) (calls : List AppendCall)
    (call : AppendCall) :
    appendAll codec runId events (calls ++ [call]) =
      appendEvent codec runId call.stamp call.event (appendAll codec runId events calls) := by
  simp [appendAll]

theorem SettledCalls.of_append (h : SettledCalls codec runId (before ++ after)) :
    SettledCalls codec runId before := by
  rintro before' call after' rfl
  exact h before' call (after' ++ after) (by simp)

theorem SettledCalls.last (h : SettledCalls codec runId (calls ++ [call])) :
    SettledCall codec runId (appendAll codec runId [] calls) call :=
  h calls call [] rfl

theorem SettledCalls.settled (h : SettledCalls codec runId calls) :
    Settled codec runId (appendAll codec runId [] calls) := by
  induction calls using List.reverseRecOn with
  | nil => exact settled_nil
  | append_singleton calls call ih =>
    rw [appendAll_concat]
    exact ((ih h.of_append).append h.last).1

theorem SettledCalls.keeps (h : SettledCalls codec runId (before ++ after)) :
    appendAll codec runId [] before <+: appendAll codec runId [] (before ++ after) := by
  induction after using List.reverseRecOn with
  | nil => simp
  | append_singleton after call ih =>
    rw [← append_assoc] at h ⊢
    rw [appendAll_concat]
    exact (ih h.of_append).trans (h.of_append.settled.keeps h.last)

theorem refusedBy_of_initial {events' : List TaskRunEvent} (hevents : Numbered events)
    (hevents' : Numbered events') (hinitial : events <+: events') {e' t t' : TaskRunEvent}
    (h : refusedBy events e = some t) (h' : refusedBy events' e' = some t') : t' = t := by
  obtain ⟨rest, rfl⟩ := hinitial
  rw [refusedBy] at h h'
  split at h
  · split at h'
    · rw [hevents.firstTerminalEvent] at h
      rw [hevents'.firstTerminalEvent, find?_append, h] at h'
      exact (Option.some.inj h').symm
    · cases h'
  · cases h

theorem SettledCalls.once {earlier : AppendCall}
    (h : SettledCalls codec runId (before ++ earlier :: after))
    (hearlier : (refusedBy (appendAll codec runId [] before) earlier.event).isSome)
    (hcall : (refusedBy (appendAll codec runId [] (before ++ earlier :: after)) call.event).isSome)
    (hreason : attemptedReasonCode codec earlier.event = attemptedReasonCode codec call.event) :
    appendEvent codec runId call.stamp call.event
        (appendAll codec runId [] (before ++ earlier :: after)) =
      appendAll codec runId [] (before ++ earlier :: after) := by
  obtain ⟨t, ht⟩ := Option.isSome_iff_exists.mp hearlier
  obtain ⟨t', ht'⟩ := Option.isSome_iff_exists.mp hcall
  have hsplit : before ++ earlier :: after = (before ++ [earlier]) ++ after := by simp
  have hbefore : SettledCalls codec runId (before ++ [earlier]) := by
    rw [hsplit] at h
    exact h.of_append
  have hlater := h.settled
  -- The terminal event that refuses both calls is the same.
  obtain rfl : t' = t :=
    refusedBy_of_initial hbefore.of_append.settled.numbered hlater.numbered h.keeps ht ht'
  -- The record of the earlier refusal is still there.
  have hrecord : (appendAll codec runId [] (before ++ [earlier])).any
      (recordsRefusal t' (attemptedReasonCode codec earlier.event)) = true := by
    have hstep := (hbefore.of_append.settled.append hbefore.last).2
    rw [ht] at hstep
    rw [appendAll_concat]
    rcases hstep with ⟨hany, heq⟩ | ⟨record, -, hrec, heq⟩
    · rw [heq, hany]
    · rw [heq, any_append]
      simp [hrec]
  have hany : (appendAll codec runId [] (before ++ earlier :: after)).any
      (recordsRefusal t' (attemptedReasonCode codec call.event)) = true := by
    rw [← hreason, any_eq_true]
    obtain ⟨record, hmem, hrec⟩ := any_eq_true.mp hrecord
    rw [hsplit] at h ⊢
    exact ⟨record, h.keeps.subset hmem, hrec⟩
  simp only [appendEvent, ht', appendTerminalizationIgnored, hany, if_true]

/-- Every call of a settled run obeys the law of the log. -/
theorem append_event_keeps_log_law (codec : Codec) (runId : String) (calls : List AppendCall)
    (call : AppendCall) (hcalls : SettledCalls codec runId (calls ++ [call])) :
    LogLaw codec runId calls call := by
  have hlog := hcalls.of_append.settled
  have hlog' := hcalls.settled
  have hstep := (hlog.append hcalls.last).2
  refine ⟨hlog'.numbered, hlog'.oneTerminal, hcalls.keeps, ?_, ?_, ?_⟩
  · intro hnone
    rw [hnone] at hstep
    rw [appendAll_concat]
    exact hstep
  · intro terminal hsome
    rw [hsome] at hstep
    rw [appendAll_concat]
    rcases hstep with ⟨-, h⟩ | ⟨record, htype, -, h⟩
    · exact .inl h
    · exact .inr ⟨record, htype, h⟩
  · rintro before earlier after rfl hearlier hcall hreason
    rw [appendAll_concat]
    exact hcalls.of_append.once hearlier hcall hreason

def reasonedCall (type reasonCode : String) : AppendCall :=
  { event :=
      { eventId := "task_run_event_1", runId := "task_run_1", sequence := 7, type := type
        status := "failed", message := "", stepId := none, timestamp := ""
        metadata := [("reason_code", .str reasonCode)] }
    stamp := ⟨"task_run_event_2", ""⟩ }

def sampleCodec : Codec := ⟨fun _ => "0", fun _ => "[]"⟩

/-- A refused terminal event with a plain reason code. -/
theorem append_event_keeps_log_law_plain :
    LogLaw sampleCodec "task_run_1" [reasonedCall "run_failed" "timeout"]
      (reasonedCall "run_blocked" "budget") := by
  apply append_event_keeps_log_law
  intro before call after hsplit
  rcases before with _ | ⟨first, _ | ⟨second, before⟩⟩
  · obtain ⟨rfl, -⟩ := List.cons.inj hsplit
    exact settledMetadata_of_inline _ _ _ rfl
  · obtain ⟨rfl, hrest⟩ := List.cons.inj hsplit
    obtain ⟨rfl, -⟩ := List.cons.inj hrest
    exact .inr ⟨by decide, by decide, settledMetadata_of_inline _ _ _ rfl⟩
  · simp at hsplit

/-- A reason code that the store redacts is recorded at every refusal. -/
theorem redacted_reason_code_recorded_twice : ¬LogLaw sampleCodec "task_run_1"
      [reasonedCall "run_failed" "timeout", reasonedCall "run_blocked" "token=abc"]
      (reasonedCall "run_blocked" "token=abc") := by
  intro h
  have honce := h.once [reasonedCall "run_failed" "timeout"]
    (reasonedCall "run_blocked" "token=abc") [] rfl (by decide) (by decide) rfl
  have hlength := congrArg List.length honce
  revert hlength
  decide +kernel

end AIpinho.Runtime
