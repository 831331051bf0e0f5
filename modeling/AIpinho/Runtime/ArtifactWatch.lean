import AIpinho.Runtime.EventLogIntegrity
import AIpinho.Runtime.TerminalAccount
import Mathlib.Data.List.Pairwise

/-!
# When the watchdog of silent artifacts acts

The watchdog looks at the events of artifacts only. Whatever else is appended to a log
leaves its decision as it is, so what it does at the end of a reconciliation can be said
of the log before.
-/

namespace AIpinho.Runtime

open List Lib

def watchedTypes : List String :=
  "artifact_creation_started" :: "artifact_render_checkpoint" :: artifactTerminalTypes

/-- The watchdog does not look at the event, nor at what is saved of it. -/
structure TaskRunEvent.Quiet (e : TaskRunEvent) : Prop where
  type : e.type ∉ watchedTypes
  settled : sanitizeText e.type = e.type

/-- The log goes on with events that the watchdog does not look at. -/
structure Continues (events log : List TaskRunEvent) : Prop where
  numbered : Numbered log
  /-- The new events come after the old ones. -/
  extra : ∃ extra, log = events ++ extra ∧ ∀ e ∈ extra, e.Quiet

section Log

variable {codec : Codec} {runId : String} {events log : List TaskRunEvent} {e : TaskRunEvent}

theorem continues_refl (h : Numbered events) : Continues events events := ⟨h, [], by simp, by simp⟩

theorem TaskRunEvent.Quiet.stored (he : e.Quiet) (index : ℕ) (sequence : ℤ) :
    (storedEvent codec runId index { e with sequence := sequence }).Quiet := by
  have htype : (storedEvent codec runId index { e with sequence := sequence }).type = e.type :=
    he.settled
  refine ⟨?_, ?_⟩
  · rw [htype]
    exact he.type
  · rw [htype]
    exact he.settled

theorem Continues.push (h : Continues events log)
    (hsaved : storedEvents codec runId events = events) (he : e.Quiet) :
    Continues events (pushEvent codec runId log e) := by
  obtain ⟨extra, rfl, hextra⟩ := h.extra
  refine ⟨h.numbered.push e,
    (extra ++ [{ e with sequence := nextSequence (events ++ extra) }]).mapIdx
      (fun i => storedEvent codec runId (i + events.length)), ?_, ?_⟩
  · rw [pushEvent, append_assoc, storedEvents, mapIdx_append, ← storedEvents, hsaved]
  · intro e' he'
    obtain ⟨i, hi, rfl⟩ := mem_mapIdx.mp he'
    have hmem := getElem_mem hi
    rcases mem_append.mp hmem with hold | hnew
    · exact (hextra _ hold).stored _ _
    · rw [mem_singleton.mp hnew]
      exact he.stored _ _

theorem Continues.appendEvent (h : Continues events log)
    (hsaved : storedEvents codec runId events = events) (he : e.Quiet)
    (hterminal : e.isTerminal = false) (stamp : Stamp) :
    Continues events (appendEvent codec runId stamp e log) := by
  have hnone : refusedBy log e = none := by simp [refusedBy, hterminal]
  rw [Runtime.appendEvent, hnone]
  exact h.push hsaved he

theorem Numbered.of_append {extra : List TaskRunEvent} (h : Numbered (events ++ extra)) :
    Numbered events := by
  have hmap := congrArg (List.take events.length) h
  rw [map_append, take_left' (by simp), ← map_take, take_range] at hmap
  rw [Numbered, hmap]
  simp

theorem Numbered.insertionSort_ge (h : Numbered events) :
    (events.insertionSort fun a b => a.sequence ≥ b.sequence) = events.reverse := by
  have hincreasing : events.Pairwise fun a b => a.sequence < b.sequence := by
    have hmap : (events.map (·.sequence)).Pairwise (· < ·) := by
      rw [h, pairwise_map]
      refine List.pairwise_lt_range.imp ?_
      intro a b hab
      omega
    exact pairwise_map.mp hmap
  have hreverse : events.reverse.Pairwise fun a b => a.sequence ≥ b.sequence :=
    pairwise_reverse.mpr (hincreasing.imp fun hab => le_of_lt hab)
  have hne : events.Pairwise fun a b => a.sequence ≠ b.sequence :=
    hincreasing.imp fun hab => ne_of_lt hab
  have hinjective : ∀ a ∈ events, ∀ b ∈ events, a.sequence = b.sequence → a = b := by
    intro a ha b hb hab
    by_contra hdiff
    have : Std.Symm fun a b : TaskRunEvent => a.sequence ≠ b.sequence :=
      ⟨fun _ _ hxy => Ne.symm hxy⟩
    exact hne.forall ha hb hdiff hab
  have hsorted : (events.insertionSort fun a b => a.sequence ≥ b.sequence).Pairwise
      fun a b => a.sequence ≥ b.sequence := by
    have : Std.Total fun a b : TaskRunEvent => a.sequence ≥ b.sequence :=
      ⟨fun a b => le_total b.sequence a.sequence⟩
    have : IsTrans TaskRunEvent fun a b => a.sequence ≥ b.sequence :=
      ⟨fun _ _ _ hab hbc => le_trans hbc hab⟩
    exact pairwise_insertionSort _ events
  refine List.Perm.eq_of_pairwise (fun a b ha hb hab hba => ?_) hsorted hreverse ?_
  · refine hinjective a (by simpa using ha) b (by simpa using hb) (le_antisymm hba hab)
  · exact (perm_insertionSort _ events).trans (reverse_perm events).symm

theorem TaskRunEvent.Quiet.ne_started (he : e.Quiet) : e.type ≠ "artifact_creation_started" :=
  fun h => he.type (by rw [h]; decide)

theorem TaskRunEvent.Quiet.ne_checkpoint (he : e.Quiet) : e.type ≠ "artifact_render_checkpoint" :=
  fun h => he.type (by rw [h]; decide)

theorem TaskRunEvent.Quiet.not_terminal (he : e.Quiet) : e.type ∉ artifactTerminalTypes :=
  fun h => he.type (mem_cons_of_mem _ (mem_cons_of_mem _ h))

section Decision

variable (codec : Codec) (h : Continues events log)
include h

theorem Continues.hasArtifactTerminalAfter (e : TaskRunEvent) :
    hasArtifactTerminalAfter codec log e = hasArtifactTerminalAfter codec events e := by
  obtain ⟨extra, rfl, hextra⟩ := h.extra
  rw [Runtime.hasArtifactTerminalAfter, Runtime.hasArtifactTerminalAfter, any_append]
  have hnone : ∀ p : TaskRunEvent → Bool, extra.any (fun e' =>
      decide (e.sequence < e'.sequence) && artifactTerminalTypes.contains e'.type && p e') =
        false := by
    intro p
    rw [any_eq_false]
    intro e' he'
    simp [(hextra e' he').not_terminal]
  rw [hnone, Bool.or_false]

theorem Continues.artifactCreationInProgress :
    artifactCreationInProgress codec log = artifactCreationInProgress codec events := by
  have hafter : (fun e : TaskRunEvent => decide (e.type = "artifact_creation_started") &&
      !Runtime.hasArtifactTerminalAfter codec log e) = fun e =>
        decide (e.type = "artifact_creation_started") &&
          !Runtime.hasArtifactTerminalAfter codec events e := by
    funext e
    rw [h.hasArtifactTerminalAfter codec e]
  rw [Runtime.artifactCreationInProgress, Runtime.artifactCreationInProgress, hafter,
    h.numbered.insertionSort_ge]
  obtain ⟨extra, rfl, hextra⟩ := h.extra
  rw [(Numbered.of_append h.numbered).insertionSort_ge, reverse_append, find?_append]
  have hnone : extra.reverse.find? (fun e => decide (e.type = "artifact_creation_started") &&
      !Runtime.hasArtifactTerminalAfter codec events e) = none := by
    rw [find?_eq_none]
    intro e he
    simp [(hextra e (mem_reverse.mp he)).ne_started]
  rw [hnone, Option.none_or]

theorem Continues.lastArtifactRenderCheckpoint (e : TaskRunEvent) :
    lastArtifactRenderCheckpoint codec log e = lastArtifactRenderCheckpoint codec events e := by
  obtain ⟨extra, rfl, hextra⟩ := h.extra
  rw [Runtime.lastArtifactRenderCheckpoint, Runtime.lastArtifactRenderCheckpoint, filter_append]
  have hnone : ∀ p : TaskRunEvent → Bool, extra.filter (fun e' =>
      decide (e.sequence < e'.sequence) && decide (e'.type = "artifact_render_checkpoint") &&
        p e') = [] := by
    intro p
    rw [filter_eq_nil_iff]
    intro e' he'
    simp [(hextra e' he').ne_checkpoint]
  rw [hnone, append_nil]

theorem Continues.stalledArtifact (clock : Clock) (maxSilence : ℤ) :
    stalledArtifact codec clock maxSilence log = stalledArtifact codec clock maxSilence events := by
  rw [Runtime.stalledArtifact, Runtime.stalledArtifact, h.artifactCreationInProgress codec]
  congr 1
  funext e
  rw [artifactSilence, artifactSilence, h.lastArtifactRenderCheckpoint codec e]

end Decision

end Log

/-- The watchdog would block the run, if it goes on. -/
def RunFiles.IsStalled (services : StoreServices) (clock : Clock) (maxSilence : ℤ)
    (files : RunFiles) : Prop :=
  files.result = none ∧ ¬HasEnd files.events ∧
    ∃ e, stalledArtifact services.codec clock maxSilence files.events = some e ∧
      (clock.elapsed e.timestamp).isSome = true

section Watch

variable {services : StoreServices} {clock : Clock} {maxSilence : ℤ} {codec : Codec}
  {runId : String} {files : RunFiles}

theorem run_terminalize_of_not_stalled (reasonCode source : String)
    (h : ¬files.IsStalled services clock maxSilence) :
    ((terminalizeIfArtifactCreationStalled services clock maxSilence reasonCode source).run
      (runHandler codec runId) files).2 = files := by
  by_cases hactive : files.result = none ∧
      ∃ run, files.getRun = .found run ∧ run.status.isActive = true
  · obtain ⟨hresult, run, hread, hactive⟩ := hactive
    by_cases hend : HasEnd files.events
    · rw [run_terminalize_of_found hresult hread (.inr hend)]
    · have hwatch : StallWatch services clock maxSilence codec runId run files _ :=
        stallWatch_of_active hresult hread hactive hend maxSilence reasonCode source
      generalize (terminalizeIfArtifactCreationStalled services clock maxSilence reasonCode
        source).run (runHandler codec runId) files = r at hwatch ⊢
      cases hwatch with
      | quiet | fails => rfl
      | blocks artifactEvent failed ended result reason row hstalled helapsed _ _ _ _ =>
        exact absurd ⟨hresult, hend, artifactEvent, hstalled, helapsed⟩ h
  · refine run_terminalize_of_inactive maxSilence reasonCode source ?_
    by_cases hresult : files.result = none
    · right
      intro run hread
      by_contra hnot
      exact hactive ⟨hresult, run, hread, by simpa using hnot⟩
    · left
      exact Option.isSome_iff_ne_none.mpr hresult

end Watch

/-- The operation writes the run or appends an event that the watchdog does not look
at. -/
def RunOp.IsUnwatched : RunOp → Prop
  | .getRun => True
  | .updateRun _ => True
  | .appendEvent e => e.Quiet
  | _ => False

/-- The files have the result they had, and their log has ended or goes on without
artifacts. -/
structure RunFiles.Follows (files before : RunFiles) : Prop where
  result : files.result = before.result
  /-- The log has ended, or goes on without artifacts. -/
  events : HasEnd files.events ∨ Continues before.events files.events

section Follows

variable {services : StoreServices} {clock : Clock} {maxSilence : ℤ} {codec : Codec}
  {runId : String} {before files : RunFiles}

theorem RunFiles.Follows.step (h : files.Follows before)
    (hsaved : storedEvents codec runId before.events = before.events) {op : RunOp}
    (hop : op.IsUnwatched) : (runHandler codec runId op files).2.Follows before := by
  cases op with
  | getRun => exact h
  | updateRun run => exact ⟨h.result, h.events⟩
  | appendEvent e =>
    refine ⟨h.result, ?_⟩
    let e' : TaskRunEvent := { e with eventId := files.nextEventId, runId := runId }
    have hquiet : e'.Quiet := ⟨hop.type, hop.settled⟩
    rcases h.events with hend | hcontinues
    · exact .inl (HasEnd.appendEvent (.inl hend) _)
    · cases hterminal : e'.isTerminal with
      | true => exact .inl (HasEnd.appendEvent (.inr hterminal) _)
      | false => exact .inr (hcontinues.appendEvent hsaved hquiet hterminal _)
  | _ => exact hop.elim

/-- A service that the watchdog does not notice. -/
theorem RunFiles.Follows.run {α : Type} {p : RunProgram α} (hp : p.Issues RunOp.IsUnwatched)
    (hlog : Runtime.Settled codec runId files.events) :
    (p.run (runHandler codec runId) files).2.Follows files := by
  have hrefl : files.Follows files := ⟨rfl, .inr (continues_refl hlog.numbered)⟩
  exact hp.keeps (P := fun files' => files'.Follows files)
    (fun _ _ hop h => h.step hlog.saved hop) files hrefl

theorem RunFiles.Follows.isStalled (h : files.Follows before)
    (hstalled : files.IsStalled services clock maxSilence) :
    before.IsStalled services clock maxSilence := by
  obtain ⟨hresult, hnoEnd, e, he, helapsed⟩ := hstalled
  have hcontinues := h.events.resolve_left hnoEnd
  refine ⟨h.result.symm.trans hresult, ?_, e, ?_, helapsed⟩
  · rintro ⟨e', he', hterminal⟩
    obtain ⟨extra, hextra, -⟩ := hcontinues.extra
    exact hnoEnd ⟨e', by rw [hextra]; exact mem_append_left _ he', hterminal⟩
  · rw [← hcontinues.stalledArtifact]
    exact he

theorem createEvent_unwatched (now status message : String) (metadata : List (String × Json))
    {type : String} (htype : type ∉ watchedTypes) (hsettled : sanitizeText type = type) :
    (createEvent now type status message metadata).Issues RunOp.IsUnwatched :=
  ⟨⟨htype, hsettled⟩, fun _ => trivial⟩

theorem ofExcept_unwatched {α : Type} (x : Except String α) :
    (RunProgram.ofExcept x).Issues RunOp.IsUnwatched := by
  cases x with
  | ok | error => exact trivial

theorem updateRun_unwatched (run : TaskRun) : (RunProgram.updateRun run).Issues RunOp.IsUnwatched :=
  ⟨trivial, fun _ => trivial⟩

theorem getRun_unwatched (notFound : String) :
    (RunProgram.getRun notFound).Issues RunOp.IsUnwatched := by
  refine ⟨trivial, fun read => ?_⟩
  cases read with
  | missing | invalid | found => exact trivial

theorem cancel_unwatched (now reason : String) : (cancel now reason).Issues RunOp.IsUnwatched := by
  refine (getRun_unwatched _).bind fun run => ?_
  dsimp only
  split
  · exact trivial
  · refine (createEvent_unwatched now _ _ _ (by decide) (by decide)).bind fun _ => ?_
    split
    · refine (ofExcept_unwatched _).bind fun run' => ?_
      refine (createEvent_unwatched now _ _ _ (by decide) (by decide)).bind fun _ => ?_
      exact (updateRun_unwatched _).bind fun _ => trivial
    · exact (updateRun_unwatched _).bind fun _ => trivial

end Follows

end AIpinho.Runtime
