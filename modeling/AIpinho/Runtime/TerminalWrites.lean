import AIpinho.Runtime.LoopRuns

/-!
# What a service has seen when it writes

The loop and the two watchdogs end a run by several writes: the document, the result and the
terminal event. This module says what a service has exchanged with the store before each of
them.
-/

namespace AIpinho.Runtime

open List Lib

variable {o : RunOutcome} {xs : List runStore.Exchange}

theorem RunOutcome.status_injective {o' : RunOutcome} (h : o.status = o'.status) : o = o' := by
  cases o <;> cases o' <;> first | rfl | cases h

theorem RunOutcome.eventType_injective {o' : RunOutcome} (h : o.eventType = o'.eventType) :
    o = o' := by
  cases o <;> cases o' <;> first | rfl | simp [RunOutcome.eventType] at h

theorem RunOutcome.isTerminal_status (o : RunOutcome) : o.status.isTerminal = true := by
  cases o <;> rfl

theorem RunOutcome.isTerminal_eventType (o : RunOutcome) : o.eventType ∈ terminalEventTypes := by
  cases o <;> decide

theorem ResultStatus.runStatus_eq (status : ResultStatus) :
    status.runStatus = status.outcome.status := by
  cases status <;> rfl

theorem ResultStatus.terminalEventType_eq (status : ResultStatus) :
    status.terminalEventType = status.outcome.eventType := by
  cases status <;> rfl

theorem isTerminal_newEvent (now type status message : String) (metadata : List (String × Json)) :
    (newEvent now type status message metadata).isTerminal = terminalEventTypes.contains type := rfl

/-- The exchange shows that the run has ended with an outcome: a status or a
result that was read or written. An expired run, which nothing here produces,
tells every outcome. -/
inductive Tells (o : RunOutcome) : runStore.Exchange → Prop
  | read (run : TaskRun) (h : run.status = o.status ∨ run.status = .expired) :
      Tells o ⟨.getRun, .found run⟩
  | readResult (result : TaskRunResult) (h : result.status.outcome = o) :
      Tells o ⟨.readResult, some result⟩
  | wrote (run : TaskRun) (u : Unit) (h : run.status = o.status) : Tells o ⟨.updateRun run, u⟩
  | saved (now : String) (result : TaskRunResult) (u : Unit) (h : result.status.outcome = o) :
      Tells o ⟨.saveResult now result, u⟩

def Told (o : RunOutcome) (xs : List runStore.Exchange) : Prop := ∃ x ∈ xs, Tells o x

theorem Told.append (h : Told o xs) (ys : List runStore.Exchange) : Told o (xs ++ ys) := by
  obtain ⟨x, hx, htells⟩ := h
  exact ⟨x, mem_append_left _ hx, htells⟩

theorem Tells.told {x : runStore.Exchange} (h : Tells o x) (xs : List runStore.Exchange) :
    Told o (xs ++ [x]) := ⟨x, by simp, h⟩

/-- The result that is made up for a run has its status. -/
def StoreServices.FinalizerAgrees (services : StoreServices) : Prop :=
  ∀ run result, services.finalizer run = some result → result.status.runStatus = run.status

/-- The service has read a run that has not ended. -/
def SawActive (xs : List runStore.Exchange) : Prop :=
  ∃ run, (⟨.getRun, .found run⟩ : runStore.Exchange) ∈ xs ∧ run.status.isTerminal = false

def SawNoEnd (xs : List runStore.Exchange) : Prop :=
  ∃ events, (⟨.getEvents, events⟩ : runStore.Exchange) ∈ xs ∧ firstTerminalEvent events = none

theorem SawActive.append (h : SawActive xs) (ys : List runStore.Exchange) :
    SawActive (xs ++ ys) := by
  obtain ⟨run, hrun, hstatus⟩ := h
  exact ⟨run, mem_append_left _ hrun, hstatus⟩

theorem SawNoEnd.append (h : SawNoEnd xs) (ys : List runStore.Exchange) : SawNoEnd (xs ++ ys) := by
  obtain ⟨events, hevents, hnone⟩ := h
  exact ⟨events, mem_append_left _ hevents, hnone⟩

/-- What a watchdog may do after its exchanges: it blocks a run that it has seen
active and without a terminal event, and the other writes follow an outcome that
it has been told. -/
def WatchdogMay (xs : List runStore.Exchange) : RunOp → Prop
  | .updateRun run => run.status = .blocked ∧ SawActive xs ∧ SawNoEnd xs
  | .saveResult _ result => Told result.status.outcome xs
  | .cohereTerminalResult _ result => Told result.status.outcome xs
  | .appendEvent e => e.isTerminal = true → ∃ o, e.type = o.eventType ∧ Told o xs
  | _ => True

def FollowsOutcome (xs : List runStore.Exchange) : RunOp → Prop
  | .updateRun _ => False
  | .saveResult _ result => Told result.status.outcome xs
  | .cohereTerminalResult _ result => Told result.status.outcome xs
  | .appendEvent e => e.isTerminal = true → ∃ o, e.type = o.eventType ∧ Told o xs
  | _ => True

theorem FollowsOutcome.watchdogMay {o : RunOp} (h : FollowsOutcome xs o) : WatchdogMay xs o := by
  cases o with
  | updateRun run => exact h.elim
  | _ => exact h

section Watchdogs

variable {services : StoreServices} (hservices : services.FinalizerAgrees) (clock : Clock)
  (xs : List runStore.Exchange)

theorem saveTerminalResult_follows (reasonCode : Option String) (source : String)
    {result : TaskRunResult} (htold : Told result.status.outcome xs) :
    (saveTerminalResult clock reasonCode source result).Traced FollowsOutcome xs := by
  refine ⟨htold, fun _ => ⟨trivial, fun events => ?_⟩⟩
  change Program.Traced _ (if (firstTerminalEvent events).isSome = true then _ else _) _
  split
  · trivial
  · refine ⟨fun _ => ⟨result.status.outcome, ?_, (htold.append _).append _⟩, fun _ => trivial⟩
    exact result.status.terminalEventType_eq

theorem tells_conservativeResult (reason : String) {run : TaskRun} (events : List TaskRunEvent)
    (h : run.status.isTerminal = true) :
    Tells (conservativeResult services.codec reason run events).status.outcome
      ⟨.getRun, .found run⟩ := by
  refine .read run ?_
  change run.status = run.status.conservativeResult.outcome.status ∨ _
  cases hstatus : run.status <;> simp_all [TaskRunStatus.isTerminal] <;> rfl

include hservices in
theorem ensureTerminalResult_follows (reasonCode : Option String) :
    (ensureTerminalResult services clock reasonCode).Traced FollowsOutcome xs := by
  refine ⟨trivial, fun existing => ?_⟩
  cases existing with
  | some existing => trivial
  | none =>
    refine ⟨trivial, fun read => ?_⟩
    cases read with
    | missing | invalid => trivial
    | found run =>
      change Program.Traced _ (if (!run.status.isTerminal) = true then _ else _) _
      split
      · trivial
      · rename_i hterminal
        replace hterminal : run.status.isTerminal = true := by simpa using hterminal
        refine ⟨trivial, fun events => ?_⟩
        dsimp only [bind, Program.bind]
        split
        · rename_i result hresult
          have htells : Tells result.status.outcome ⟨.getRun, .found run⟩ := by
            refine .read run (.inl ?_)
            rw [← hservices run result hresult, result.status.runStatus_eq]
          exact (saveTerminalResult_follows clock _ _ _ ((htells.told _).append _)).bind
            fun _ _ _ => trivial
        · have htells := @tells_conservativeResult services
            (settledReasonCode services.codec reasonCode run events) run events hterminal
          exact (saveTerminalResult_follows clock _ _ _ ((htells.told _).append _)).bind
            fun _ _ _ => trivial

include hservices in
theorem getResult_follows : (getResult services clock).Traced FollowsOutcome xs := by
  refine ⟨trivial, fun existing => ?_⟩
  cases existing with
  | some result =>
    exact ⟨(Tells.readResult result rfl).told xs, fun _ => trivial⟩
  | none =>
    refine ⟨trivial, fun index => ?_⟩
    cases index with
    | none => trivial
    | some status =>
      change Program.Traced _ (if status.isTerminal = true then _ else _) _
      split
      · exact ensureTerminalResult_follows hservices clock _ _
      · trivial

theorem TaskRunStatus.not_isTerminal_of_isActive {status : TaskRunStatus}
    (h : status.isActive = true) : status.isTerminal = false := by
  cases status <;> first | rfl | cases h

include hservices in
theorem terminalizeIfArtifactCreationStalled_may (maxSilence : ℤ) (reasonCode source : String) :
    (terminalizeIfArtifactCreationStalled services clock maxSilence reasonCode source).Traced
      WatchdogMay xs := by
  refine ⟨trivial, fun existing => ?_⟩
  cases existing with
  | some existing => trivial
  | none =>
    refine ⟨trivial, fun read => ?_⟩
    cases read with
    | missing | invalid => trivial
    | found run =>
      change Program.Traced _ (if (!run.status.isActive) = true then _ else _) _
      split
      · trivial
      · rename_i hactive
        replace hactive : run.status.isActive = true := by simpa using hactive
        refine ⟨trivial, fun events => ?_⟩
        change Program.Traced _ (if (firstTerminalEvent events).isSome = true then _ else _) _
        split
        · exact (ensureTerminalResult_follows hservices clock _ _).mono fun _ _ h => h.watchdogMay
        · rename_i hevents
          have hactive : SawActive (xs ++ [⟨.readResult, none⟩] ++ [⟨.getRun, .found run⟩]) :=
            ⟨run, by simp, TaskRunStatus.not_isTerminal_of_isActive hactive⟩
          have hnoEnd : SawNoEnd (xs ++ [⟨.readResult, none⟩] ++ [⟨.getRun, .found run⟩] ++
              [⟨.getEvents, events⟩]) :=
            ⟨events, by simp, by simpa using hevents⟩
          dsimp only [bind, Program.bind]
          split
          · trivial
          · rename_i artifactEvent _
            split
            · trivial
            · refine ⟨?_, fun id => ⟨trivial, fun events' => ⟨⟨rfl, ?_, ?_⟩, fun u => ?_⟩⟩⟩
              · exact fun h => absurd h (by simp [isTerminal_newEvent, terminalEventTypes])
              · exact ((hactive.append _).append _).append _
              · exact (hnoEnd.append _).append _
              · refine ⟨Tells.told (o := .blocked) (.wrote _ _ rfl) _,
                  fun u' => ⟨?_, fun _ => trivial⟩⟩
                exact fun _ => ⟨.blocked, rfl, (Tells.told (.wrote _ _ rfl) _).append _⟩

include hservices in
theorem blockOverBudget_may (reasonCode : String) (run : TaskRun) (hactive : SawActive xs)
    (hnoEnd : SawNoEnd xs) :
    (blockOverBudget services clock reasonCode run).Traced WatchdogMay xs := by
  rw [blockOverBudget]
  split
  · rename_i result hresult
    have hblocked : result.status.outcome.status = RunOutcome.blocked.status := by
      rw [← result.status.runStatus_eq, hservices _ _ hresult]
      rfl
    refine ⟨⟨rfl, hactive, hnoEnd⟩, fun u => ?_⟩
    have htold : Told result.status.outcome (xs ++ [⟨.updateRun _, u⟩]) :=
      Tells.told (.wrote _ _ hblocked.symm) xs
    refine ⟨htold, fun u' => ⟨fun _ => ?_, fun _ => trivial⟩⟩
    exact ⟨_, result.status.terminalEventType_eq, htold.append _⟩
  · refine ⟨⟨rfl, hactive, hnoEnd⟩, fun u => ?_⟩
    refine ⟨Tells.told (o := .blocked) (.wrote _ _ rfl) _,
      fun u' => ⟨fun _ => ?_, fun _ => trivial⟩⟩
    exact ⟨.blocked, rfl, (Tells.told (.wrote _ _ rfl) _).append _⟩

include hservices in
theorem ignoreBudget_may (reasonCode : String) (ensured : Option TaskRunResult) :
    (ignoreBudget services clock reasonCode ensured).Traced WatchdogMay xs := by
  refine ⟨trivial, fun _ => ?_⟩
  cases ensured with
  | some result => trivial
  | none => exact (getResult_follows hservices clock _).mono fun _ _ h => h.watchdogMay

include hservices in
theorem terminalizeIfRuntimeBudgetExceeded_may (maxRuntime : ℤ) (reasonCode : String)
    (recordIgnoredAttempt : Bool) :
    (terminalizeIfRuntimeBudgetExceeded services clock maxRuntime reasonCode
      recordIgnoredAttempt).Traced WatchdogMay xs := by
  refine ⟨trivial, fun index => ?_⟩
  change Program.Traced _ (if index.any (fun status => !status.isActive) = true then _ else _) _
  split
  · refine ((ensureTerminalResult_follows hservices clock _ _).mono
      fun _ _ h => h.watchdogMay).bind fun ys ensured _ => ?_
    cases recordIgnoredAttempt with
    | true => exact ignoreBudget_may hservices clock _ _ _
    | false =>
      cases ensured with
      | some result => trivial
      | none => exact (getResult_follows hservices clock _).mono fun _ _ h => h.watchdogMay
  · refine ⟨trivial, fun read => ?_⟩
    cases read with
    | missing | invalid => trivial
    | found run =>
      refine ⟨trivial, fun events => ?_⟩
      change Program.Traced _ (if (firstTerminalEvent events).isSome = true ∨
        run.status.isActive = false then _ else _) _
      split
      · exact ((ensureTerminalResult_follows hservices clock _ _).mono
          fun _ _ h => h.watchdogMay).bind fun _ _ _ => ignoreBudget_may hservices clock _ _ _
      · rename_i hopen
        simp only [not_or, Bool.not_eq_true, Option.isSome_eq_false_iff, Option.isNone_iff_eq_none,
          Bool.not_eq_false] at hopen
        have hactive : SawActive (xs ++ [⟨.getRunIndex, index⟩] ++ [⟨.getRun, .found run⟩]) :=
          ⟨run, by simp, TaskRunStatus.not_isTerminal_of_isActive hopen.2⟩
        have hnoEnd : SawNoEnd (xs ++ [⟨.getRunIndex, index⟩] ++ [⟨.getRun, .found run⟩] ++
            [⟨.getEvents, events⟩]) := ⟨events, by simp, hopen.1⟩
        refine ((getResult_follows hservices clock _).mono
          fun _ _ h => h.watchdogMay).bind fun ys existing _ => ?_
        cases existing with
        | some existing => exact ⟨trivial, fun _ => trivial⟩
        | none =>
          refine ⟨trivial, fun events' => ?_⟩
          dsimp only [bind, Program.bind]
          split
          · trivial
          · rename_i elapsed _
            change Program.Traced _ (if elapsed ≤ maxRuntime then _ else
              if (artifactCreationInProgress services.codec events').isSome = true then _ else _) _
            have hblock : ∀ zs, (blockOverBudget services clock reasonCode run).Traced WatchdogMay
                (xs ++ [⟨.getRunIndex, index⟩] ++ [⟨.getRun, .found run⟩] ++
                  [⟨.getEvents, events⟩] ++ ys ++ [⟨.getEvents, events'⟩] ++ zs) := fun zs =>
              blockOverBudget_may hservices clock _ _ _
                ((((hactive.append _).append _).append _).append _)
                (((hnoEnd.append _).append _).append _)
            split
            · trivial
            · split
              · refine (terminalizeIfArtifactCreationStalled_may hservices clock _ _ _ _).bind
                  fun zs stalled _ => ?_
                cases stalled with
                | some result => trivial
                | none => exact hblock zs
              · have hblock' := hblock []
                rwa [append_nil] at hblock'

end Watchdogs

def RunOp.endsRun : RunOp → Bool
  | .appendEvent e => e.isTerminal
  | _ => false

/-- The first thing the loop has read is a run that has not ended. -/
def Startable (xs : List runStore.Exchange) : Prop :=
  ∃ run ys, xs = ⟨.getRun, .found run⟩ :: ys ∧ run.status.isTerminal = false

/-- The loop was told an outcome before it appended a terminal event. -/
def Surprised (xs : List runStore.Exchange) : Prop :=
  ∃ o ys x zs, xs = ys ++ x :: zs ∧ Tells o x ∧ ∀ y ∈ ys, RunOp.endsRun y.1 = false

/-- Unless it was surprised, the loop has not appended a terminal event. -/
def NotEnded (xs : List runStore.Exchange) : Prop :=
  Surprised xs ∨ ∀ y ∈ xs, RunOp.endsRun y.1 = false

theorem Startable.append (h : Startable xs) (ys : List runStore.Exchange) :
    Startable (xs ++ ys) := by
  obtain ⟨run, zs, rfl, hstatus⟩ := h
  exact ⟨run, zs ++ ys, rfl, hstatus⟩

theorem Surprised.append (h : Surprised xs) (ys : List runStore.Exchange) :
    Surprised (xs ++ ys) := by
  obtain ⟨o, ws, x, zs, rfl, htells, hws⟩ := h
  exact ⟨o, ws, x, zs ++ ys, by simp, htells, hws⟩

theorem NotEnded.snoc (h : NotEnded xs) {x : runStore.Exchange} (hx : RunOp.endsRun x.1 = false) :
    NotEnded (xs ++ [x]) := by
  rcases h with h | h
  · exact .inl (h.append _)
  · refine .inr fun y hy => ?_
    rcases mem_append.mp hy with hy | hy
    · exact h y hy
    · rw [mem_singleton.mp hy]
      exact hx

theorem notEnded_of_follows {α : Type} {p : RunProgram α} {ys : List runStore.Exchange}
    {r : Except String α} (hp : p.Traced FollowsOutcome xs) (h : p.Ends ys r)
    (hxs : ∀ y ∈ xs, RunOp.endsRun y.1 = false) : NotEnded (xs ++ ys) := by
  cases hfind : ys.find? fun y => RunOp.endsRun y.1 with
  | none =>
    refine .inr fun y hy => ?_
    rcases mem_append.mp hy with hy | hy
    · exact hxs y hy
    · simpa using find?_eq_none.mp hfind y hy
  | some y =>
    obtain ⟨hy, before, after, rfl, hbefore⟩ := find?_eq_some_iff_append.mp hfind
    have hmay := hp.of_ends h
    obtain ⟨o, id⟩ := y
    cases o with
    | appendEvent e =>
      obtain ⟨o, -, x, hx, htells⟩ := hmay hy
      obtain ⟨ws, zs, hsplit⟩ := append_of_mem hx
      refine .inl ⟨o, ws, x, zs ++ ⟨.appendEvent e, id⟩ :: after, ?_, htells, ?_⟩
      · rw [← append_assoc, hsplit]
        simp
      · intro z hz
        have hmem : z ∈ xs ++ before := by
          rw [hsplit]
          exact mem_append_left _ hz
        rcases mem_append.mp hmem with hmem | hmem
        · exact hxs z hmem
        · simpa using hbefore z hmem
    | _ => cases hy

def LoopMay (xs : List runStore.Exchange) : RunOp → Prop
  | .updateRun run => Startable xs ∧
      (run.status.isTerminal = false ∧ NotEnded xs ∨
        ∃ (o : RunOutcome) (e : TaskRunEvent) (id : String), run.status = o.status ∧
          e.type = o.eventType ∧ (⟨.appendEvent e, id⟩ : runStore.Exchange) ∈ xs)
  | .saveResult _ result => Told result.status.outcome xs
  | .cohereTerminalResult _ result => Told result.status.outcome xs
  | .appendEvent e => e.isTerminal = true →
      (∃ o, e.type = o.eventType ∧ Told o xs) ∨ Startable xs ∧ NotEnded xs
  | _ => True

theorem FollowsOutcome.loopMay {o : RunOp} (h : FollowsOutcome xs o) : LoopMay xs o := by
  cases o with
  | updateRun run => exact h.elim
  | appendEvent e => exact fun he => .inl (h he)
  | _ => exact h

def RunOp.IsWork : RunOp → Prop
  | .updateRun run => run.status.isTerminal = false
  | .appendEvent e => e.isTerminal = false
  | .saveResult .. => False
  | .cohereTerminalResult .. => False
  | _ => True

def AtWork (xs : List runStore.Exchange) : Prop := Startable xs ∧ NotEnded xs

theorem AtWork.snoc {o : RunOp} {a : runStore.Answer o} (h : AtWork xs) (ho : o.IsWork) :
    AtWork (xs ++ [⟨o, a⟩]) := by
  refine ⟨h.1.append _, h.2.snoc ?_⟩
  cases o with
  | appendEvent e => exact ho
  | _ => rfl

theorem AtWork.loopMay {o : RunOp} (h : AtWork xs) (ho : o.IsWork) : LoopMay xs o := by
  cases o with
  | updateRun run => exact ⟨h.1, .inl ⟨ho, h.2⟩⟩
  | appendEvent e => exact fun he => by rw [ho] at he; cases he
  | saveResult | cohereTerminalResult => exact ho.elim
  | _ => trivial

theorem AtWork.bind {α β : Type} {p : RunProgram α} {f : α → RunProgram β}
    {Q : Except String α → Prop} (h : AtWork xs) (hp : p.Ensures RunOp.IsWork Q)
    (hf : ∀ zs a, AtWork zs → Q (.ok a) → (f a).Traced LoopMay zs) :
    (p >>= f).Traced LoopMay xs := by
  have htraced : p.Traced LoopMay xs :=
    hp.issues.traced (I := AtWork) (fun _ _ hxs ho => hxs.loopMay ho)
      (fun _ _ _ hxs ho => hxs.snoc ho) h
  refine htraced.bind fun ys a hends => hf _ a ?_ (hp.of_ends hends).1
  exact hp.issues.history (I := AtWork) (fun _ _ _ hxs ho => hxs.snoc ho) hends h

def Works (status : TaskRunStatus) : Except String LoopState → Prop
  | .ok s => s.run.status = status
  | .error _ => True

section Work

variable (inputs : LoopInputs) (index : ℕ) (step : TaskRunStep) (s : LoopState)
  (now type status message stepId : String) (metadata : List (String × Json))

theorem createEvent_works (htype : terminalEventTypes.contains type = false) :
    (createEvent now type status message metadata).Ensures RunOp.IsWork fun _ => True :=
  ⟨htype, fun _ => trivial⟩

theorem createStepEvent_works (htype : terminalEventTypes.contains type = false) :
    (createStepEvent now type status message stepId metadata).Ensures RunOp.IsWork
      fun _ => True :=
  ⟨htype, fun _ => trivial⟩

variable {s} (hs : s.run.status.isTerminal = false)
include hs

theorem startStep_works :
    (startStep inputs index step s).Ensures RunOp.IsWork (Works s.run.status) := by
  refine (createStepEvent_works _ _ _ _ _ _ (by decide)).bind (fun _ _ => ?_) fun _ _ => trivial
  refine (createStepEvent_works _ _ _ _ _ _ (by decide)).bind (fun _ _ => ?_) fun _ _ => trivial
  exact ⟨hs, fun _ => ⟨hs, fun _ => rfl⟩⟩

theorem finishStep_works (reply : StepReply) :
    (finishStep inputs index step reply s).Ensures RunOp.IsWork (Works s.run.status) := by
  have hstatus : (s.finishStep index step reply).run.status = s.run.status := by
    simp only [LoopState.finishStep]
    split <;> rfl
  have htype : terminalEventTypes.contains reply.outcome.status.finishedEventType = false := by
    cases reply.outcome.status <;> rfl
  refine (createStepEvent_works _ _ _ _ _ _ (by decide)).bind (fun _ _ => ?_) fun _ _ => trivial
  refine (createStepEvent_works _ _ _ _ _ _ htype).bind (fun _ _ => ?_) fun _ _ => trivial
  refine ⟨?_, fun _ => hstatus⟩
  change (s.finishStep index step reply).run.status.isTerminal = false
  rw [hstatus, hs]

theorem skipStep_works (reasons : List String) :
    (skipStep inputs index step reasons s).Ensures RunOp.IsWork (Works s.run.status) := by
  refine (createStepEvent_works _ _ _ _ _ _ (by decide)).bind (fun _ _ => ?_) fun _ _ => trivial
  exact ⟨hs, fun _ => rfl⟩

theorem runStep_works (latest : Option TaskRun) :
    (runStep inputs index step latest s).Ensures RunOp.IsWork
      fun r => Works s.run.status (r.map Prod.fst) := by
  have hobserve := s.observe_status latest
  have hopen : (s.observe latest).run.status.isTerminal = false := by rw [hobserve, hs]
  rw [runStep]
  split
  · split
    · refine (createStepEvent_works _ _ _ _ _ _ (by decide)).bind (fun _ _ => ?_)
        fun _ _ => trivial
      exact hobserve
    · refine (createStepEvent_works _ _ _ _ _ _ (by decide)).bind (fun _ _ => ?_)
        fun _ _ => trivial
      exact hobserve
  · split
    rename_i missing s₁ hmissing
    have hstatus := (LoopState.checkDependencies_status hmissing).trans hobserve
    have hopen₁ : s₁.run.status.isTerminal = false := by rw [hstatus, hs]
    split
    · refine (startStep_works inputs index step hopen₁).bind (fun s₂ hs₂ => ?_) fun _ _ => trivial
      replace hs₂ : s₂.run.status = s₁.run.status := hs₂
      refine ⟨trivial, fun _ => ?_⟩
      have hopen₂ : s₂.run.status.isTerminal = false := by rw [hs₂, hopen₁]
      refine (finishStep_works inputs index step hopen₂ _).bind (fun s₃ hs₃ => ?_)
        fun _ _ => trivial
      replace hs₃ : s₃.run.status = s₂.run.status := hs₃
      exact hs₃.trans (hs₂.trans hstatus)
    · split
      · refine (skipStep_works inputs index step hopen₁ _).bind (fun s₂ hs₂ => ?_)
          fun _ _ => trivial
        replace hs₂ : s₂.run.status = s₁.run.status := hs₂
        exact hs₂.trans hstatus
      · refine (createStepEvent_works _ _ _ _ _ _ (by decide)).bind (fun _ _ => ?_)
          fun _ _ => trivial
        exact ⟨hopen₁, fun _ => hstatus⟩

theorem runSteps_works (steps : List TaskRunStep) :
    (runSteps inputs index steps s).Ensures RunOp.IsWork
      fun r => Works s.run.status (r.map Prod.fst) := by
  induction steps generalizing index s with
  | nil => exact rfl
  | cons step rest ih =>
    refine ⟨trivial, fun read => ?_⟩
    have hbody : ∀ (latest : Option TaskRun)
        (next : LoopState × Option RunOutcome → RunProgram (LoopState × Option RunOutcome)),
        (∀ s₁ outcome, next (s₁, some outcome) = pure (s₁, some outcome)) →
        (∀ s₁, next (s₁, none) = runSteps inputs (index + 1) rest s₁) →
        (runStep inputs index step latest s >>= next).Ensures RunOp.IsWork
          fun r => Works s.run.status (r.map Prod.fst) := by
      intro latest next hstopped hnext
      refine (runStep_works inputs index step hs latest).bind ?_ fun _ _ => trivial
      rintro ⟨s₁, stopped⟩ hs₁
      replace hs₁ : s₁.run.status = s.run.status := hs₁
      cases stopped with
      | some outcome =>
        rw [hstopped]
        exact hs₁
      | none =>
        have hrest := ih (index + 1) (s := s₁) (by rw [hs₁, hs])
        rw [hnext]
        rwa [hs₁] at hrest
    cases read with
    | missing => exact hbody none _ (fun _ _ => rfl) (fun _ => rfl)
    | invalid => trivial
    | found run => exact hbody (some run) _ (fun _ _ => rfl) (fun _ => rfl)

end Work

theorem recordCompletion_works (now : String) (completion : TaskCompletionEvaluation) :
    (recordCompletion now completion).Ensures RunOp.IsWork fun _ => True := by
  refine (createEvent_works _ _ _ _ _ (by decide)).bind (fun _ _ => ?_) fun _ _ => trivial
  refine (createEvent_works _ _ _ _ _ (by decide)).bind (fun _ _ => ?_) fun _ _ => trivial
  refine (createEvent_works _ _ _ _ _ (by decide)).bind (fun _ _ => ?_) fun _ _ => trivial
  refine (createEvent_works _ _ _ _ _ (by decide)).bind (fun _ _ => ?_) fun _ _ => trivial
  exact (createEvent_works _ _ _ _ _ (by decide)).bind (fun _ _ => trivial) fun _ _ => trivial

theorem ofExcept_works {α : Type} (x : Except String α) :
    (RunProgram.ofExcept x).Ensures RunOp.IsWork fun r => r = x := by
  cases x with
  | ok | error => exact rfl

theorem queueRun_works (now : String) (run : TaskRun) :
    (queueRun now run).Ensures RunOp.IsWork fun _ => True := by
  rw [queueRun]
  split
  · refine (ofExcept_works _).bind (fun _ _ => ?_) fun _ _ => trivial
    exact (createEvent_works _ _ _ _ _ (by decide)).bind (fun _ _ => trivial) fun _ _ => trivial
  · trivial

theorem recordApproval_works (now : String) (run : TaskRun) :
    (recordApproval now run).Ensures RunOp.IsWork fun _ => True := by
  rw [recordApproval]
  split
  · exact (createEvent_works _ _ _ _ _ (by decide)).bind (fun _ _ => trivial) fun _ _ => trivial
  · trivial

theorem TaskRun.transition_status {now : String} {target : TaskRunStatus} {run run' : TaskRun}
    (h : run.transition now target = .ok run') : run'.status = target := by
  rcases TaskRun.transition_eq_ok h with ⟨rfl, hstatus⟩ | ⟨-, rfl⟩
  · exact hstatus
  · rfl

theorem startRun_works (inputs : LoopInputs) (run : TaskRun) :
    (startRun inputs run).Ensures RunOp.IsWork
      fun r => ∀ run', r = .ok run' → run'.status = .running := by
  have herror : ∀ e : String, ∀ run' : TaskRun, Except.error e = .ok run' →
      run'.status = .running := fun _ _ h => by cases h
  refine (queueRun_works _ _).bind (fun queued _ => ?_) fun e _ => herror e
  refine (recordApproval_works _ _).bind (fun _ _ => ?_) fun e _ => herror e
  refine (ofExcept_works _).bind (fun started hstarted => ?_) fun e _ => herror e
  have hstatus := TaskRun.transition_status hstarted.symm
  refine (createEvent_works _ _ _ _ _ (by decide)).bind (fun _ _ => ?_) fun e _ => herror e
  refine (createEvent_works _ _ _ _ _ (by decide)).bind (fun _ _ => ?_) fun e _ => herror e
  refine ⟨?_, fun _ run' h => ?_⟩
  · change started.status.isTerminal = false
    rw [hstatus]
    rfl
  · cases h
    exact hstatus

/-- The validation of a completed run does not lower its status. -/
def LoopInputs.KeepsCompleted (inputs : LoopInputs) : Prop :=
  ∀ run events, run.status = .completed → lowersCompleted (inputs.validate run events) = false

def Closed (o : RunOutcome) (xs : List runStore.Exchange) : Prop :=
  Startable xs ∧ ∃ e id, e.type = o.eventType ∧ (⟨.appendEvent e, id⟩ : runStore.Exchange) ∈ xs

theorem Closed.append (h : Closed o xs) (ys : List runStore.Exchange) : Closed o (xs ++ ys) := by
  obtain ⟨hstart, e, id, htype, hmem⟩ := h
  exact ⟨hstart.append _, e, id, htype, mem_append_left _ hmem⟩

theorem Closed.loopMay (h : Closed o xs) {run : TaskRun} (hrun : run.status = o.status) :
    LoopMay xs (.updateRun run) := by
  obtain ⟨hstart, e, id, htype, hmem⟩ := h
  exact ⟨hstart, .inr ⟨o, e, id, hrun, htype, hmem⟩⟩

theorem buildResult_outcome {inputs : LoopInputs} (hinputs : inputs.KeepsCompleted)
    {run : TaskRun} (hrun : run.status = o.status) (context : TaskRunContext)
    (completion : Option TaskCompletionEvaluation) (events : List TaskRunEvent) (count : ℕ) :
    (buildResult (inputs.summary run) run context completion (inputs.validate run events)
      count).status.outcome = o := by
  rw [buildResult_status, if_neg]
  · rw [hrun]
    cases o <;> rfl
  · rintro ⟨hcompleted, hlowers⟩
    rw [hinputs run events hcompleted] at hlowers
    cases hlowers

section End

variable {inputs : LoopInputs} (hinputs : inputs.KeepsCompleted) {xs : List runStore.Exchange}
  {run : TaskRun}

include hinputs in
theorem finalizeResult_may {o : RunOutcome} (hrun : run.status = o.status)
    (context : TaskRunContext) (completion : Option TaskCompletionEvaluation)
    (hclosed : Closed o xs) :
    (finalizeResult inputs run context completion).Traced LoopMay xs := by
  refine ⟨trivial, fun counted => ⟨trivial, fun events => ⟨?_, fun u => ⟨?_, fun _ => trivial⟩⟩⟩⟩
  · exact ((hclosed.append _).append _).loopMay hrun
  · have hresult := buildResult_outcome hinputs hrun context completion events counted.length
    have htold : Told o (xs ++ [⟨.getEvents, counted⟩] ++ [⟨.getEvents, events⟩] ++
        [⟨.updateRun _, u⟩]) := Tells.told (.wrote _ u (by exact hrun)) _
    rwa [← hresult] at htold

theorem createEvent_closes {o : RunOutcome} (hwork : AtWork xs) (now status message : String)
    (metadata : List (String × Json)) :
    (createEvent now o.eventType status message metadata).Traced LoopMay xs ∧
      ∀ ys a, (createEvent now o.eventType status message metadata).Ends ys (.ok a) →
        Closed o (xs ++ ys) := by
  refine ⟨⟨fun _ => .inr hwork, fun _ => trivial⟩, ?_⟩
  rintro ys a ⟨id, zs, rfl, rfl, -⟩
  exact ⟨hwork.1.append _, _, id, rfl, mem_append_right _ mem_cons_self⟩

theorem recordBlock_may {β : Type} (hwork : AtWork xs) (now message : String)
    {f : Unit → RunProgram β} (hf : ∀ zs, Closed .blocked zs → (f ()).Traced LoopMay zs) :
    (recordBlock now message >>= f).Traced LoopMay xs := by
  simp only [recordBlock, Program.bind_assoc]
  refine hwork.bind (createEvent_works _ _ _ _ _ (by decide)) fun zs _ hwork _ => ?_
  refine hwork.bind (createEvent_works _ _ _ _ _ (by decide)) fun zs _ hwork _ => ?_
  obtain ⟨htraced, hcloses⟩ := createEvent_closes (o := .blocked) hwork now "blocked" message []
  exact htraced.bind fun ys a hends => hf _ (hcloses ys a hends)

theorem recordEnd_may {β : Type} (hwork : AtWork xs) (now : String) (terminal : RunOutcome)
    {f : Unit → RunProgram β} (hf : ∀ zs, Closed terminal zs → (f ()).Traced LoopMay zs) :
    (recordEnd now terminal >>= f).Traced LoopMay xs := by
  rw [recordEnd]
  split
  · rename_i hblocked
    subst hblocked
    exact recordBlock_may hwork _ _ hf
  · simp only [Program.bind_assoc]
    refine hwork.bind (createEvent_works _ _ _ _ _ (by decide)) fun zs _ hwork _ => ?_
    obtain ⟨htraced, hcloses⟩ := createEvent_closes (o := terminal) hwork now terminal.status.text
      ("TaskRun finished with status " ++ terminal.status.text ++ ".") []
    exact htraced.bind fun ys a hends => hf _ (hcloses ys a hends)

include hinputs

theorem closeRun_may {s : LoopState} {proposed : RunOutcome}
    (hrun : run.status = (s.terminal inputs proposed).status) (hwork : AtWork xs) :
    (closeRun inputs s proposed run).Traced LoopMay xs := by
  refine recordEnd_may hwork _ _ fun zs hclosed => ?_
  refine Program.Traced.perform_bind (hclosed.loopMay hrun) fun u => ?_
  refine Program.Traced.bind ?_ fun _ _ _ => trivial
  exact finalizeResult_may hinputs (by exact hrun) _ _ (hclosed.append _)

theorem finishRun_may (s : LoopState) (proposed : RunOutcome) (hwork : AtWork xs) :
    (finishRun inputs s proposed).Traced LoopMay xs := by
  refine hwork.bind (recordCompletion_works _ _) fun zs _ hwork _ => ?_
  refine hwork.bind (ofExcept_works _) fun zs run hwork hrun => ?_
  exact closeRun_may hinputs (TaskRun.transition_status hrun.symm) hwork

theorem blockBeforeStart_may (reasons : List String) (message : String) (hwork : AtWork xs) :
    (blockBeforeStart inputs reasons message run).Traced LoopMay xs := by
  refine hwork.bind (ofExcept_works _) fun zs run hwork hrun => ?_
  have hstatus : run.status = RunOutcome.blocked.status := TaskRun.transition_status hrun.symm
  refine recordBlock_may hwork _ _ fun zs hclosed => ?_
  refine Program.Traced.perform_bind (hclosed.loopMay hstatus) fun u => ?_
  refine Program.Traced.bind ?_ fun _ _ _ => trivial
  exact finalizeResult_may hinputs hstatus _ _ (hclosed.append _)

variable (hservices : inputs.services.FinalizerAgrees)
include hservices

theorem superviseRun_may : (superviseRun inputs run).Traced LoopMay [⟨.getRun, .found run⟩] := by
  have hresult := getResult_follows hservices inputs.clock [⟨.getRun, .found run⟩]
  refine (hresult.mono fun _ _ h => h.loopMay).bind fun ys existing hends => ?_
  split
  · trivial
  · rename_i hstart
    have hopen : run.status.isTerminal = false := by
      by_contra hended
      exact hstart (.inl (by simpa using hended))
    have hwork : AtWork ([⟨.getRun, .found run⟩] ++ ys) :=
      ⟨⟨run, ys, rfl, hopen⟩, notEnded_of_follows hresult hends (by simp [RunOp.endsRun])⟩
    refine ⟨trivial, fun events => ?_⟩
    replace hwork := AtWork.snoc (o := .getEvents) (a := events) hwork trivial
    change Program.Traced _ (if (!(timelineBootstrapReasons events).isEmpty) = true then _ else
      if (!(checkRunReasons inputs run).isEmpty) = true then _ else _) _
    split
    · exact blockBeforeStart_may hinputs _ _ hwork
    · split
      · exact blockBeforeStart_may hinputs _ _ hwork
      · refine hwork.bind (startRun_works inputs run) fun zs started hwork hstarted => ?_
        have hstatus : started.status = .running := hstarted started rfl
        refine hwork.bind (runSteps_works inputs 0 (s := ⟨started, _, false, []⟩) ?_ _)
          fun zs s hwork _ => finishRun_may hinputs _ _ hwork
        change started.status.isTerminal = false
        rw [hstatus]
        rfl

theorem supervisedRun_may : (supervisedRun inputs).Traced LoopMay [] := by
  refine ⟨trivial, fun read => ?_⟩
  cases read with
  | missing | invalid => trivial
  | found run => exact superviseRun_may hinputs hservices

end End

end AIpinho.Runtime
