import AIpinho.Delegations.Service
import AIpinho.Lib.Runs

/-!
# The mode of a delegation

A delegation that asks for no mode gets the one that the metadata of its parent record. The
first delegation that is not denied replaces these metadata, and the mode is lost.
-/

namespace AIpinho.Delegations

open List Lib
open AIpinho.Events (redactFields redactPayload redactText)

/-- A call of `create_delegation`. -/
structure DelegationCall where
  clock : ℤ
  request : DelegationCreateRequest

def callsFrom (agentId : String) (runId : ℕ) (calls : List DelegationCall) : List DelegationOp :=
  calls.map fun call => .create call.clock agentId runId call.request

/-- The request names no execution mode. -/
def DelegationCall.Unspecified (call : DelegationCall) : Prop :=
  call.request.executionMode.getD "" = ""

/-- A delegation is evaluated and run in a mode: the request and the decision have it, and
the run of the child records it. -/
structure RunsIn (mode : String) (s : DelegationSystem) (record : DelegationRecord) : Prop where
  request : record.request.executionMode = mode
  decision : record.decision.executionMode = mode
  child : ∀ childRunId, record.request.childRunId = some childRunId →
    ∃ child, s.runs[childRunId]? = some child ∧
      child.metadata.lookup "execution_mode" = some (.str (redactText mode))

/-- Every delegation since the start was denied. -/
def DeniedSince (start s : DelegationSystem) : Prop :=
  ∀ k record, start.delegations.length ≤ k → s.delegations[k]? = some record →
    record.decision.decision = .deny

section

variable {service : AgentDelegationService} {s : DelegationSystem} {runId : ℕ}
  {parent : AgentRun} {call : DelegationCall}

theorem orText_of_empty {text : Option String} (h : text.getD "" = "") (other : String) :
    orText text other = other := by
  rw [orText, if_neg (by simpa using h)]

theorem recordedMode_of_lookup {run : AgentRun}
    (h : run.metadata.lookup "execution_mode" = none) :
    service.recordedMode run = "governed_autorun" := by
  rw [AgentDelegationService.recordedMode, h]

theorem recordedMode_of_text {run : AgentRun} {mode : String}
    (h : run.metadata.lookup "execution_mode" = some (.str mode)) (hmode : mode ≠ "") :
    service.recordedMode run = mode := by
  rw [AgentDelegationService.recordedMode, h]
  exact if_neg hmode

/-- What a call from a run leaves: one more delegation, the other runs as they were, and the
parent. -/
structure CallFrom (service : AgentDelegationService) (s s' : DelegationSystem) (runId : ℕ)
    (parent : AgentRun) (record : DelegationRecord) (parent' : AgentRun) : Prop where
  delegations : s'.delegations = s.delegations ++ [record]
  runsIn : RunsIn (service.recordedMode parent) s' record
  child_new : ∀ childRunId, record.request.childRunId = some childRunId →
    s.runs.length ≤ childRunId
  length_le : s.runs.length ≤ s'.runs.length
  others : ∀ other < s.runs.length, other ≠ runId → s'.runs[other]? = s.runs[other]?
  parent_eq : s'.runs[runId]? = some parent'
  agent_eq : parent'.agentId = parent.agentId
  denied : record.decision.decision = .deny → parent' = parent
  /-- Every other delegation takes its mode. -/
  mode_lost : record.decision.decision ≠ .deny →
    service.recordedMode parent' = "governed_autorun"

variable {delegation : DelegationRequest} {decision : DelegationPolicyDecision}

theorem callFrom_denied (hparent : s.runs[runId]? = some parent)
    (hmode : delegation.executionMode = service.recordedMode parent)
    (hdecided : decision.executionMode = service.recordedMode parent)
    (hdecision : decision.decision = .deny) :
    ∃ record, CallFrom service s (s.record delegation .blocked none decision) runId parent record
      parent := by
  refine ⟨_, ⟨rfl, ⟨hmode, hdecided, ?_⟩, ?_, Nat.le_refl _, fun _ _ _ => rfl, hparent, rfl,
    fun _ => rfl, fun h => absurd hdecision h⟩⟩
  · intro childRunId hchild
    cases hchild
  · intro childRunId hchild
    cases hchild

theorem callFrom_waiting (hparent : s.runs[runId]? = some parent)
    (hmode : delegation.executionMode = service.recordedMode parent)
    (hdecided : decision.executionMode = service.recordedMode parent)
    (hdecision : decision.decision ≠ .deny) (now : String) :
    ∃ record parent', CallFrom service s
      ((s.record delegation .approvalRequired none decision).updateRun now runId
        (approvalUpdate delegation decision)) runId parent record parent' := by
  refine ⟨_, parent.update now (approvalUpdate delegation decision), ⟨rfl,
    ⟨hmode, hdecided, ?_⟩, ?_, ?_, ?_, getElem?_updateRun_self hparent .., rfl,
    fun h => absurd h hdecision, fun _ => recordedMode_of_lookup ?_⟩⟩
  · intro childRunId hchild
    cases hchild
  · intro childRunId hchild
    cases hchild
  · simp [DelegationSystem.updateRun, DelegationSystem.record]
  · intro other _ hother
    exact getElem?_updateRun_of_ne hother ..
  · simp [AgentRun.update, approvalUpdate, redactFields, lookup_cons]

theorem callFrom_running (hparent : s.runs[runId]? = some parent)
    (hmode : delegation.executionMode = service.recordedMode parent)
    (hdecided : decision.executionMode = service.recordedMode parent)
    (hdecision : decision.decision ≠ .deny) (now : String) :
    ∃ record parent', CallFrom service s
      ((({ s with runs := s.runs ++ [childRun delegation] } : DelegationSystem).record delegation
        .running (some s.runs.length) decision).updateRun now runId
          (runningUpdate delegation s.runs.length)) runId parent record parent' := by
  have hlt : runId < s.runs.length := (List.getElem?_eq_some_iff.mp hparent).1
  have hparent' : (s.runs ++ [childRun delegation])[runId]? = some parent := by
    rw [getElem?_append_left hlt, hparent]
  refine ⟨_, parent.update now (runningUpdate delegation s.runs.length), ⟨rfl,
    ⟨hmode, hdecided, ?_⟩, ?_, ?_, ?_, getElem?_updateRun_self hparent' .., rfl,
    fun h => absurd h hdecision, fun _ => recordedMode_of_lookup ?_⟩⟩
  · intro childRunId hchild
    obtain rfl : s.runs.length = childRunId := Option.some.inj hchild
    refine ⟨childRun delegation, ?_, ?_⟩
    · rw [getElem?_updateRun_of_ne (by omega)]
      simp [DelegationSystem.record]
    · simp [childRun, redactFields, redactPayload, lookup_cons, hmode]
  · intro childRunId hchild
    exact (Option.some.inj hchild).le
  · simp [DelegationSystem.updateRun, DelegationSystem.record]
  · intro other hlt' hother
    rw [getElem?_updateRun_of_ne hother]
    exact getElem?_append_left hlt'
  · simp [AgentRun.update, runningUpdate, redactFields, lookup_cons]

theorem createCall (service : AgentDelegationService)
    (hparent : s.runs[runId]? = some parent) (hcall : call.Unspecified) :
    ∃ record parent', CallFrom service s
      (service.step s (.create call.clock parent.agentId runId call.request)) runId parent record
      parent' := by
  rw [step_create hparent]
  generalize hdelegation : service.newRequest call.clock s.delegations.length parent.agentId runId
    parent call.request = delegation
  have hrunId : delegation.parentRunId = runId := by
    rw [← hdelegation]
    rfl
  have hmode : delegation.executionMode = service.recordedMode parent := by
    rw [← hdelegation]
    exact orText_of_empty hcall _
  have hdecided : (service.decide s delegation).executionMode = service.recordedMode parent := by
    rw [AgentDelegationService.decide, evaluate_executionMode, hmode]
  rcases settle_cases service call.clock delegation (service.decide s delegation) s with
    ⟨hdecision, hsettle⟩ | ⟨hdecision, hsettle⟩ | ⟨hdecision, -, hsettle⟩
  · rw [hsettle]
    obtain ⟨record, heffect⟩ := callFrom_denied hparent hmode hdecided hdecision
    exact ⟨record, parent, heffect⟩
  · rw [hsettle, hrunId]
    exact callFrom_waiting hparent hmode hdecided (by simp [hdecision]) _
  · rw [hsettle, hrunId]
    exact callFrom_running hparent hmode hdecided hdecision _

end

/-- Every delegation since the start runs in the mode. -/
def Inherits (mode : String) (start s : DelegationSystem) : Prop :=
  ∀ k record, start.delegations.length ≤ k → s.delegations[k]? = some record →
    RunsIn mode s record

/-- What is known after some calls from a run: its mode is lost with the first delegation that
was not denied. -/
structure Tracks (service : AgentDelegationService) (mode agentId : String) (runId : ℕ)
    (start s : DelegationSystem) : Prop where
  runId_lt : runId < start.runs.length
  runs_le : start.runs.length ≤ s.runs.length
  delegations_le : start.delegations.length ≤ s.delegations.length
  /-- The run is still there, and records the mode or none. -/
  parent : ∃ parent, s.runs[runId]? = some parent ∧ parent.agentId = agentId ∧
    (DeniedSince start s → service.recordedMode parent = mode) ∧
    (¬DeniedSince start s → service.recordedMode parent = "governed_autorun")
  /-- Each delegation runs in the mode of its request, in a new run. -/
  records : ∀ k record, start.delegations.length ≤ k → s.delegations[k]? = some record →
    RunsIn record.request.executionMode s record ∧
    ∀ childRunId, record.request.childRunId = some childRunId → start.runs.length ≤ childRunId

section

variable {service : AgentDelegationService} {mode agentId : String} {runId : ℕ}
  {start s : DelegationSystem}

variable {record : DelegationRecord}

theorem deniedSince_append {s' : DelegationSystem}
    (hle : start.delegations.length ≤ s.delegations.length)
    (h : s'.delegations = s.delegations ++ [record]) :
    DeniedSince start s' ↔ DeniedSince start s ∧ record.decision.decision = .deny := by
  constructor
  · intro hdenied
    constructor
    · intro k found hk hfound
      refine hdenied k found hk ?_
      rw [h, getElem?_append_left (List.getElem?_eq_some_iff.mp hfound).1, hfound]
    · refine hdenied s.delegations.length record hle ?_
      rw [h, getElem?_append_right (Nat.le_refl _), Nat.sub_self]
      rfl
  · rintro ⟨hold, hnew⟩ k found hk hfound
    rw [h] at hfound
    by_cases hlt : k < s.delegations.length
    · rw [getElem?_append_left hlt] at hfound
      exact hold k found hk hfound
    · rw [getElem?_append_right (by omega)] at hfound
      rw [mem_singleton.mp (mem_of_getElem? hfound)]
      exact hnew

theorem RunsIn.of_call {parent parent' : AgentRun} {found : DelegationRecord}
    {s' : DelegationSystem} (h : RunsIn mode s found)
    (hcall : CallFrom service s s' runId parent record parent')
    (hchild : ∀ childRunId, found.request.childRunId = some childRunId → childRunId ≠ runId) :
    RunsIn mode s' found := by
  refine ⟨h.request, h.decision, fun childRunId hsome => ?_⟩
  obtain ⟨child, hrun, hmode⟩ := h.child childRunId hsome
  have hlt := (List.getElem?_eq_some_iff.mp hrun).1
  refine ⟨child, ?_, hmode⟩
  rw [hcall.others childRunId hlt (hchild childRunId hsome), hrun]

theorem Tracks.call (h : Tracks service mode agentId runId start s) {call : DelegationCall}
    (hcall : call.Unspecified) :
    ∃ parent record parent', s.runs[runId]? = some parent ∧
      CallFrom service s (service.step s (.create call.clock agentId runId call.request)) runId
        parent record parent' ∧
      Tracks service mode agentId runId start
        (service.step s (.create call.clock agentId runId call.request)) := by
  obtain ⟨hlt, hruns, hdelegations, ⟨parent, hparent, rfl, hkept, hlost⟩, hrecords⟩ := h
  obtain ⟨record, parent', heffect⟩ := createCall service hparent hcall
  refine ⟨parent, record, parent', hparent, heffect, hlt, hruns.trans heffect.length_le, ?_,
    ⟨parent', heffect.parent_eq, heffect.agent_eq, ?_, ?_⟩, ?_⟩
  · rw [heffect.delegations, length_append]
    omega
  · intro hdenied
    obtain ⟨hold, hnew⟩ := (deniedSince_append hdelegations heffect.delegations).mp hdenied
    rw [heffect.denied hnew]
    exact hkept hold
  · intro hdenied
    by_cases hnew : record.decision.decision = .deny
    · rw [heffect.denied hnew]
      exact hlost fun hold => hdenied
        ((deniedSince_append hdelegations heffect.delegations).mpr ⟨hold, hnew⟩)
    · exact heffect.mode_lost hnew
  · intro k found hk hfound
    rw [heffect.delegations] at hfound
    by_cases hlt' : k < s.delegations.length
    · rw [getElem?_append_left hlt'] at hfound
      obtain ⟨hruns', hchild⟩ := hrecords k found hk hfound
      refine ⟨hruns'.of_call heffect fun childRunId hsome => ?_, hchild⟩
      have hnew := hchild childRunId hsome
      omega
    · rw [getElem?_append_right (by omega)] at hfound
      rw [mem_singleton.mp (mem_of_getElem? hfound)]
      refine ⟨?_, fun childRunId hsome => hruns.trans (heffect.child_new childRunId hsome)⟩
      rw [heffect.runsIn.request]
      exact heffect.runsIn

theorem Tracks.run_append (h : Tracks service mode agentId runId start s)
    {calls : List DelegationCall} (hcalls : ∀ call ∈ calls, call.Unspecified) :
    Tracks service mode agentId runId start (run service.step s (callsFrom agentId runId calls)) ∧
    ∃ more, (run service.step s (callsFrom agentId runId calls)).delegations =
      s.delegations ++ more := by
  induction calls generalizing s with
  | nil => exact ⟨h, [], (append_nil _).symm⟩
  | cons call calls ih =>
    obtain ⟨parent, record, parent', -, heffect, htracks⟩ := h.call (hcalls call mem_cons_self)
    obtain ⟨hend, more, hmore⟩ :=
      ih htracks fun call' hcall' => hcalls call' (mem_cons_of_mem _ hcall')
    refine ⟨hend, record :: more, hmore.trans ?_⟩
    rw [heffect.delegations, append_assoc]
    rfl

theorem forall_delegations_succ {s : DelegationSystem} {P : DelegationRecord → Prop} {n : ℕ}
    (hfirst : s.delegations[n]? = some record) :
    (∀ k found, n ≤ k → s.delegations[k]? = some found → P found) ↔
      P record ∧ ∀ k found, n + 1 ≤ k → s.delegations[k]? = some found → P found := by
  constructor
  · intro hall
    exact ⟨hall n record (Nat.le_refl _) hfirst,
      fun k found hk hfound => hall k found (by omega) hfound⟩
  · rintro ⟨hrecord, hall⟩ k found hk hfound
    by_cases hsame : k = n
    · rw [hsame, hfirst] at hfound
      cases hfound
      exact hrecord
    · exact hall k found (by omega) hfound

theorem Tracks.requests_iff (h : Tracks service mode agentId runId start s)
    {calls : List DelegationCall} (hcalls : ∀ call ∈ calls, call.Unspecified) :
    (∀ k record, s.delegations.length ≤ k →
      (run service.step s (callsFrom agentId runId calls)).delegations[k]? = some record →
      record.request.executionMode = mode) ↔
    mode = "governed_autorun" ∨
      Along service.step (fun s' _ => DeniedSince start s') s (callsFrom agentId runId calls) := by
  induction calls generalizing s with
  | nil =>
    refine ⟨fun _ => Or.inr trivial, fun _ k record hk hrecord => ?_⟩
    have hlt : k < s.delegations.length := (List.getElem?_eq_some_iff.mp hrecord).1
    omega
  | cons call calls ih =>
    have hlater : ∀ call' ∈ calls, call'.Unspecified :=
      fun call' hcall' => hcalls call' (mem_cons_of_mem _ hcall')
    obtain ⟨-, -, -, ⟨parent₀, hparent₀, -, hkept, hlost⟩, -⟩ := id h
    obtain ⟨parent, record, parent', hparent, heffect, htracks⟩ :=
      h.call (hcalls call mem_cons_self)
    obtain rfl : parent₀ = parent := Option.some.inj (hparent₀.symm.trans hparent)
    obtain ⟨-, more, hmore⟩ := htracks.run_append hlater
    have hrest := ih htracks hlater
    have hnew : record.request.executionMode = service.recordedMode parent₀ :=
      heffect.runsIn.request
    have hlength : (service.step s (.create call.clock agentId runId
        call.request)).delegations.length = s.delegations.length + 1 := by
      rw [heffect.delegations, length_append]
      rfl
    have hfirst : (run service.step s (callsFrom agentId runId
        (call :: calls))).delegations[s.delegations.length]? = some record := by
      change (run service.step (service.step s (.create call.clock agentId runId call.request))
        (callsFrom agentId runId calls)).delegations[s.delegations.length]? = some record
      rw [hmore, heffect.delegations, append_assoc,
        getElem?_append_right (Nat.le_refl _), Nat.sub_self]
      rfl
    rw [hlength] at hrest
    rw [forall_delegations_succ hfirst, hnew]
    refine (and_congr_right fun _ => hrest).trans ?_
    by_cases hdenied : DeniedSince start s
    · have hmode := hkept hdenied
      simp [callsFrom, Along, hdenied, hmode]
    · have hmode := hlost hdenied
      rw [hmode]
      constructor
      · rintro ⟨hsame, -⟩
        exact Or.inl hsame.symm
      · rintro (hsame | halong)
        · exact ⟨hsame.symm, Or.inl hsame⟩
        · exact absurd halong.1 hdenied

end

/-- Every delegation that a run asks for without a mode is evaluated and run in the mode that
the run records exactly if that mode is `governed_autorun`, or each delegation before the last
was denied. -/
theorem modes_inherited_iff (service : AgentDelegationService) (s : DelegationSystem)
    (runId : ℕ) (parent : AgentRun) (hparent : s.runs[runId]? = some parent)
    (calls : List DelegationCall) (hcalls : ∀ call ∈ calls, call.Unspecified) :
    Inherits (service.recordedMode parent) s
      (run service.step s (callsFrom parent.agentId runId calls)) ↔
    service.recordedMode parent = "governed_autorun" ∨
      Along service.step (fun s' _ => DeniedSince s s') s
        (callsFrom parent.agentId runId calls) := by
  have hnone : DeniedSince s s := by
    intro k record hk hrecord
    have hlt := (List.getElem?_eq_some_iff.mp hrecord).1
    omega
  have htracks : Tracks service (service.recordedMode parent) parent.agentId runId s s := by
    refine ⟨(List.getElem?_eq_some_iff.mp hparent).1, Nat.le_refl _, Nat.le_refl _,
      ⟨parent, hparent, rfl, fun _ => rfl, fun h => absurd hnone h⟩, ?_⟩
    intro k record hk hrecord
    have hlt := (List.getElem?_eq_some_iff.mp hrecord).1
    omega
  rw [← htracks.requests_iff hcalls]
  obtain ⟨hend, -⟩ := htracks.run_append hcalls
  constructor
  · intro h k record hk hrecord
    exact (h k record hk hrecord).request
  · intro h k record hk hrecord
    have hmode := h k record hk hrecord
    rw [← hmode]
    exact (hend.records k record hk hrecord).1

/-- A run in `safe_chat` delegates twice, and the second delegation is in `governed_autorun`. -/
theorem safe_chat_is_lost :
    sampleService.recordedMode ⟨"lucio", none, none, "running", "chat", none, [], none, none,
      [("execution_mode", .str "safe_chat")]⟩ = "safe_chat" ∧
    (run sampleService.step (sampleSystem "safe_chat")
      (callsFrom "lucio" 0 [⟨0, sampleRequest []⟩, ⟨1, sampleRequest []⟩])).delegations.map
        (fun record => (record.request.executionMode, record.decision.decision)) =
      [("safe_chat", .allow), ("governed_autorun", .autoApprove)] := by
  decide +kernel

/-- A delegation that is denied leaves the mode to the next. -/
theorem safe_chat_outlives_denial : Inherits "safe_chat" (sampleSystem "safe_chat")
      (run sampleService.step (sampleSystem "safe_chat")
        (callsFrom "lucio" 0 [⟨0, sampleRequest ["vision"]⟩, ⟨1, sampleRequest []⟩])) := by
  have hmode : sampleService.recordedMode ⟨"lucio", none, none, "running", "chat", none, [], none,
      none, [("execution_mode", .str "safe_chat")]⟩ = "safe_chat" :=
    recordedMode_of_text rfl (by decide)
  rw [← hmode]
  refine (modes_inherited_iff sampleService (sampleSystem "safe_chat") 0 _ rfl
    [⟨0, sampleRequest ["vision"]⟩, ⟨1, sampleRequest []⟩] ?_).mpr (Or.inr ⟨?_, ?_, trivial⟩)
  · intro call hcall
    rcases mem_cons.mp hcall with rfl | hcall
    · rfl
    · rw [mem_singleton.mp hcall]
      rfl
  · intro k record _ hrecord
    cases hrecord
  · intro k record _ hrecord
    have hall : ((sampleService.step (sampleSystem "safe_chat")
        (.create 0 "lucio" 0 (sampleRequest ["vision"]))).delegations.all
          fun record => record.decision.decision = .deny) = true := by
      decide +kernel
    exact of_decide_eq_true (all_eq_true.mp hall record (mem_of_getElem? hrecord))

end AIpinho.Delegations
