import AIpinho.Delegations.Service
import AIpinho.Lib.Runs

/-!
# Runs that have ended

`cancel` and `check_timeout` ask whether the delegation has ended, and no call asks whether
a run has. So the end of a delegation, or a new one, rewrites a run that has reported its own
end before.
-/

namespace AIpinho.Delegations

open Lib

def DelegationRequest.runIds (delegation : DelegationRequest) : List ℕ :=
  delegation.childRunId.toList ++ [delegation.parentRunId]

/-- The runs that were there and that a call of the service rewrites: the parent of a
delegation that is not denied, and the runs of a delegation that is ended. -/
def AgentDelegationService.rewritten (service : AgentDelegationService) (s : DelegationSystem) :
    DelegationOp → List ℕ
  | .create clock parentAgentId parentRunId request =>
    match s.runs[parentRunId]? with
    | none => []
    | some parentRun =>
      if parentRun.agentId ≠ parentAgentId then []
      else if (service.decide s (service.newRequest clock s.delegations.length parentAgentId
          parentRunId parentRun request)).decision = .deny then []
      else [parentRunId]
  | .update _ _ _ => []
  | .cancel _ delegationId =>
    match s.delegations[delegationId]? with
    | none => []
    | some record => if record.request.status.isTerminal then [] else record.request.runIds
  | .checkTimeout clock delegationId =>
    match s.delegations[delegationId]? with
    | none => []
    | some record =>
      if record.request.status.isTerminal then []
      else if clock - record.request.createdAt < record.request.timeoutSeconds then []
      else record.request.runIds

instance decidableTerminal (run : AgentRun) : Decidable run.Terminal :=
  inferInstanceAs (Decidable (run.status ∈ terminalRunStatuses))

/-- The call rewrites no run that has finished. -/
def SparesFinished (service : AgentDelegationService) (s : DelegationSystem) (op : DelegationOp) :
    Prop :=
  ∀ runId ∈ service.rewritten s op, ∀ run ∈ s.runs[runId]?, ¬run.Terminal

variable {s : DelegationSystem} {service : AgentDelegationService}

/-- Updates report the end of a run only. -/
def DelegationOp.Reports : DelegationOp → Prop
  | .update _ _ request =>
    ∃ status ∈ ["completed", "failed", "blocked", "cancelled"], request.status = some status
  | _ => True

/-- The call is one of the delegation service, not an update of a run. -/
def DelegationOp.OfService : DelegationOp → Prop
  | .update _ _ _ => False
  | _ => True

theorem getElem?_endRuns {now : String} {delegation : DelegationRequest}
    {errorCode : Option String} {parentStatus : String} {other : ℕ}
    (h : other ∉ delegation.runIds) :
    (s.endRuns now delegation errorCode parentStatus).runs[other]? = s.runs[other]? := by
  rw [DelegationRequest.runIds, List.mem_append, not_or, List.mem_singleton] at h
  obtain ⟨hchild, hparent⟩ := h
  unfold DelegationSystem.endRuns
  cases hsome : delegation.childRunId with
  | none => exact getElem?_updateRun_of_ne hparent ..
  | some childRunId =>
    have hne : other ≠ childRunId := by simpa [hsome] using hchild
    exact (getElem?_updateRun_of_ne hparent ..).trans (getElem?_updateRun_of_ne hne ..)

theorem create_of_not_rewritten {clock : ℤ} {parentAgentId : String} {parentRunId : ℕ}
    {request : DelegationCreateRequest} {runId : ℕ} (hlt : runId < s.runs.length)
    (h : runId ∉ service.rewritten s (.create clock parentAgentId parentRunId request)) :
    (service.step s (.create clock parentAgentId parentRunId request)).runs[runId]? =
      s.runs[runId]? := by
  simp only [AgentDelegationService.rewritten] at h
  simp only [AgentDelegationService.step, AgentDelegationService.createDelegation]
  cases hrun : s.runs[parentRunId]? with
  | none => rfl
  | some parentRun =>
    rw [hrun] at h
    dsimp only at h ⊢
    by_cases hagent : parentRun.agentId ≠ parentAgentId
    · rw [if_pos hagent]
    · rw [if_neg hagent] at h ⊢
      generalize hdelegation : service.newRequest clock s.delegations.length parentAgentId
        parentRunId parentRun request = delegation at h ⊢
      have hparent : delegation.parentRunId = parentRunId := by
        rw [← hdelegation]
        rfl
      dsimp only
      rcases settle_cases service clock delegation (service.decide s delegation) s with
        ⟨-, hsettle⟩ | ⟨hdecision, hsettle⟩ | ⟨hdecision, -, hsettle⟩
      · rw [hsettle]
        rfl
      · rw [if_neg (by simp [hdecision]), List.mem_singleton] at h
        rw [hsettle, hparent]
        exact getElem?_updateRun_of_ne h ..
      · rw [if_neg hdecision, List.mem_singleton] at h
        rw [hsettle, hparent]
        exact (getElem?_updateRun_of_ne h ..).trans (List.getElem?_append_left hlt)

theorem step_of_not_rewritten {op : DelegationOp} (hop : op.OfService) {runId : ℕ}
    (hlt : runId < s.runs.length) (h : runId ∉ service.rewritten s op) :
    (service.step s op).runs[runId]? = s.runs[runId]? := by
  cases op with
  | update clock other request => exact hop.elim
  | create clock parentAgentId parentRunId request => exact create_of_not_rewritten hlt h
  | cancel clock delegationId =>
    simp only [AgentDelegationService.rewritten] at h
    simp only [AgentDelegationService.step, AgentDelegationService.cancel]
    cases hrecord : s.delegations[delegationId]? with
    | none => rfl
    | some record =>
      rw [hrecord] at h
      dsimp only at h ⊢
      by_cases hterminal : record.request.status.isTerminal = true
      · rw [if_pos hterminal]
      · rw [if_neg hterminal] at h ⊢
        exact getElem?_endRuns h
  | checkTimeout clock delegationId =>
    simp only [AgentDelegationService.rewritten] at h
    simp only [AgentDelegationService.step, AgentDelegationService.checkTimeout]
    cases hrecord : s.delegations[delegationId]? with
    | none => rfl
    | some record =>
      rw [hrecord] at h
      dsimp only at h ⊢
      by_cases hterminal : record.request.status.isTerminal = true
      · rw [if_pos hterminal]
      · rw [if_neg hterminal] at h ⊢
        by_cases hearly : clock - record.request.createdAt < record.request.timeoutSeconds
        · rw [if_pos hearly]
        · rw [if_neg hearly] at h ⊢
          exact getElem?_endRuns h

theorem step_keeps_finished {op : DelegationOp} (hop : op.OfService)
    (hspares : SparesFinished service s op) {runId : ℕ} {finished : AgentRun}
    (hrun : s.runs[runId]? = some finished) (hterminal : finished.Terminal) :
    (service.step s op).runs[runId]? = some finished := by
  have hlt : runId < s.runs.length := (List.getElem?_eq_some_iff.mp hrun).1
  have hnot : runId ∉ service.rewritten s op :=
    fun hmem => hspares runId hmem finished hrun hterminal
  rw [step_of_not_rewritten hop hlt hnot, hrun]

theorem step_terminal (runId : ℕ) (s : DelegationSystem) (op : DelegationOp)
    (h : ∃ finished, s.runs[runId]? = some finished ∧ finished.Terminal)
    (hcond : op.Reports ∧ SparesFinished service s op) :
    ∃ finished, (service.step s op).runs[runId]? = some finished ∧ finished.Terminal := by
  obtain ⟨finished, hrun, hterminal⟩ := h
  obtain ⟨hreports, hspares⟩ := hcond
  cases op with
  | create clock parentAgentId parentRunId request =>
    have hop : (DelegationOp.create clock parentAgentId parentRunId request).OfService := trivial
    exact ⟨finished, step_keeps_finished hop hspares hrun hterminal, hterminal⟩
  | cancel clock delegationId =>
    have hop : (DelegationOp.cancel clock delegationId).OfService := trivial
    exact ⟨finished, step_keeps_finished hop hspares hrun hterminal, hterminal⟩
  | checkTimeout clock delegationId =>
    have hop : (DelegationOp.checkTimeout clock delegationId).OfService := trivial
    exact ⟨finished, step_keeps_finished hop hspares hrun hterminal, hterminal⟩
  | update clock other request =>
    by_cases hsame : other = runId
    · subst hsame
      refine ⟨finished.update (service.isoTime clock) request, ?_, ?_⟩
      · simp [AgentDelegationService.step, DelegationSystem.updateRun, hrun]
      · obtain ⟨status, hstatus, hsome⟩ := hreports
        have hall : ∀ status ∈ ["completed", "failed", "blocked", "cancelled"],
            status ∈ terminalRunStatuses := by decide
        have hterminal' : status ∈ terminalRunStatuses := hall status hstatus
        simpa [AgentRun.Terminal, AgentRun.update, hsome] using hterminal'
    · refine ⟨finished, ?_, hterminal⟩
      rw [AgentDelegationService.step, getElem?_updateRun_of_ne (Ne.symm hsame), hrun]

/-- In every sequence of calls and reports in which no call of the service rewrites a run that
has ended, a run that has once ended is the same before and after each later call of the
service. -/
theorem finished_runs_kept (service : AgentDelegationService) (s : DelegationSystem)
    (before middle after : List DelegationOp) (op : DelegationOp) (hop : op.OfService)
    (hcond : Along service.step (fun s op => op.Reports ∧ SparesFinished service s op) s
      (before ++ middle ++ op :: after))
    (runId : ℕ) (finished : AgentRun)
    (hrun : (run service.step s before).runs[runId]? = some finished)
    (hterminal : finished.Terminal) :
    ∃ kept, kept.Terminal ∧ (run service.step s (before ++ middle)).runs[runId]? = some kept ∧
      (run service.step s (before ++ middle ++ [op])).runs[runId]? = some kept := by
  have hnow := hcond.of_append
  have hmiddle := hcond.of_append_left.of_append_right
  obtain ⟨kept, hkept, hended⟩ :=
    run_invariant (step_terminal runId) ⟨finished, hrun, hterminal⟩ hmiddle
  rw [← run_append] at hkept
  refine ⟨kept, hended, hkept, ?_⟩
  rw [run_append]
  exact step_keeps_finished hop hnow.2 hkept hended

def delegateAndComplete : List DelegationOp :=
  [.create 0 "lucio" 0 (sampleRequest []), .update 5 0 { status := some "completed" }]

/-- A run that was completed is cancelled with the delegation that it has left running. -/
theorem completed_run_is_cancelled :
    ((run sampleService.step (sampleSystem "safe_chat") delegateAndComplete).runs[0]?.map
      fun run => (run.status, run.completedAt)) = some ("completed", some "5") ∧
    ((run sampleService.step (sampleSystem "safe_chat")
      (delegateAndComplete ++ [.cancel 9 0])).runs[0]?.map
      fun run => (run.status, run.completedAt)) = some ("cancelled", some "9") := by
  decide +kernel

/-- A run that was cancelled with its delegation stays as it is when its next delegation is
denied. -/
theorem cancelled_run_is_kept : ∃ kept, kept.Terminal ∧
      (run sampleService.step (sampleSystem "safe_chat")
        ([.create 0 "lucio" 0 (sampleRequest []), .cancel 5 0] ++ [])).runs[0]? = some kept ∧
      (run sampleService.step (sampleSystem "safe_chat")
        ([.create 0 "lucio" 0 (sampleRequest []), .cancel 5 0] ++ [] ++
          [.create 9 "lucio" 0 (sampleRequest ["vision"])])).runs[0]? = some kept := by
  refine finished_runs_kept sampleService (sampleSystem "safe_chat")
    [.create 0 "lucio" 0 (sampleRequest []), .cancel 5 0] []
    [] (.create 9 "lucio" 0 (sampleRequest ["vision"])) trivial ?_ 0
    ⟨"lucio", none, none, "cancelled", "chat", none, [], some "5", none,
      [("delegation_id", .str "delegation_0")]⟩ ?_ ?_
  · refine ⟨⟨trivial, ?_⟩, ⟨trivial, ?_⟩, ⟨trivial, ?_⟩, trivial⟩
    all_goals
      unfold SparesFinished
      decide +kernel
  · rfl
  · decide +kernel

end AIpinho.Delegations
