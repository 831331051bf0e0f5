import AIpinho.Delegations.Service
import AIpinho.Lib.Forest
import AIpinho.Lib.Runs

/-!
# Trees of delegations

The runs and their parents form a forest that only the creation of a child changes, by one node
at its end. So what `create_delegation` finds on the way up from the parent holds of the path of
the child.
-/

namespace AIpinho.Delegations

open List Lib

variable (runs : List AgentRun)

def links : List (String × Option ℕ) :=
  runs.map fun run => (run.agentId, run.parentRunId)

theorem lineageFrom_agents (fuel runId : ℕ) :
    (lineageFrom runs fuel runId).map (·.agentId) = rootPath (links runs) fuel runId := by
  induction fuel generalizing runId with
  | zero => rfl
  | succ fuel ih =>
    rw [lineageFrom, rootPath, links, getElem?_map]
    cases runs[runId]? with
    | none => rfl
    | some run =>
      cases hparent : run.parentRunId with
      | none => simp [hparent]
      | some parentRunId =>
        simp only [Option.map_some, hparent, map_cons]
        rw [ih parentRunId]
        rfl

theorem length_lineageFrom (fuel runId : ℕ) :
    (lineageFrom runs fuel runId).length = (rootPath (links runs) fuel runId).length := by
  rw [← lineageFrom_agents, length_map]

theorem length_links : (links runs).length = runs.length := length_map _

variable (s : DelegationSystem)

@[simp]
theorem links_updateRun (now : String) (runId : ℕ) (request : AgentRunUpdateRequest) :
    links (s.updateRun now runId request).runs = links s.runs := by
  refine ext_getElem? fun i => ?_
  simp only [links, DelegationSystem.updateRun, getElem?_map, getElem?_modify]
  cases s.runs[i]? with
  | none => rfl
  | some run =>
    by_cases hi : runId = i
    · simp [hi, AgentRun.update]
    · simp [hi]

@[simp]
theorem links_endRuns (now : String) (delegation : DelegationRequest) (errorCode : Option String)
    (parentStatus : String) :
    links (s.endRuns now delegation errorCode parentStatus).runs = links s.runs := by
  unfold DelegationSystem.endRuns
  cases delegation.childRunId <;> simp

theorem links_append (delegation : DelegationRequest) : links (runs ++ [childRun delegation]) =
      links runs ++ [(delegation.targetAgentId, some delegation.parentRunId)] :=
  map_append

def DelegationSystem.notDenied (parentRunId : ℕ) : ℕ :=
  s.delegations.countP fun record =>
    record.request.parentRunId = parentRunId && record.decision.decision ≠ .deny

theorem notDenied_le (parentRunId : ℕ) :
    s.notDenied parentRunId ≤ (s.listRequests parentRunId).length := by
  rw [DelegationSystem.listRequests, ← countP_eq_length_filter, countP_map]
  refine countP_mono_left fun record _ h => ?_
  simp only [Bool.and_eq_true] at h
  exact h.1

theorem notDenied_updateRun (now : String) (runId : ℕ) (request : AgentRunUpdateRequest)
    (parentRunId : ℕ) :
    (s.updateRun now runId request).notDenied parentRunId = s.notDenied parentRunId := rfl

theorem notDenied_record (delegation : DelegationRequest) (status : DelegationStatus)
    (childRunId : Option ℕ) (decision : DelegationPolicyDecision) (parentRunId : ℕ) :
    (s.record delegation status childRunId decision).notDenied parentRunId =
      s.notDenied parentRunId +
        if delegation.parentRunId = parentRunId ∧ decision.decision ≠ .deny then 1 else 0 := by
  simp [DelegationSystem.notDenied, DelegationSystem.record, countP_append, countP_cons]

@[simp]
theorem delegations_endRuns (now : String) (delegation : DelegationRequest)
    (errorCode : Option String) (parentStatus : String) :
    (s.endRuns now delegation errorCode parentStatus).delegations = s.delegations := by
  unfold DelegationSystem.endRuns
  cases delegation.childRunId <;> rfl

theorem notDenied_setStatus (delegationId : ℕ) (status : DelegationStatus) (parentRunId : ℕ) :
    (s.setStatus delegationId status).notDenied parentRunId = s.notDenied parentRunId := by
  have hmap : (s.setStatus delegationId status).delegations.map
        (fun record => (record.request.parentRunId, record.decision.decision)) =
      s.delegations.map fun record => (record.request.parentRunId, record.decision.decision) := by
    refine ext_getElem? fun i => ?_
    simp only [DelegationSystem.setStatus, getElem?_map, getElem?_modify]
    cases s.delegations[i]? with
    | none => rfl
    | some record =>
      by_cases hi : delegationId = i <;> simp [hi]
  have hcount := congrArg
    (List.countP fun pair : ℕ × DelegationDecision => pair.1 = parentRunId && pair.2 ≠ .deny) hmap
  rw [countP_map, countP_map] at hcount
  exact hcount

theorem endRuns_trees (delegationId : ℕ) (status : DelegationStatus) (now : String)
    (delegation : DelegationRequest) (errorCode : Option String) (parentStatus : String) :
    links ((s.setStatus delegationId status).endRuns now delegation errorCode parentStatus).runs =
        links s.runs ∧
      ∀ parentRunId, ((s.setStatus delegationId status).endRuns now delegation errorCode
        parentStatus).notDenied parentRunId = s.notDenied parentRunId := by
  refine ⟨links_endRuns _ _ _ _ _, fun parentRunId => ?_⟩
  rw [DelegationSystem.notDenied, delegations_endRuns, ← DelegationSystem.notDenied,
    notDenied_setStatus]

theorem endDelegation_trees (service : AgentDelegationService) (clock : ℤ) (delegationId : ℕ)
    (s : DelegationSystem) (op : DelegationOp)
    (hop : op = .cancel clock delegationId ∨ op = .checkTimeout clock delegationId) :
    links (service.step s op).runs = links s.runs ∧
      ∀ parentRunId, (service.step s op).notDenied parentRunId = s.notDenied parentRunId := by
  rcases endDelegation_cases service clock delegationId s op hop with
    hstep | ⟨record, status, errorCode, parentStatus, -, -, -, -, hstep⟩
  · rw [hstep]
    exact ⟨rfl, fun _ => rfl⟩
  · rw [hstep]
    exact endRuns_trees s delegationId status _ record.request errorCode parentStatus

/-- A call adds at most one link, below a parent that may still delegate. -/
theorem step_trees (service : AgentDelegationService) (s : DelegationSystem)
    (op : DelegationOp) :
    (links (service.step s op).runs = links s.runs ∧
      ∀ parentRunId, (service.step s op).notDenied parentRunId = s.notDenied parentRunId) ∨
    ∃ delegation, delegation.parentRunId < s.runs.length ∧
      (service.decide s delegation).decision ≠ .deny ∧
      (links (service.step s op).runs = links s.runs ∨ links (service.step s op).runs =
          links s.runs ++ [(delegation.targetAgentId, some delegation.parentRunId)]) ∧
      ∀ parentRunId, (service.step s op).notDenied parentRunId =
        s.notDenied parentRunId + if delegation.parentRunId = parentRunId then 1 else 0 := by
  cases op with
  | update clock runId request =>
    left
    exact ⟨links_updateRun s _ runId request, fun _ => rfl⟩
  | cancel clock delegationId =>
    left
    exact endDelegation_trees service clock delegationId s _ (Or.inl rfl)
  | checkTimeout clock delegationId =>
    left
    exact endDelegation_trees service clock delegationId s _ (Or.inr rfl)
  | create clock parentAgentId parentRunId request =>
    rw [AgentDelegationService.step]
    rcases createDelegation_cases service clock parentAgentId parentRunId request s with
      ⟨error, hcreate⟩ | ⟨parentRun, delegation, hrun, -, hdelegation, hcreate⟩
    · left
      rw [hcreate]
      exact ⟨rfl, fun _ => rfl⟩
    · have hparent : delegation.parentRunId < s.runs.length := by
        rw [hdelegation]
        exact (List.getElem?_eq_some_iff.mp hrun).1
      rw [hcreate]
      dsimp only
      rcases settle_cases service clock delegation (service.decide s delegation) s with
        ⟨hdecision, hsettle⟩ | ⟨hdecision, hsettle⟩ | ⟨hdecision, -, hsettle⟩
      · left
        rw [hsettle]
        refine ⟨rfl, fun parentRunId => ?_⟩
        rw [notDenied_record, hdecision, if_neg fun h => h.2 rfl, Nat.add_zero]
      · right
        rw [hsettle]
        refine ⟨delegation, hparent, by simp [hdecision], Or.inl (links_updateRun _ _ _ _),
          fun parentRunId => ?_⟩
        rw [notDenied_updateRun, notDenied_record, hdecision]
        simp
      · right
        rw [hsettle]
        refine ⟨delegation, hparent, hdecision,
          Or.inr ((links_updateRun _ _ _ _).trans (links_append _ _)), fun parentRunId => ?_⟩
        rw [notDenied_updateRun, notDenied_record]
        simp [hdecision, DelegationSystem.notDenied]

/-- The bounds of the policy on the trees. -/
structure Bounded (defaults : DelegationDefaults) (s : DelegationSystem) : Prop where
  parents : ParentsFirst (links s.runs)
  /-- No agent is twice on the way up from a run. -/
  acyclic : ∀ runId < s.runs.length, (rootPath (links s.runs) s.runs.length runId).Nodup
  depth : ∀ runId < s.runs.length,
    ((rootPath (links s.runs) s.runs.length runId).length : ℤ) ≤ max 0 defaults.maxDepth + 1
  children : ∀ runId, (s.notDenied runId : ℤ) ≤ max 0 defaults.maxChildRunsPerParent

theorem bounded_of_roots (defaults : DelegationDefaults) {s : DelegationSystem}
    (hroots : ∀ run ∈ s.runs, run.parentRunId = none) (hnew : s.delegations = []) :
    Bounded defaults s := by
  have hpath : ∀ runId < s.runs.length, ∃ agent,
      rootPath (links s.runs) s.runs.length runId = [agent] := by
    intro runId hrunId
    obtain ⟨run, hrun⟩ : ∃ run, s.runs[runId]? = some run := ⟨_, getElem?_eq_getElem hrunId⟩
    have hlink : (links s.runs)[runId]? = some (run.agentId, none) := by
      rw [links, getElem?_map, hrun, Option.map_some, hroots run (mem_of_getElem? hrun)]
    exact ⟨run.agentId, rootPath_root hlink (by omega)⟩
  refine ⟨?_, ?_, ?_, ?_⟩
  · intro runId agent parentRunId hlink
    obtain ⟨run, hrun, hsame⟩ := mem_map.mp (mem_of_getElem? hlink)
    have hparent : run.parentRunId = some parentRunId := congrArg Prod.snd hsame
    rw [hroots run hrun] at hparent
    cases hparent
  · intro runId hrunId
    obtain ⟨agent, hagent⟩ := hpath runId hrunId
    rw [hagent]
    exact nodup_singleton agent
  · intro runId hrunId
    obtain ⟨agent, hagent⟩ := hpath runId hrunId
    rw [hagent, length_singleton]
    omega
  · intro runId
    rw [DelegationSystem.notDenied, hnew, countP_nil]
    omega

theorem Bounded.of_links_eq {defaults : DelegationDefaults} {s s' : DelegationSystem}
    (h : Bounded defaults s) (hlinks : links s'.runs = links s.runs)
    (hchildren : ∀ runId, (s'.notDenied runId : ℤ) ≤ max 0 defaults.maxChildRunsPerParent) :
    Bounded defaults s' := by
  have hlength : s'.runs.length = s.runs.length := by
    rw [← length_links, hlinks, length_links]
  refine ⟨?_, ?_, ?_, hchildren⟩
  · rw [hlinks]
    exact h.parents
  · rw [hlength, hlinks]
    exact h.acyclic
  · rw [hlength, hlinks]
    exact h.depth

theorem Bounded.of_links_append {defaults : DelegationDefaults} {s s' : DelegationSystem}
    (h : Bounded defaults s) {agentId : String} {parentRunId : ℕ}
    (hlinks : links s'.runs = links s.runs ++ [(agentId, some parentRunId)])
    (hparent : parentRunId < s.runs.length)
    (hnew : agentId ∉ rootPath (links s.runs) s.runs.length parentRunId)
    (hroom : ((rootPath (links s.runs) s.runs.length parentRunId).length : ℤ) < defaults.maxDepth)
    (hchildren : ∀ runId, (s'.notDenied runId : ℤ) ≤ max 0 defaults.maxChildRunsPerParent) :
    Bounded defaults s' := by
  obtain ⟨hparents, hacyclic, hdepth, -⟩ := h
  have hnodes : (links s.runs).length = s.runs.length := length_links s.runs
  have hlength : s'.runs.length = s.runs.length + 1 := by
    rw [← length_links, hlinks, length_append, hnodes]
    rfl
  have hold : ∀ runId < s.runs.length, rootPath (links s'.runs) (s.runs.length + 1) runId =
      rootPath (links s.runs) s.runs.length runId := by
    intro runId hrunId
    rw [hlinks, rootPath_append hparents _ (by omega)]
    exact rootPath_fuel hparents (by omega) hrunId
  have hlast : rootPath (links s'.runs) (s.runs.length + 1) s.runs.length =
      agentId :: rootPath (links s.runs) s.runs.length parentRunId := by
    have hpath := rootPath_last hparents agentId (by omega) (Nat.lt_succ_self _) hparent
    rw [hnodes] at hpath
    rw [hlinks]
    exact hpath
  have hcases : ∀ runId < s'.runs.length, runId < s.runs.length ∨ runId = s.runs.length := by
    intro runId hrunId
    omega
  refine ⟨?_, ?_, ?_, hchildren⟩
  · rw [hlinks]
    refine hparents.append fun parent hsame => ?_
    cases hsame
    omega
  · intro runId hrunId
    rw [hlength]
    rcases hcases runId hrunId with hlt | rfl
    · rw [hold runId hlt]
      exact hacyclic runId hlt
    · rw [hlast]
      exact nodup_cons.mpr ⟨hnew, hacyclic _ hparent⟩
  · intro runId hrunId
    rw [hlength]
    rcases hcases runId hrunId with hlt | rfl
    · rw [hold runId hlt]
      exact hdepth runId hlt
    · rw [hlast, length_cons]
      push_cast
      omega

/-- A call keeps every tree within its bounds. -/
theorem step_bounded {service : AgentDelegationService}
    (hcycle : service.policy.config.defaults.enableCycleDetection = true)
    (s : DelegationSystem) (op : DelegationOp)
    (h : Bounded service.policy.config.defaults s) :
    Bounded service.policy.config.defaults (service.step s op) := by
  rcases step_trees service s op with
    ⟨hlinks, hcount⟩ | ⟨delegation, hparent, hdecision, hlinks, hcount⟩
  · apply h.of_links_eq hlinks
    intro runId
    rw [hcount]
    exact h.children runId
  · obtain ⟨target, route, hadmitted, -, -⟩ := admitted_of_not_denied hdecision
    have hnew : delegation.targetAgentId ∉
        rootPath (links s.runs) s.runs.length delegation.parentRunId := by
      intro hmem
      rw [← lineageFrom_agents] at hmem
      exact hadmitted.acyclic ⟨contains_iff_mem.mpr hmem, hcycle⟩
    have hroom : ((rootPath (links s.runs) s.runs.length delegation.parentRunId).length : ℤ) <
        service.policy.config.defaults.maxDepth := by
      rw [← length_lineageFrom]
      exact hadmitted.depth_lt
    have hchildren : ∀ runId, ((service.step s op).notDenied runId : ℤ) ≤
        max 0 service.policy.config.defaults.maxChildRunsPerParent := by
      intro runId
      rw [hcount]
      by_cases hsame : delegation.parentRunId = runId
      · have hbefore := notDenied_le s delegation.parentRunId
        have hlt := hadmitted.childCount_lt
        simp only [Nat.add_sub_cancel] at hlt
        rw [if_pos hsame, ← hsame]
        omega
      · rw [if_neg hsame]
        exact h.children runId
    rcases hlinks with hlinks | hlinks
    · exact h.of_links_eq hlinks hchildren
    · exact h.of_links_append hlinks hparent hnew hroom hchildren

/-- In every sequence of calls that starts with runs that nobody has delegated, no agent is twice
in a lineage, no lineage has more than `maxDepth + 1` runs, and no run too many delegations that
were not denied. -/
theorem delegation_trees_bounded (service : AgentDelegationService)
    (hcycle : service.policy.config.defaults.enableCycleDetection = true)
    (s : DelegationSystem) (hroots : ∀ run ∈ s.runs, run.parentRunId = none)
    (hnew : s.delegations = []) (ops : List DelegationOp) (runId : ℕ)
    (hrunId : runId < (run service.step s ops).runs.length) :
    (((run service.step s ops).lineage runId).map (·.agentId)).Nodup ∧
    (((run service.step s ops).lineage runId).length : ℤ) ≤
      max 0 service.policy.config.defaults.maxDepth + 1 ∧
    ((run service.step s ops).notDenied runId : ℤ) ≤
      max 0 service.policy.config.defaults.maxChildRunsPerParent := by
  have hbounded : Bounded service.policy.config.defaults (run service.step s ops) :=
    run_always (step_bounded hcycle) (bounded_of_roots _ hroots hnew) ops
  have hdepth := hbounded.depth runId hrunId
  rw [DelegationSystem.lineage, lineageFrom_agents, length_lineageFrom]
  exact ⟨hbounded.acyclic runId hrunId, hdepth, hbounded.children runId⟩

/-- Two delegations from one root: the second child has a lineage of two runs. -/
def twoDelegations : List DelegationOp :=
  [.create 0 "lucio" 0 (sampleRequest []), .create 1 "lucio" 0 (sampleRequest [])]

/-- The tree of two delegations is within the bounds of the defaults. -/
theorem two_delegations_bounded :
    (((run sampleService.step (sampleSystem "safe_chat") twoDelegations).lineage 2).map
      (·.agentId)).Nodup ∧
    (((run sampleService.step (sampleSystem "safe_chat") twoDelegations).lineage 2).length : ℤ) ≤
      max 0 3 + 1 ∧
    ((run sampleService.step (sampleSystem "safe_chat") twoDelegations).notDenied 2 : ℤ) ≤
      max 0 10 := by
  refine delegation_trees_bounded sampleService rfl (sampleSystem "safe_chat") ?_ rfl
    twoDelegations 2 ?_
  · intro run hrun
    rw [mem_singleton.mp hrun]
  · decide +kernel

end AIpinho.Delegations
