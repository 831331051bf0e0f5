import AIpinho.Phases.Evaluation
import AIpinho.Phases.Workflow

/-!
# Phases start on satisfied producers

An answer that a phase may start stands until a phase changes. A phase that is started on it
finds every producer it depends on in a status that satisfies it, and an accepted admission
where an evaluation is required of a producer that is not an ended option.
-/

namespace AIpinho.Phases

open List Lib

variable (services : WorkflowServices)

variable (w : WorkflowRuntimeInstance)

def IsAdmitted (now : ℤ) (d : WorkflowPhaseDependency) : Prop :=
  ∃ requirements evaluation admission,
    d.requirements = some requirements ∧ d.evaluation = some evaluation ∧
    d.admission = some admission ∧
    (validateAdmission services.phases admission evaluation requirements
      (w.presented d requirements) now).1 = true

def IsSatisfied (now : ℤ) (d : WorkflowPhaseDependency) : Prop :=
  ∃ producer, w.phase d.producerPhaseId = some producer ∧
    (producer.status.isSuccess = true ∨ isEndedOption producer.toWorkflowPhase = true) ∧
    (d.evaluationRequired = true → isEndedOption producer.toWorkflowPhase = false →
      IsAdmitted services w now d)

def MayStart (stepId : String) (stamps : ℕ → Stamp) : Prop :=
  ∀ phase, w.phaseForStep stepId = some phase → ∀ i d, w.dependencies[i]? = some d →
    d.consumerPhaseId = phase.phaseId → IsSatisfied services w (stamps i).validatedAt d

/-- What a dependency remembers is kept. -/
structure Keeps (d d' : WorkflowPhaseDependency) : Prop where
  plan : d'.toWorkflowPhaseDependency = d.toWorkflowPhaseDependency
  requirements : d'.requirements = d.requirements
  evaluation : ∀ evaluation, d.evaluation = some evaluation → d'.evaluation = some evaluation
  admission : ∀ admission, d.admission = some admission → d'.admission = some admission

theorem Keeps.refl (d : WorkflowPhaseDependency) : Keeps d d :=
  ⟨rfl, rfl, fun _ h => h, fun _ h => h⟩

section

variable {services : WorkflowServices} {w : WorkflowRuntimeInstance} {stamp : Stamp}
  {d d' : WorkflowPhaseDependency}

theorem IsSatisfied.of_keeps {w' : WorkflowRuntimeInstance} {now : ℤ} (hkeeps : Keeps d d')
    (hphases : w'.phases = w.phases) (hrun : w'.taskRunId = w.taskRunId)
    (hoperation : w'.operationId = w.operationId) (h : IsSatisfied services w now d) :
    IsSatisfied services w' now d' := by
  obtain ⟨producer, hproducer, hstatus, hadmitted⟩ := h
  have hplan := hkeeps.plan
  refine ⟨producer, ?_, hstatus, fun hrequired hended => ?_⟩
  · rw [hplan]
    unfold WorkflowRuntimeInstance.phase at hproducer ⊢
    rwa [hphases]
  · rw [hplan] at hrequired
    obtain ⟨requirements, evaluation, admission, hr, he, ha, hvalid⟩ := hadmitted hrequired hended
    refine ⟨requirements, evaluation, admission, hkeeps.requirements.trans hr,
      hkeeps.evaluation _ he, hkeeps.admission _ ha, ?_⟩
    have hpresented : w'.presented d' requirements = w.presented d requirements := by
      simp only [WorkflowRuntimeInstance.presented, hplan, hrun, hoperation]
    rw [hpresented]
    exact hvalid

theorem status_of_nothing_missing {producer : Option Runtime.WorkflowPhase}
    {d : Runtime.WorkflowPhaseDependency} (hstatus : d.requiredStatus = .completed)
    (h : Runtime.WorkflowRuntimeInstance.dependencyMissingReasons producer d = []) :
    ∃ p, producer = some p ∧ (p.status.isSuccess = true ∨ isEndedOption p = true) := by
  cases producer with
  | none => cases h
  | some p =>
    refine ⟨p, rfl, ?_⟩
    unfold Runtime.WorkflowRuntimeInstance.dependencyMissingReasons at h
    by_cases hended : (!p.required && p.status.isTerminal) = true
    · exact .inr hended
    · dsimp only at h
      rw [if_neg hended, append_eq_nil_iff, append_eq_nil_iff] at h
      have hcase : ¬(p.status ≠ d.requiredStatus ∧ p.status.isSuccess = false) := by
        intro hcase
        rw [if_pos hcase] at h
        exact cons_ne_nil _ _ h.1.1
      rw [hstatus] at hcase
      left
      cases hp : p.status <;> simp_all [Runtime.PhaseStatus.isSuccess]

theorem dependencyAdmissionReason_some {producer : Option WorkflowPhase} {reason : Option String}
    (h : w.dependencyAdmissionReason services stamp producer d = some (d', reason)) :
    Keeps d d' ∧ (reason = none → ∀ p, producer = some p → d.evaluationRequired = true →
      isEndedOption p.toWorkflowPhase = false → IsAdmitted services w stamp.validatedAt d') := by
  unfold WorkflowRuntimeInstance.dependencyAdmissionReason at h
  split at h
  · rename_i hended
    obtain ⟨rfl, rfl⟩ := Prod.mk.inj (Option.some.inj h)
    refine ⟨.refl d, fun _ p hp _ hnot => ?_⟩
    rw [hp, Option.any_some] at hended
    rw [hended] at hnot
    cases hnot
  split at h
  · rename_i hrequired
    obtain ⟨rfl, rfl⟩ := Prod.mk.inj (Option.some.inj h)
    refine ⟨.refl d, fun _ p _ hreq => ?_⟩
    rw [hreq] at hrequired
    cases hrequired
  split at h
  · obtain ⟨rfl, rfl⟩ := Prod.mk.inj (Option.some.inj h)
    exact ⟨.refl d, fun hnone => (Option.some_ne_none _ hnone).elim⟩
  split at h
  · obtain ⟨rfl, rfl⟩ := Prod.mk.inj (Option.some.inj h)
    exact ⟨.refl d, fun hnone => (Option.some_ne_none _ hnone).elim⟩
  split at h
  · rename_i requirements producer hrequirements _
    obtain ⟨evaluation, hevaluation, h⟩ := Option.bind_eq_some_iff.mp h
    have hdependency := congrArg Prod.fst (Option.some.inj h)
    have hreason := congrArg Prod.snd (Option.some.inj h)
    subst hdependency
    constructor
    · refine ⟨rfl, rfl, fun e he => ?_, fun a ha => ?_⟩
      · unfold WorkflowRuntimeInstance.evaluationOf at hevaluation
        rw [he] at hevaluation
        exact hevaluation.symm
      · simp only [WorkflowRuntimeInstance.admissionOf, ha, Option.getD_some]
    · intro hnone p _ _ _
      refine ⟨requirements, evaluation, _, hrequirements, rfl, rfl, ?_⟩
      by_contra hinvalid
      have hsome := (if_neg hinvalid).symm.trans (hreason.trans hnone)
      cases hsome
  · obtain ⟨rfl, rfl⟩ := Prod.mk.inj (Option.some.inj h)
    exact ⟨.refl d, fun hnone => (Option.some_ne_none _ hnone).elim⟩

theorem askDependency_spec (services : WorkflowServices) (w : WorkflowRuntimeInstance)
    (stamp : Stamp) (d : WorkflowPhaseDependency) :
    Keeps d (w.askDependency services stamp d).dependency ∧
    (d.requiredStatus = .completed → (w.askDependency services stamp d).raised = false →
      (w.askDependency services stamp d).missing = [] →
      IsSatisfied services w stamp.validatedAt (w.askDependency services stamp d).dependency) := by
  unfold WorkflowRuntimeInstance.askDependency
  dsimp only
  split
  · rename_i hreasons
    have hnothing := List.isEmpty_iff.mp hreasons
    split
    · exact ⟨⟨rfl, rfl, fun _ h => h, fun _ h => h⟩, fun _ hraised => by cases hraised⟩
    · rename_i d' hadmission
      obtain ⟨hkeeps, hadmitted⟩ := dependencyAdmissionReason_some hadmission
      have hkeeps' : Keeps d d' :=
        ⟨hkeeps.plan, hkeeps.requirements, hkeeps.evaluation, hkeeps.admission⟩
      refine ⟨hkeeps', fun hstatus _ _ => ?_⟩
      obtain ⟨p, hp, hsatisfied⟩ := status_of_nothing_missing hstatus hnothing
      obtain ⟨producer, hproducer, rfl⟩ := Option.map_eq_some_iff.mp hp
      refine ⟨producer, ?_, hsatisfied, fun hrequired => hadmitted rfl producer hproducer ?_⟩
      · rw [hkeeps'.plan]
        exact hproducer
      · rw [hkeeps'.plan] at hrequired
        exact hrequired
    · rename_i d' reason hadmission
      obtain ⟨hkeeps, -⟩ := dependencyAdmissionReason_some hadmission
      exact ⟨⟨hkeeps.plan, hkeeps.requirements, hkeeps.evaluation, hkeeps.admission⟩,
        fun _ _ hmissing => (cons_ne_nil _ _ hmissing).elim⟩
  · rename_i hreasons
    refine ⟨⟨rfl, rfl, fun _ h => h, fun _ h => h⟩, fun _ _ hmissing => ?_⟩
    rw [map_eq_nil_iff] at hmissing
    rw [hmissing] at hreasons
    exact (hreasons rfl).elim

theorem askDependencies_keeps (services : WorkflowServices) (w : WorkflowRuntimeInstance)
    (stamps : ℕ → Stamp) (consumer : String) (i : ℕ) (ds : List WorkflowPhaseDependency) :
    List.Forall₂ Keeps ds (w.askDependencies services stamps consumer i ds).1 := by
  induction ds generalizing i with
  | nil => exact .nil
  | cons d ds ih =>
    rw [WorkflowRuntimeInstance.askDependencies]
    split
    · exact .cons (.refl d) (ih (i + 1))
    · dsimp only
      split
      · exact .cons (askDependency_spec services w (stamps i) d).1
          (forall₂_same.mpr fun d _ => .refl d)
      · exact .cons (askDependency_spec services w (stamps i) d).1 (ih (i + 1))

variable {stamps : ℕ → Stamp}

/-- If nothing is missing and nothing raised, every dependency is satisfied. -/
theorem askDependencies_satisfied {consumer : String} {i : ℕ} {ds : List WorkflowPhaseDependency}
    (hstatus : ∀ d ∈ ds, d.requiredStatus = .completed)
    (hmissing : (w.askDependencies services stamps consumer i ds).2.1 = [])
    (hraised : (w.askDependencies services stamps consumer i ds).2.2 = false) :
    ∀ j d, (w.askDependencies services stamps consumer i ds).1[j]? = some d →
      d.consumerPhaseId = consumer →
      IsSatisfied services w (stamps (i + j)).validatedAt d := by
  induction ds generalizing i with
  | nil =>
    intro j d hd
    rw [WorkflowRuntimeInstance.askDependencies] at hd
    simp at hd
  | cons d ds ih =>
    have hrest := fun d hd => hstatus d (mem_cons_of_mem _ hd)
    rw [WorkflowRuntimeInstance.askDependencies] at hmissing hraised ⊢
    by_cases hconsumer : d.consumerPhaseId = consumer
    · rw [if_neg (not_not.mpr hconsumer)] at hmissing hraised ⊢
      dsimp only at hmissing hraised ⊢
      by_cases hasked : (w.askDependency services (stamps i) d).raised = true
      · rw [if_pos hasked] at hraised
        cases hraised
      · rw [if_neg hasked] at hmissing hraised ⊢
        obtain ⟨hnothing, hmissing⟩ := append_eq_nil_iff.mp hmissing
        intro j d' hd' hd'consumer
        cases j with
        | zero =>
          cases Option.some.inj hd'
          exact (askDependency_spec services w (stamps i) d).2
            (hstatus d mem_cons_self) (Bool.not_eq_true _ ▸ hasked) hnothing
        | succ j =>
          have h := ih hrest hmissing hraised j d' hd' hd'consumer
          rwa [Nat.add_right_comm] at h
    · rw [if_pos hconsumer] at hmissing hraised ⊢
      intro j d' hd' hd'consumer
      cases j with
      | zero =>
        cases Option.some.inj hd'
        exact (hconsumer hd'consumer).elim
      | succ j =>
        have h := ih hrest hmissing hraised j d' hd' hd'consumer
        rwa [Nat.add_right_comm] at h

end

/-- A call of the service. -/
inductive WorkflowCall
  | canStart (stepId : String) (stamps : ℕ → Stamp)
  | start (stepId : String)
  | finish (stepId : String) (outcome : WorkflowRuntimeInstance.Outcome)

/-- A workflow and the answers that a phase may start that stand: no phase has changed
since they were given. -/
structure Session where
  workflow : WorkflowRuntimeInstance
  /-- The steps that may start, with the stamps of the call that says so. -/
  standing : List (String × (ℕ → Stamp))

namespace Session

def afterChange (s : Session) (stepId : String) : List (String × (ℕ → Stamp)) :=
  if (s.workflow.phaseForStep stepId).isNone then s.standing else []

def step (services : WorkflowServices) (s : Session) : WorkflowCall → Session
  | .canStart stepId stamps =>
    let (answer, w) := s.workflow.canStartPhase services stamps stepId
    match answer with
    | .allowed => ⟨w, (stepId, stamps) :: s.standing⟩
    | .refused _ => ⟨w, s.afterChange stepId⟩
    | .raised => ⟨w, s.standing⟩
  | .start stepId => ⟨s.workflow.startPhaseForStep stepId, s.afterChange stepId⟩
  | .finish stepId outcome =>
    ⟨s.workflow.finishPhaseForStep stepId outcome, s.afterChange stepId⟩

def StartsWhenAllowed (s : Session) : WorkflowCall → Prop
  | .start stepId => stepId ∈ s.standing.map Prod.fst
  | _ => True

instance decidableStartsWhenAllowed (s : Session) : DecidablePred (StartsWhenAllowed s)
  | .canStart _ _ => inferInstanceAs (Decidable True)
  | .start _ => inferInstanceAs (Decidable (_ ∈ _))
  | .finish _ _ => inferInstanceAs (Decidable True)

def start : Session := ⟨w, []⟩

/-- What holds between two calls: every dependency waits for a completed producer, the
status is the one of the phases, and whoever has been told to start may start. -/
structure Sound (services : WorkflowServices) (s : Session) : Prop where
  required : ∀ d ∈ s.workflow.dependencies, d.requiredStatus = .completed
  refreshed : s.workflow.refresh = s.workflow
  standing : ∀ answer ∈ s.standing, MayStart services s.workflow answer.1 answer.2

end Session

section

variable {services : WorkflowServices} {w w' : WorkflowRuntimeInstance}

/-- The workflow is the same but for what its dependencies remember. -/
structure Remembers (w w' : WorkflowRuntimeInstance) : Prop where
  run : w'.taskRunId = w.taskRunId
  operation : w'.operationId = w.operationId
  phases : w'.phases = w.phases
  dependencies : List.Forall₂ Keeps w.dependencies w'.dependencies

theorem MayStart.of_remembers {stepId : String} {stamps : ℕ → Stamp} (h : Remembers w w')
    (hmay : MayStart services w stepId stamps) : MayStart services w' stepId stamps := by
  intro phase hphase i d' hd' hconsumer
  have hphase' : w.phaseForStep stepId = some phase := by
    unfold WorkflowRuntimeInstance.phaseForStep at hphase ⊢
    rwa [← h.phases]
  obtain ⟨hi', hd'eq⟩ := List.getElem?_eq_some_iff.mp hd'
  have hi : i < w.dependencies.length := by rwa [h.dependencies.length_eq]
  have hkeeps : Keeps w.dependencies[i] d' := hd'eq ▸ h.dependencies.get hi hi'
  refine (hmay phase hphase' i w.dependencies[i] (getElem?_eq_getElem hi) ?_).of_keeps
    hkeeps h.phases h.run h.operation
  rw [← hconsumer, hkeeps.plan]

theorem required_of_keeps {ds ds' : List WorkflowPhaseDependency}
    (h : List.Forall₂ Keeps ds ds') (hrequired : ∀ d ∈ ds, d.requiredStatus = .completed) :
    ∀ d ∈ ds', d.requiredStatus = .completed := by
  induction h with
  | nil => exact hrequired
  | cons hkeeps _ ih =>
    rw [forall_mem_cons] at hrequired ⊢
    exact ⟨by rw [hkeeps.plan]; exact hrequired.1, ih hrequired.2⟩

/-- A start is allowed, raises, or is refused, with what each leaves of the workflow. -/
theorem canStartPhase_cases (services : WorkflowServices) (stamps : ℕ → Stamp) (stepId : String)
    (w : WorkflowRuntimeInstance) :
    ((w.canStartPhase services stamps stepId).1 = .allowed ∧ (w.phaseForStep stepId).isSome = true ∧
      Remembers w (w.canStartPhase services stamps stepId).2 ∧
      (w.canStartPhase services stamps stepId).2.status = w.status ∧
      ((∀ d ∈ w.dependencies, d.requiredStatus = .completed) →
        MayStart services (w.canStartPhase services stamps stepId).2 stepId stamps)) ∨
    ((w.canStartPhase services stamps stepId).1 = .raised ∧
      Remembers w (w.canStartPhase services stamps stepId).2 ∧
      (w.canStartPhase services stamps stepId).2.status = w.status) ∨
    ((∃ reasons, (w.canStartPhase services stamps stepId).1 = .refused reasons) ∧
      ((w.phaseForStep stepId = none ∧ (w.canStartPhase services stamps stepId).2 = w) ∨
        ((w.phaseForStep stepId).isSome = true ∧ List.Forall₂ Keeps w.dependencies
            (w.canStartPhase services stamps stepId).2.dependencies ∧
          (w.canStartPhase services stamps stepId).2.refresh =
            (w.canStartPhase services stamps stepId).2))) := by
  unfold WorkflowRuntimeInstance.canStartPhase
  cases hphase : w.phaseForStep stepId with
  | none => exact .inr (.inr ⟨⟨_, rfl⟩, .inl ⟨rfl, rfl⟩⟩)
  | some phase =>
    have hkeeps := askDependencies_keeps services w stamps phase.phaseId 0 w.dependencies
    dsimp only
    cases hraised : (w.askDependencies services stamps phase.phaseId 0 w.dependencies).2.2 with
    | true =>
      rw [if_pos rfl]
      exact .inr (.inl ⟨rfl, ⟨rfl, rfl, rfl, hkeeps⟩, rfl⟩)
    | false =>
      rw [if_neg Bool.false_ne_true]
      split
      · rename_i hmissing
        have hremembers : Remembers w { w with
            dependencies :=
              (w.askDependencies services stamps phase.phaseId 0 w.dependencies).1 } :=
          ⟨rfl, rfl, rfl, hkeeps⟩
        refine .inl ⟨rfl, rfl, hremembers, rfl, fun hrequired => ?_⟩
        intro phase' hphase' i d hd hconsumer
        have hsame : phase' = phase := Option.some.inj (hphase'.symm.trans hphase)
        subst hsame
        have hsatisfied := askDependencies_satisfied hrequired (List.isEmpty_iff.mp hmissing)
          hraised i d hd hconsumer
        rw [Nat.zero_add] at hsatisfied
        exact hsatisfied.of_keeps (.refl d) rfl rfl rfl
      · exact .inr (.inr ⟨⟨_, rfl⟩, .inr ⟨rfl, hkeeps, rfl⟩⟩)

theorem refresh_eq_iff : w.refresh = w ↔
    w.status = Runtime.WorkflowRuntimeInstance.statusOf (w.phases.map (·.toWorkflowPhase)) := by
  constructor
  · intro h
    exact (congrArg WorkflowRuntimeInstance.status h).symm
  · intro h
    unfold WorkflowRuntimeInstance.refresh
    rw [← h]

theorem refresh_of_remembers (h : Remembers w w') (hstatus : w'.status = w.status)
    (hrefreshed : w.refresh = w) : w'.refresh = w' := by
  rw [refresh_eq_iff] at hrefreshed ⊢
  rw [hstatus, h.phases, hrefreshed]

/-- Starting or finishing a phase changes the phases and computes the status anew. -/
theorem sound_after_update {s : Session} (hs : s.Sound services) (stepId : String)
    (f : WorkflowPhase → WorkflowPhase) :
    (⟨match s.workflow.phaseForStep stepId with
      | none => s.workflow
      | some _ => (s.workflow.updatePhase stepId f).refresh, s.afterChange stepId⟩ :
        Session).Sound services := by
  unfold Session.afterChange
  cases s.workflow.phaseForStep stepId with
  | none => exact hs
  | some phase => exact ⟨hs.required, rfl, fun _ h => by cases h⟩

theorem sound_step {s : Session} (hs : s.Sound services) (call : WorkflowCall) :
    (s.step services call).Sound services := by
  cases call with
  | start stepId =>
    exact sound_after_update hs stepId fun phase => { phase with status := .running }
  | finish stepId outcome =>
    exact sound_after_update hs stepId (WorkflowRuntimeInstance.finished outcome)
  | canStart stepId stamps =>
    unfold Session.step
    dsimp only
    rcases canStartPhase_cases services stamps stepId s.workflow with
      ⟨hanswer, -, hremembers, hstatus, hmay⟩ | ⟨hanswer, hremembers, hstatus⟩ |
        ⟨⟨reasons, hanswer⟩, ⟨hphase, hsame⟩ | ⟨hphase, hkeeps, hrefresh⟩⟩
    · rw [hanswer]
      refine ⟨required_of_keeps hremembers.dependencies hs.required,
        refresh_of_remembers hremembers hstatus hs.refreshed, fun answer hmem => ?_⟩
      rcases mem_cons.mp hmem with rfl | hmem
      · exact hmay hs.required
      · exact (hs.standing answer hmem).of_remembers hremembers
    · rw [hanswer]
      exact ⟨required_of_keeps hremembers.dependencies hs.required,
        refresh_of_remembers hremembers hstatus hs.refreshed,
        fun answer hmem => (hs.standing answer hmem).of_remembers hremembers⟩
    · rw [hanswer, hsame]
      refine ⟨hs.required, hs.refreshed, fun answer hmem => hs.standing answer ?_⟩
      unfold Session.afterChange at hmem
      rwa [hphase] at hmem
    · rw [hanswer]
      refine ⟨required_of_keeps hkeeps hs.required, hrefresh, fun answer hmem => ?_⟩
      unfold Session.afterChange at hmem
      rw [Option.isNone_eq_false_iff.mpr hphase] at hmem
      cases hmem

end

theorem required_sequence (compile : WorkflowPhase → DemandCompilation)
    (explicit : List (String × List String)) (phases : List WorkflowPhase) :
    ∀ d ∈ sequenceDependencies compile explicit phases, d.requiredStatus = .completed := by
  induction phases with
  | nil => simp [sequenceDependencies]
  | cons producer phases ih =>
    cases phases with
    | nil => simp [sequenceDependencies]
    | cons consumer phases =>
      intro d hd
      rcases mem_cons.mp hd with rfl | hd
      · rfl
      · exact ih d hd

theorem required_addExplicitStep {compile : WorkflowPhase → DemandCompilation}
    {phases : List WorkflowPhase} {dependencies : List WorkflowPhaseDependency}
    {pair : String × String} (h : ∀ d ∈ dependencies, d.requiredStatus = .completed) :
    ∀ d ∈ addExplicitStep compile phases dependencies pair, d.requiredStatus = .completed := by
  unfold addExplicitStep
  split
  · split
    · exact h
    · intro d hd
      unfold addExplicit at hd
      dsimp only at hd
      split at hd
      · rcases mem_updateFirst hd with hd | ⟨d', hd', rfl⟩
        · exact h d hd
        · split
          · exact h d' hd'
          · exact h d' hd'
      · rcases mem_append.mp hd with hd | hd
        · exact h d hd
        · rw [mem_singleton.mp hd]
          rfl
  · exact h

theorem sound_createForRun (compile : WorkflowPhase → DemandCompilation)
    (explicit : List (String × List String)) (taskRunId : String) (operationId : Option String)
    (plan : Runtime.TaskRunPlan) :
    (Session.start (createForRun compile explicit taskRunId operationId plan)).Sound services := by
  refine ⟨?_, rfl, fun _ h => by cases h⟩
  let Required (ds : List WorkflowPhaseDependency) := ∀ d ∈ ds, d.requiredStatus = .completed
  have hstep : ∀ ds pair, Required ds → Required (addExplicitStep compile
      (plan.steps.mapIdx fun i step => phaseOfStep (i + 1) step) ds pair) :=
    fun _ _ => required_addExplicitStep
  exact run_always hstep (required_sequence compile explicit _) (explicitPairs explicit)

section

open AIpinho.Runtime (WorkflowPhase.isStopping WorkflowPhase.isSatisfied)
open AIpinho.Runtime.WorkflowRuntimeInstance (statusOf)

variable {phases : List Runtime.WorkflowPhase}

theorem isSatisfied_of_isStopping {phase : Runtime.WorkflowPhase} (h : phase.isStopping = true) :
    phase.isSatisfied = false := by
  unfold Runtime.WorkflowPhase.isStopping at h
  unfold Runtime.WorkflowPhase.isSatisfied
  rw [Bool.and_eq_true] at h
  obtain ⟨hrequired, hstatus⟩ := h
  cases hphase : phase.status <;> simp_all [Runtime.PhaseStatus.isSuccess]

theorem statusOf_stopped_iff : (statusOf phases = .blocked ∨ statusOf phases = .failed) ↔
      ∃ phase ∈ phases, phase.isStopping = true := by
  unfold statusOf
  rw [← any_eq_true]
  split
  · rename_i hempty
    rw [List.isEmpty_iff] at hempty
    simp [hempty]
  · split
    · rename_i hstopping
      rw [hstopping]
      split <;> simp
    · rename_i hstopping
      simp only [hstopping]
      split
      · simp
      · split <;> simp

theorem statusOf_completed_iff :
    statusOf phases = .completed ↔ ∀ phase ∈ phases, phase.isSatisfied = true := by
  unfold statusOf
  rw [← all_eq_true]
  split
  · rename_i hempty
    rw [List.isEmpty_iff] at hempty
    simp [hempty]
  · split
    · rename_i hstopping
      obtain ⟨phase, hmem, hphase⟩ := any_eq_true.mp hstopping
      have hnot : ¬phases.all (·.isSatisfied) = true := by
        intro hall
        have hsatisfied := all_eq_true.mp hall phase hmem
        rw [isSatisfied_of_isStopping hphase] at hsatisfied
        cases hsatisfied
      simp only [hnot]
      split <;> simp
    · split
      · rename_i hall
        simp [hall]
      · rename_i hall
        simp only [hall]
        split <;> simp

end

/-- The workflow says how its phases stand. -/
structure TellsItsPhases (w : WorkflowRuntimeInstance) : Prop where
  stopped : (w.status = .blocked ∨ w.status = .failed) ↔
    ∃ phase ∈ w.phases, phase.required = true ∧ (phase.status = .blocked ∨ phase.status = .failed)
  completed : w.status = .completed ↔ ∀ phase ∈ w.phases, phase.isSatisfied = true

theorem tellsItsPhases {w : WorkflowRuntimeInstance} (h : w.refresh = w) : TellsItsPhases w := by
  rw [refresh_eq_iff] at h
  constructor
  · rw [h, statusOf_stopped_iff]
    simp only [mem_map, exists_exists_and_eq_and, Runtime.WorkflowPhase.isStopping,
      Bool.and_eq_true, Bool.or_eq_true, decide_eq_true_eq]
  · rw [h, statusOf_completed_iff, forall_mem_map]

section

variable (services : WorkflowServices) (compile : WorkflowPhase → DemandCompilation)
  (explicit : List (String × List String)) (taskRunId : String) (operationId : Option String)
  (plan : Runtime.TaskRunPlan)

variable (calls : List WorkflowCall)

def sessionAfter : Session :=
  run (Session.step services)
    (Session.start (createForRun compile explicit taskRunId operationId plan)) calls

/-- The session starts phases only when the workflow allows it. -/
def StartsOnAnswers : Prop :=
  Along (Session.step services) Session.StartsWhenAllowed
    (Session.start (createForRun compile explicit taskRunId operationId plan)) calls

instance decidableStartsOnAnswers (calls : List WorkflowCall) :
    Decidable (StartsOnAnswers services compile explicit taskRunId operationId plan calls) :=
  inferInstanceAs (Decidable (Along ..))

theorem sound_sessionAfter :
    (sessionAfter services compile explicit taskRunId operationId plan calls).Sound services :=
  run_always (P := Session.Sound services) (fun _ call hs => sound_step hs call)
    (sound_createForRun services compile explicit taskRunId operationId plan) calls

/-- A phase that is started on an answer that stands has only satisfied dependencies, with an
admission that was accepted when the answer was given where an evaluation is required of a
producer that is no ended option. After every call the status of the workflow is that of its
phases. -/
theorem phases_start_on_satisfied_producers (calls : List WorkflowCall)
    (hcalls : StartsOnAnswers services compile explicit taskRunId operationId plan calls) :
    (∀ before stepId after, calls = before ++ .start stepId :: after →
      let s := sessionAfter services compile explicit taskRunId operationId plan before
      ∃ stamps, (stepId, stamps) ∈ s.standing ∧ MayStart services s.workflow stepId stamps) ∧
    ∀ before after, calls = before ++ after → TellsItsPhases
      (sessionAfter services compile explicit taskRunId operationId plan before).workflow := by
  constructor
  · rintro before stepId after rfl
    have hsound := sound_sessionAfter services compile explicit taskRunId operationId plan before
    have hallowed : stepId ∈
        (sessionAfter services compile explicit taskRunId operationId plan
          before).standing.map Prod.fst := Along.of_append hcalls
    obtain ⟨⟨id, stamps⟩, hmem, rfl⟩ := mem_map.mp hallowed
    exact ⟨stamps, hmem, hsound.standing _ hmem⟩
  · rintro before after rfl
    exact tellsItsPhases
      (sound_sessionAfter services compile explicit taskRunId operationId plan before).refreshed

end

def draftServices : WorkflowServices where
  phases := plainServices
  str value := value.text?.getD ""

def draftStep (stepId : String) (required : Bool) : Runtime.TaskRunStep where
  stepId := stepId
  stepType := stepId
  action := stepId
  required := required
  sideEffect := false
  status := .pending
  warnings := []
  violations := []

def draftPlan (readRequired : Bool) : Runtime.TaskRunPlan where
  status := "ready"
  steps := [draftStep "read" readRequired, draftStep "write" true]
  executionId := none

def draftDemand (consumer : WorkflowPhase) : DemandCompilation where
  isCompiled := true
  reasonCodes := []
  requirements := some
    { reportRequirements with
      consumerPhaseId := consumer.phaseId
      operationType := consumer.action
      requiredDownstreamUses := []
      evidenceRequired := false }

def stampsAt (now : ℤ) (_ : ℕ) : Stamp := ⟨"evaluation", now, "admission", now, now, now⟩

def endsAs (status : String) : WorkflowRuntimeInstance.Outcome := ⟨status, [], some "event", [], []⟩

def draftCalls : List WorkflowCall :=
  [.canStart "read" (stampsAt 0), .start "read", .finish "read" (endsAs "completed"),
    .canStart "write" (stampsAt 1), .start "write"]

/-- The draft is written on an admission that was accepted. -/
theorem draft_written_on_admission : ∃ stamps, MayStart draftServices
      (sessionAfter draftServices draftDemand [("write", ["read"])] "run" (some "operation")
        (draftPlan true) (draftCalls.take 4)).workflow "write" stamps := by
  obtain ⟨stamps, -, hmay⟩ := (phases_start_on_satisfied_producers draftServices draftDemand
    [("write", ["read"])] "run" (some "operation") (draftPlan true) draftCalls
    (by decide +kernel)).1 (draftCalls.take 4) "write" [] rfl
  exact ⟨stamps, hmay⟩

/-- If reading is optional and has failed, the draft is written with no admission, though
an evaluation is required; and an answer of before reading failed says that writing may
start. -/
theorem draft_written_without_admission : (let calls : List WorkflowCall :=
      [.finish "read" (endsAs "failed"), .canStart "write" (stampsAt 1)]
    let s := sessionAfter draftServices draftDemand [("write", ["read"])] "run"
      (some "operation") (draftPlan false) calls
    StartsOnAnswers draftServices draftDemand [("write", ["read"])] "run" (some "operation")
        (draftPlan false) (calls ++ [.start "write"]) ∧
      ∃ d ∈ s.workflow.dependencies, d.consumerPhaseId = "phase_002_write" ∧
        d.evaluationRequired = true ∧ d.admission.isNone = true) ∧
    (let s := sessionAfter draftServices draftDemand [("write", ["read"])] "run"
      (some "operation") (draftPlan true) (draftCalls.take 3)
    (s.workflow.canStartPhase draftServices (stampsAt 1) "write").1 = .allowed ∧
      let s := sessionAfter draftServices draftDemand [("write", ["read"])] "run"
        (some "operation") (draftPlan true)
        (draftCalls.take 4 ++ [.finish "read" (endsAs "failed")])
      (s.workflow.phase "phase_001_read").map (fun p => (p.required, p.status)) =
        some (true, .failed)) := by
  decide +kernel

end AIpinho.Phases
