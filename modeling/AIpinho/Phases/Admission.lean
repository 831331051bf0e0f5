import AIpinho.Phases.Evaluation

/-!
# Admissions are sound

An admission is accepted exactly if the evaluation it rests on admits, and what is presented is
what was evaluated, in time. With a shared set of consumed evaluations, none is authorized
twice.
-/

namespace AIpinho.Phases

section

variable {services : PhaseServices} {call : EvaluateCall}

/-- Two records that are hashed to the same text are the same. -/
def NoCollision (services : PhaseServices) (p q : Payload) : Prop :=
  services.sha256 p = services.sha256 q → p = q

def Evaluation.unsigned (evaluation : Evaluation) : Evaluation :=
  { evaluation with authoritySha256 := "" }

theorem evaluate_signed : (evaluate services call).authoritySha256 =
      services.evaluationSha256 (evaluate services call) := rfl

theorem evaluate_isCompleted (h : (evaluate services call).decision.admits = true) :
    (evaluate services call).isCompleted = true := by
  change (call.verdict services).1.admits = true at h
  change (call.verdict services).2.1 = true
  unfold EvaluateCall.verdict at h ⊢
  dsimp only at h ⊢
  split
  · rfl
  · rename_i hblocking
    rw [if_neg hblocking] at h
    split
    · rename_i hunknown
      rw [if_pos hunknown] at h
      cases h
    · split <;> rfl

theorem evaluation_eq_of_signed {evaluation presented : Evaluation}
    (hcollision : NoCollision services (.evaluation presented.unsigned)
      (.evaluation evaluation.unsigned))
    (hsigned : evaluation.authoritySha256 = services.evaluationSha256 evaluation)
    (hpresented : presented.authoritySha256 = services.evaluationSha256 presented)
    (hsame : evaluation.authoritySha256 = presented.authoritySha256) : presented = evaluation := by
  have hunsigned : presented.unsigned = evaluation.unsigned := by
    have hsha : services.sha256 (.evaluation presented.unsigned) =
        services.sha256 (.evaluation evaluation.unsigned) := by
      change services.evaluationSha256 presented = services.evaluationSha256 evaluation
      rw [← hsigned, ← hpresented, hsame]
    exact Payload.evaluation.inj (hcollision hsha)
  calc presented = { presented.unsigned with authoritySha256 := presented.authoritySha256 } := rfl
    _ = { evaluation.unsigned with authoritySha256 := evaluation.authoritySha256 } := by
        rw [hunsigned, hsame]
    _ = evaluation := rfl

theorem reason_eq_none_iff {p : Prop} [Decidable p] {reason : String} {rest : Option String} :
    (if p then some reason else rest) = none ↔ ¬p ∧ rest = none := by
  split <;> simp_all

variable {presented : Identities} {requirements : Requirements}

theorem authorizationFailure_eq_none_iff {consumed : List String} {now admittedAt : ℤ}
    {admissionId : String} :
    authorizationFailure services consumed
        ⟨evaluate services call, requirements, presented, now, admissionId, admittedAt⟩ = none ↔
      (evaluate services call).isCompleted = true ∧ call.evaluationId ∉ consumed ∧
      now < (evaluate services call).expiresAt ∧ presented = call.identities ∧
      call.requirements.contractId = requirements.contractId ∧
      call.requirements.contractVersion = requirements.contractVersion ∧
      services.requirementsSha256 call.requirements = services.requirementsSha256 requirements := by
  have hid : (evaluate services call).evaluationId = call.evaluationId := rfl
  have hidentities : (evaluate services call).identities = call.identities := rfl
  have hcontract : (evaluate services call).downstreamContractId = call.requirements.contractId :=
    rfl
  have hversion : (evaluate services call).downstreamContractVersion =
    call.requirements.contractVersion := rfl
  have hsha : (evaluate services call).requirementsSha256 =
    services.requirementsSha256 call.requirements := rfl
  unfold authorizationFailure
  dsimp only
  rw [if_neg (not_not.mpr evaluate_signed), hid, hidentities, hcontract, hversion, hsha]
  simp only [reason_eq_none_iff, Bool.not_eq_true', Bool.not_eq_false, List.contains_eq_mem,
    decide_eq_true_eq, Int.not_le, not_or, ne_eq, not_not, and_true]
  rw [eq_comm (a := presented)]

theorem authorize_authorized_iff {consumed : Option (List String)} {now admittedAt : ℤ}
    {admissionId : String} (hcollision : NoCollision services (.requirements requirements)
      (.requirements call.requirements)) :
    (authorize services consumed ⟨evaluate services call, requirements, presented, now,
        admissionId, admittedAt⟩).1.authorized = true ↔
      (evaluate services call).decision.admits = true ∧ call.evaluationId ∉ consumed.getD [] ∧
      now < (evaluate services call).expiresAt ∧ presented = call.identities ∧
      requirements = call.requirements := by
  change (Option.isNone _ && _) = true ↔ _
  rw [Bool.and_eq_true, Option.isNone_iff_eq_none, authorizationFailure_eq_none_iff]
  constructor
  · rintro ⟨⟨-, hconsumed, hnow, hpresented, -, -, hsha⟩, hadmits⟩
    exact ⟨hadmits, hconsumed, hnow, hpresented, Payload.requirements.inj (hcollision hsha.symm)⟩
  · rintro ⟨hadmits, hconsumed, hnow, hpresented, rfl⟩
    exact ⟨⟨evaluate_isCompleted hadmits, hconsumed, hnow, hpresented, rfl, rfl, rfl⟩, hadmits⟩

theorem accepts_iff {p : Prop} [Decidable p] {reason : Option String}
    {rest : Bool × Option String} :
    (if p then (false, reason) else rest).1 = true ↔ ¬p ∧ rest.1 = true := by
  split <;> simp_all

theorem validateAdmission_iff {admission : Admission} {evaluation : Evaluation} {now : ℤ} :
    (validateAdmission services admission evaluation requirements presented now).1 = true ↔
      admission.authoritySha256 = services.admissionSha256 admission ∧
      evaluation.authoritySha256 = services.evaluationSha256 evaluation ∧
      admission.evaluationId = evaluation.evaluationId ∧
      admission.evaluationAuthoritySha256 = evaluation.authoritySha256 ∧
      now < admission.expiresAt ∧ admission.identities = presented ∧
      admission.downstreamContractId = requirements.contractId ∧
      admission.requirementsSha256 = services.requirementsSha256 requirements ∧
      admission.authorized = true := by
  unfold validateAdmission
  simp only [accepts_iff, ne_eq, not_not, not_or, Int.not_le, Bool.not_eq_true', Bool.not_eq_false,
    and_true, and_assoc]

end

section

variable {services : PhaseServices}

def authorizedIds (admissions : List Admission) : List String :=
  (admissions.filter (·.authorized)).map (·.evaluationId)

variable (services) in
theorem authorize_consumes (consumed : List String) (call : AuthorizeCall) :
    ((authorize services (some consumed) call).1.authorized = true ∧
      call.evaluation.evaluationId ∉ consumed ∧
      (authorize services (some consumed) call).2 =
        some (call.evaluation.evaluationId :: consumed)) ∨
    ((authorize services (some consumed) call).1.authorized = false ∧
      (authorize services (some consumed) call).2 = some consumed) := by
  have hauthorized : (authorize services (some consumed) call).1.authorized =
      ((authorizationFailure services consumed call).isNone &&
        call.evaluation.decision.admits) := rfl
  have hconsumed : (authorize services (some consumed) call).2 =
      if ((authorizationFailure services consumed call).isNone &&
        call.evaluation.decision.admits) = true then
        some (call.evaluation.evaluationId :: consumed) else some consumed := rfl
  rw [hauthorized, hconsumed]
  cases hcase : (authorizationFailure services consumed call).isNone &&
    call.evaluation.decision.admits with
  | false => exact .inr ⟨rfl, rfl⟩
  | true =>
    refine .inl ⟨rfl, ?_, rfl⟩
    rw [Bool.and_eq_true, Option.isNone_iff_eq_none] at hcase
    have hnone := hcase.1
    unfold authorizationFailure at hnone
    simp only [reason_eq_none_iff, List.contains_eq_mem, decide_eq_true_eq] at hnone
    exact hnone.2.2.1

variable (services) in
theorem authorizedIds_nodup (consumed : List String) (calls : List AuthorizeCall) :
    (authorizedIds (authorizeAll services consumed calls)).Nodup ∧
      ∀ id ∈ authorizedIds (authorizeAll services consumed calls), id ∉ consumed := by
  induction calls generalizing consumed with
  | nil => simp [authorizeAll, authorizedIds]
  | cons call calls ih =>
    rw [authorizeAll]
    rcases authorize_consumes services consumed call with
      ⟨hauthorized, hfresh, hnext⟩ | ⟨hauthorized, hnext⟩
    · obtain ⟨hnodup, hnot⟩ := ih (call.evaluation.evaluationId :: consumed)
      have hids : authorizedIds ((authorize services (some consumed) call).1 ::
          authorizeAll services (call.evaluation.evaluationId :: consumed) calls) =
          call.evaluation.evaluationId ::
            authorizedIds (authorizeAll services (call.evaluation.evaluationId :: consumed)
              calls) := by
        rw [authorizedIds, List.filter_cons_of_pos hauthorized]
        rfl
      dsimp only
      rw [hnext, Option.getD_some, hids]
      refine ⟨List.nodup_cons.mpr ⟨fun hmem => hnot _ hmem List.mem_cons_self, hnodup⟩, ?_⟩
      intro id hid
      rcases List.mem_cons.mp hid with rfl | hid
      · exact hfresh
      · exact fun hmem => hnot id hid (List.mem_cons_of_mem _ hmem)
    · have hids : ∀ rest, authorizedIds ((authorize services (some consumed) call).1 :: rest) =
          authorizedIds rest := by
        intro rest
        rw [authorizedIds, List.filter_cons_of_neg (by simp [hauthorized])]
        rfl
      dsimp only
      rw [hnext, Option.getD_some, hids]
      exact ih consumed

end

/-- An admission of an evaluation is accepted exactly if the evaluation admits and everything
that is presented is what was evaluated; and a shared set of consumed evaluations lets no
evaluation be authorized twice. -/
theorem admission_is_sound (services : PhaseServices) (call : EvaluateCall)
    (consumed : Option (List String)) (presented presented' : Identities)
    (requirements requirements' : Requirements) (evaluation : Evaluation)
    (now now' admittedAt : ℤ) (admissionId : String)
    (hrequirements : NoCollision services (.requirements requirements)
      (.requirements call.requirements))
    (hrequirements' : NoCollision services (.requirements requirements')
      (.requirements call.requirements))
    (hevaluation : NoCollision services (.evaluation evaluation.unsigned)
      (.evaluation (evaluate services call).unsigned)) :
    ((validateAdmission services
        (authorize services consumed ⟨evaluate services call, requirements, presented, now,
          admissionId, admittedAt⟩).1 evaluation requirements' presented' now').1 = true ↔
      (evaluate services call).decision.admits = true ∧
      (presented = call.identities ∧ presented' = call.identities) ∧
      (now < (evaluate services call).expiresAt ∧ now' < (evaluate services call).expiresAt) ∧
      (evaluation = evaluate services call ∧ requirements = call.requirements ∧
        requirements' = call.requirements) ∧
      call.evaluationId ∉ consumed.getD []) ∧
    ∀ (before : List String) (calls : List AuthorizeCall),
      (authorizedIds (authorizeAll services before calls)).Nodup ∧
        ∀ id ∈ authorizedIds (authorizeAll services before calls), id ∉ before := by
  refine ⟨?_, authorizedIds_nodup services⟩
  rw [validateAdmission_iff, authorize_authorized_iff hrequirements]
  constructor
  · rintro ⟨-, hsigned, -, hsame, hnow', hidentities, -, hsha, hadmits, hconsumed, hnow,
      hpresented, hreqs⟩
    exact ⟨hadmits, ⟨hpresented, hidentities.symm⟩, ⟨hnow, hnow'⟩,
      ⟨evaluation_eq_of_signed hevaluation evaluate_signed hsigned hsame, hreqs,
        Payload.requirements.inj (hrequirements' hsha.symm)⟩, hconsumed⟩
  · rintro ⟨hadmits, ⟨hpresented, rfl⟩, ⟨hnow, hnow'⟩, ⟨rfl, hreqs, rfl⟩, hconsumed⟩
    exact ⟨rfl, evaluate_signed, rfl, rfl, hnow', rfl, rfl, rfl, hadmits, hconsumed, hnow,
      hpresented, hreqs⟩

/-- The admission of a report without limitations is accepted within its time. -/
theorem report_admission_is_accepted : (validateAdmission plainServices
      (authorize plainServices none ⟨evaluate plainServices (reportCall []), reportRequirements,
        (reportCall []).identities, 1, "admission", 1⟩).1
      (evaluate plainServices (reportCall [])) reportRequirements (reportCall []).identities
      2).1 = true :=
  (admission_is_sound plainServices (reportCall []) none (reportCall []).identities
    (reportCall []).identities reportRequirements reportRequirements
    (evaluate plainServices (reportCall [])) 1 2 1 "admission" (fun _ => rfl) (fun _ => rfl)
    (fun _ => rfl)).1.mpr
    ⟨by decide, ⟨rfl, rfl⟩, ⟨by decide, by decide⟩, ⟨rfl, rfl, rfl⟩, by decide⟩

end AIpinho.Phases
