import AIpinho.Approvals.Reading
import AIpinho.Lib.Transactions

/-!
# Decisions on one approval

`_decide` reads an approval, checks that it is pending and saves the decision. Decisions on a
pending approval exclude each other in every run in which no call reads the approval while
another is about to save it.
-/

namespace AIpinho.Approvals

open Lib AIpinho.Runtime

def ApprovalOp.reads : ApprovalOp → Prop
  | .get _ => True
  | _ => False

/-- Saving a document. -/
def ApprovalOp.writes : ApprovalOp → Prop
  | .save _ _ => True
  | _ => False

def ApprovalTable.Present (approvalId : String) (approvals : ApprovalTable) : Prop :=
  ∃ approval, approvals.read approvalId = .found approval

def decisionOf (clock : Clock) (decision : ApprovalDecision) :
    Transaction ApprovalRead ApprovalRequest where
  next
    | .found approval =>
      if approval.status ≠ .pending then .found approval
      else if isExpired clock approval.expiresAt then .found (approval.expire clock.now)
      else .found (approval.decided clock.now decision)
    | read => read
  result
    | .missing => .error "approval_not_found"
    | .invalid => .error "ValidationError"
    | .found approval =>
      if approval.status ≠ .pending ∨ isExpired clock approval.expiresAt = true then
        .error "approval_not_pending"
      else .ok (approval.decided clock.now decision)

section

variable {services : ApprovalServices} {clock : Clock} {approvalId : String}
  {decision : ApprovalDecision}

theorem leaves_appendEvent (e : ApprovalEvent) :
    Program.Leaves approvalHandler (ApprovalTable.Present approvalId)
      (fun approvals => approvals.read approvalId) (.appendEvent approvalId e) id := by
  rintro approvals ⟨approval, hread⟩
  have hsame := ApprovalTable.read_appendEvent_of_found hread e
  simp only [approvalHandler, hread, hsame, id_eq, true_and]
  exact ⟨approval, hsame⟩

theorem leaves_save (approval : ApprovalRequest) :
    Program.Leaves approvalHandler (ApprovalTable.Present approvalId)
      (fun approvals => approvals.read approvalId) (.save approvalId approval)
      (fun _ => .found approval) := by
  intro approvals _
  exact ⟨ApprovalTable.read_save_self _ _ _, approval, ApprovalTable.read_save_self _ _ _⟩

theorem decideApproval_performs :
    (decideApproval services clock approvalId decision).Performs approvalHandler
      (ApprovalTable.Present approvalId) (fun approvals => approvals.read approvalId)
      ApprovalOp.reads ApprovalOp.writes (decisionOf clock decision) := by
  refine ⟨.get approvalId, _, rfl, trivial, fun approvals hpresent => ⟨rfl, hpresent⟩, ?_⟩
  rintro approvals ⟨approval, hread⟩
  simp only [approvalHandler, hread, decisionOf]
  by_cases hstatus : approval.status = .pending
  case neg =>
    -- Somebody has decided it.
    refine Or.inl ⟨by simp [hstatus], ?_⟩
    dsimp only [bind, Program.bind, pure, reconcileExpiration, Functor.map]
    simp only [hstatus, false_and, if_false, Program.bind, Function.comp_apply, ne_eq,
      not_false_eq_true, if_true, true_or]
    exact Program.quiet_raise _
  refine Or.inr ?_
  by_cases hexpired : isExpired clock approval.expiresAt = true
  · dsimp only [bind, Program.bind, pure, reconcileExpiration, Functor.map]
    simp only [hstatus, hexpired, and_self, ne_eq, not_true_eq_false, or_true, if_false, if_true]
    refine ⟨_, _, rfl, trivial, leaves_save _, fun _ => ?_⟩
    refine Program.quiet_call (leaves_appendEvent _) fun _ => ?_
    exact Program.quiet_raise _
  · dsimp only [bind, Program.bind, pure, reconcileExpiration, Functor.map]
    simp only [hstatus, hexpired, Bool.false_eq_true, and_false, or_self, ne_eq,
      not_true_eq_false, if_false, Program.bind, Function.comp_apply]
    refine ⟨_, _, rfl, trivial, leaves_save _, fun _ => ?_⟩
    refine Program.quiet_call (leaves_appendEvent _) fun _ => ?_
    dsimp only [Program.bind]
    split
    · exact Program.quiet_call (leaves_appendEvent _) fun _ => Program.quiet_done _
    · exact Program.quiet_done _

def NotPending (read : ApprovalRead) : Prop :=
  ∀ approval, read = .found approval → approval.status ≠ .pending

theorem decisionOf_next_of_notPending {read : ApprovalRead} (h : NotPending read) :
    (decisionOf clock decision).next read = read := by
  cases read with
  | missing | invalid => rfl
  | found approval =>
    have hstatus := h approval rfl
    simp [decisionOf, hstatus]

theorem notPending_decisionOf (read : ApprovalRead) :
    NotPending ((decisionOf clock decision).next read) := by
  intro approval hnext
  cases read with
  | missing | invalid => cases hnext
  | found old =>
    simp only [decisionOf] at hnext
    split at hnext
    · cases hnext
      assumption
    · split at hnext
      · cases hnext
        simp [ApprovalRequest.expire]
      · cases hnext
        cases decision <;> simp [ApprovalRequest.decided, ApprovalDecision.status]

theorem decisionOf_result_ok {read : ApprovalRead} {approval : ApprovalRequest}
    (h : (decisionOf clock decision).result read = .ok approval) :
    ¬NotPending read ∧ (decisionOf clock decision).next read = .found approval := by
  cases read with
  | missing | invalid => cases h
  | found old =>
    simp only [decisionOf] at h ⊢
    split at h
    · cases h
    · rename_i hpending
      simp only [ne_eq, not_or, not_not, Bool.not_eq_true] at hpending
      cases h
      refine ⟨fun hnot => hnot old rfl hpending.1, ?_⟩
      simp [hpending]

end

section

variable {ι : Type} [DecidableEq ι]

/-- Calls of `_decide` on one approval, each with its clock and its decision. -/
def racingDecisions (services : ApprovalServices) (approvalId : String)
    (calls : ι → Clock × ApprovalDecision) (approvals : ApprovalTable) :
    Pool approvalStore ApprovalTable fun _ : ι => ApprovalRequest where
  threads i := decideApproval services (calls i).1 approvalId (calls i).2
  state := approvals

/-- At most one call has decided, and what it returned is stored. -/
def DecidedOnce (approvalId : String)
    (c : Pool approvalStore ApprovalTable fun _ : ι => ApprovalRequest) : Prop :=
  (∀ i j approval approval', c.threads i = .done approval → c.threads j = .done approval' →
    i = j) ∧
  ∀ i approval, c.threads i = .done approval → c.state.read approvalId = .found approval

/-- Any number of decisions on one approval: in every run in which no call reads the
approval while another is about to save it, at most one reports success and what it
reported is what is stored. -/
theorem decided_once_of_orderly (services : ApprovalServices) (approvalId : String)
    (calls : ι → Clock × ApprovalDecision) {approvals : ApprovalTable} {approval : ApprovalRequest}
    (hread : approvals.read approvalId = .found approval)
    {trace : List (ι × approvalStore.Exchange)}
    {c : Pool approvalStore ApprovalTable fun _ : ι => ApprovalRequest}
    (hrun : Pool.Orderly approvalHandler ApprovalOp.reads ApprovalOp.writes
      (racingDecisions services approvalId calls approvals) trace c) :
    DecidedOnce approvalId c := by
  have hstart : Pool.Serialized approvalHandler (ApprovalTable.Present approvalId)
      (fun approvals => approvals.read approvalId) ApprovalOp.reads ApprovalOp.writes
      (fun i => decisionOf (calls i).1 (calls i).2) (approvals.read approvalId) []
      (racingDecisions services approvalId calls approvals) := by
    have hpresent : ApprovalTable.Present approvalId
        (racingDecisions services approvalId calls approvals).state := ⟨approval, hread⟩
    exact Pool.Serialized.start hpresent fun i => decideApproval_performs
  obtain ⟨log, hlog, -⟩ := hrun.serialized hstart
  rw [List.nil_append] at hlog
  -- A decision that is reported comes first: it found the approval pending.
  have hfirst : ∀ i approval, c.threads i = .done approval →
      (∃ w post, log = (i, w) :: post) ∧ c.state.read approvalId = .found approval := by
    intro i approval hdone
    obtain ⟨pre, w, post, hsplit, hw, hresult, rest, -, hvalue⟩ := hlog.of_done hdone
    obtain ⟨hnot, hnext⟩ := decisionOf_result_ok hresult
    cases pre with
    | nil =>
      refine ⟨⟨w, post, hsplit⟩, ?_⟩
      rw [hvalue, hnext]
      have hdecided : NotPending (.found approval) := hnext ▸ notPending_decisionOf w
      refine Pool.final_keeps (P := fun read => read = .found approval) ?_ rfl rest
      rintro j read rfl
      exact decisionOf_next_of_notPending hdecided
    | cons entry pre =>
      refine absurd ?_ hnot
      rw [hw, Pool.final_cons]
      refine Pool.final_keeps (P := NotPending) ?_ (notPending_decisionOf _) pre
      intro j read hnotPending
      rw [decisionOf_next_of_notPending hnotPending]
      exact hnotPending
  refine ⟨fun i j decided decided' hi hj => ?_, fun i decided hi => (hfirst i decided hi).2⟩
  obtain ⟨w, post, hsplit⟩ := (hfirst i decided hi).1
  obtain ⟨w', post', hsplit'⟩ := (hfirst j decided' hj).1
  rw [hsplit] at hsplit'
  exact (Prod.mk.inj (List.cons.inj hsplit').1).1

end

def onePending : ApprovalTable :=
  ⟨[("approval_1", ⟨some ⟨.pending, "single_action", "later", "t0", "not_executed", "AIpinho", []⟩,
    []⟩)], by decide⟩

def approveAndReject : Bool → Clock × ApprovalDecision
  | false => (⟨"t1", fun _ => some (-1)⟩, .approved)
  | true => (⟨"t1", fun _ => some (-1)⟩, .rejected)

/-- Both calls, before anyone has started. -/
def approveRejectRace : Pool approvalStore ApprovalTable fun _ : Bool => ApprovalRequest :=
  racingDecisions ⟨fun _ => false⟩ "approval_1" approveAndReject onePending

/-- The approval is read and saved before the rejection reads it. -/
theorem approval_before_rejection :
    DecidedOnce "approval_1" (approveRejectRace.play approvalHandler [false, false, true]) := by
  have hread : onePending.read "approval_1" =
      .found ⟨.pending, "single_action", "later", "t0", "not_executed", "AIpinho", []⟩ := rfl
  refine decided_once_of_orderly ⟨fun _ => false⟩ "approval_1" approveAndReject hread
    (.cons false _ _ rfl ?_ (.cons false _ _ rfl ?_ (.cons true _ _ rfl ?_ (.nil _))))
  · intro _ j
    exact Program.not_aboutToWrite_call (S := approvalStore) (o := .get "approval_1") id
  · exact fun h => h.elim
  · intro _ j
    cases j
    · exact Program.not_aboutToWrite_call (S := approvalStore) (o := .appendEvent _ _) id
    · exact Program.not_aboutToWrite_call (S := approvalStore) (o := .get "approval_1") id

/-- Both calls read the pending approval, then both save: both report success, and the
approval that was reported first is overwritten. -/
theorem approval_decided_twice : Pool.Runs approvalHandler approveRejectRace
      (approveRejectRace.trace approvalHandler [false, true, false, false, true, true])
      (approveRejectRace.play approvalHandler [false, true, false, false, true, true]) ∧
    ¬DecidedOnce "approval_1"
      (approveRejectRace.play approvalHandler [false, true, false, false, true, true]) := by
  refine ⟨Pool.runs_play _ _ _, fun h => ?_⟩
  have hsame := h.1 false true _ _ rfl rfl
  exact absurd hsame (by decide)

end AIpinho.Approvals
