import AIpinho.Approvals.Service

/-!
# Reading an approval

`get_approval` writes a pending approval as expired when its time is over. Whoever reads it
again at that time finds the same, and writes nothing.
-/

namespace AIpinho.Approvals

open Lib AIpinho.Runtime

variable (clock : Clock)

variable (approval : ApprovalRequest)

def ApprovalRequest.isLapsed : Bool :=
  approval.status = .pending && isExpired clock approval.expiresAt

def ApprovalRequest.seen : ApprovalRequest :=
  if approval.isLapsed clock then approval.expire clock.now else approval

theorem ApprovalRequest.isLapsed_expire (now : String) (approval : ApprovalRequest) :
    (approval.expire now).isLapsed clock = false := by
  simp [isLapsed, expire]

@[simp] theorem ApprovalRequest.isLapsed_seen : (approval.seen clock).isLapsed clock = false := by
  rw [seen]
  split
  · exact approval.isLapsed_expire clock _
  · rename_i h
    simpa using h

@[simp] theorem ApprovalRequest.seen_seen :
    (approval.seen clock).seen clock = approval.seen clock := by
  rw [seen, if_neg (by simp)]

namespace ApprovalTable

variable {approvals : ApprovalTable} {approvalId approvalId' : String}

variable (clock : Clock)

def current (approvalId : String) (approvals : ApprovalTable) :
    Except String (Option ApprovalRequest) :=
  match approvals.read approvalId with
  | .missing => .ok none
  | .invalid => .error "ValidationError"
  | .found approval => .ok (some (approval.seen clock))

def touch (approvalId : String) (approvals : ApprovalTable) : ApprovalTable :=
  match approvals.read approvalId with
  | .missing => approvals
  | .invalid => approvals
  | .found approval =>
    if approval.isLapsed clock then
      (approvals.save approvalId (approval.expire clock.now)).appendEvent approvalId
        (expiredEvent clock.now)
    else approvals

@[simp] theorem read_save_self (approvalId : String) (approval : ApprovalRequest)
    (approvals : ApprovalTable) :
    (approvals.save approvalId approval).read approvalId = .found approval := by
  simp [save, read]

theorem get?_save_of_ne (h : approvalId' ≠ approvalId) (approval : ApprovalRequest)
    (approvals : ApprovalTable) :
    (approvals.save approvalId approval).get? approvalId' = approvals.get? approvalId' := by
  rw [save, Table.get?_insert_of_ne h]

theorem get?_appendEvent_of_ne (h : approvalId' ≠ approvalId) (e : ApprovalEvent)
    (approvals : ApprovalTable) :
    (approvals.appendEvent approvalId e).get? approvalId' = approvals.get? approvalId' := by
  rw [appendEvent, Table.get?_insert_of_ne h]

theorem read_appendEvent_of_found {approval : ApprovalRequest}
    (h : approvals.read approvalId = .found approval) (e : ApprovalEvent) :
    (approvals.appendEvent approvalId e).read approvalId = .found approval := by
  rw [read] at h
  cases hfiles : approvals.get? approvalId with
  | none => simp [hfiles] at h
  | some files =>
    simp only [hfiles] at h
    rw [appendEvent, read]
    simp only [Table.get?_insert_self, filesOf, hfiles, Option.getD_some]
    exact h

theorem read_of_get?_eq {approvals' : ApprovalTable}
    (h : approvals'.get? approvalId = approvals.get? approvalId) :
    approvals'.read approvalId = approvals.read approvalId := by
  rw [read, read, h]

theorem run_reconcileExpiration (approvalId : String) (approval : ApprovalRequest)
    (approvals : ApprovalTable) :
    (reconcileExpiration clock approvalId approval).run approvalHandler approvals =
      (.ok (approval.seen clock), if approval.isLapsed clock then
          (approvals.save approvalId (approval.expire clock.now)).appendEvent approvalId
            (expiredEvent clock.now)
        else approvals) := by
  rw [reconcileExpiration, ApprovalRequest.seen]
  by_cases hlapsed : approval.isLapsed clock = true
  · have hcond : approval.status = .pending ∧ isExpired clock approval.expiresAt = true := by
      simpa [ApprovalRequest.isLapsed] using hlapsed
    rw [if_pos hcond, if_pos hlapsed, if_pos hlapsed]
    rfl
  · have hcond : ¬(approval.status = .pending ∧ isExpired clock approval.expiresAt = true) := by
      simpa [ApprovalRequest.isLapsed] using hlapsed
    rw [if_neg hcond, if_neg hlapsed, if_neg hlapsed]
    rfl

theorem run_getApproval (approvalId : String) (approvals : ApprovalTable) :
    (getApproval clock approvalId).run approvalHandler approvals =
      (approvals.current clock approvalId, approvals.touch clock approvalId) := by
  rw [current, touch]
  dsimp only [getApproval, ApprovalProgram.get, Program.perform, bind, Program.bind, Program.run,
    approvalHandler]
  cases hread : approvals.read approvalId with
  | missing | invalid => rfl
  | found approval =>
    change (some <$> reconcileExpiration clock approvalId approval).run approvalHandler _ = _
    rw [Program.run_map, run_reconcileExpiration]
    rfl

theorem read_touch_self {approval : ApprovalRequest} (clock : Clock)
    (h : approvals.read approvalId = .found approval) :
    (approvals.touch clock approvalId).read approvalId = .found (approval.seen clock) := by
  rw [touch, h]
  by_cases hlapsed : approval.isLapsed clock = true
  · simp only [hlapsed, if_true, ApprovalRequest.seen]
    exact read_appendEvent_of_found (read_save_self _ _ _) _
  · simp only [hlapsed, ApprovalRequest.seen]
    exact h

theorem get?_touch_of_ne (h : approvalId' ≠ approvalId) (approvals : ApprovalTable) :
    (approvals.touch clock approvalId).get? approvalId' = approvals.get? approvalId' := by
  rw [touch]
  split
  · rfl
  · rfl
  · split
    · rw [get?_appendEvent_of_ne h, get?_save_of_ne h]
    · rfl

@[simp] theorem current_touch (approvalId approvalId' : String) (approvals : ApprovalTable) :
    (approvals.touch clock approvalId').current clock approvalId =
      approvals.current clock approvalId := by
  by_cases hid : approvalId = approvalId'
  · subst hid
    cases hread : approvals.read approvalId with
    | missing | invalid => rw [touch, hread]
    | found approval =>
      rw [current, read_touch_self clock hread, current, hread]
      simp
  · rw [current, read_of_get?_eq (get?_touch_of_ne clock hid approvals), current]

/-- The approval, if it can be read, has not lapsed. -/
def Fresh (approvalId : String) (approvals : ApprovalTable) : Prop :=
  ∀ approval, approvals.read approvalId = .found approval → approval.isLapsed clock = false

theorem touch_of_fresh {clock : Clock} (h : approvals.Fresh clock approvalId) :
    approvals.touch clock approvalId = approvals := by
  rw [touch]
  split
  · rfl
  · rfl
  · rename_i approval hread
    rw [if_neg]
    simp [h approval hread]

theorem fresh_touch_self (approvalId : String) (approvals : ApprovalTable) :
    (approvals.touch clock approvalId).Fresh clock approvalId := by
  intro approval hread
  cases hold : approvals.read approvalId with
  | missing =>
    rw [touch, hold] at hread
    rw [hold] at hread
    cases hread
  | invalid =>
    rw [touch, hold] at hread
    rw [hold] at hread
    cases hread
  | found old =>
    rw [read_touch_self clock hold] at hread
    cases hread
    simp

theorem Fresh.touch {clock : Clock} (h : approvals.Fresh clock approvalId')
    (approvalId : String) : (approvals.touch clock approvalId).Fresh clock approvalId' := by
  by_cases hid : approvalId' = approvalId
  · subst hid
    exact fresh_touch_self clock approvalId' approvals
  · intro approval hread
    rw [read_of_get?_eq (get?_touch_of_ne clock hid approvals)] at hread
    exact h approval hread

end ApprovalTable

end AIpinho.Approvals
