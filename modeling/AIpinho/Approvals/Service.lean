import AIpinho.Lib.Alone
import AIpinho.Lib.Table
import AIpinho.Runtime.Watchdogs

/-!
# Approvals

`ApprovalStore` keeps a document and a log of events for each approval, and
`ApprovalService` reads and decides them. A pending approval whose time is over is
written as expired by whoever reads it first.
-/

namespace AIpinho.Approvals

open Lib AIpinho.Runtime

inductive ApprovalStatus
  | pending | approved | rejected | cancelled | expired | invalidatedByPolicyChange
  deriving DecidableEq

def ApprovalStatus.text : ApprovalStatus → String
  | .pending => "pending"
  | .approved => "approved"
  | .rejected => "rejected"
  | .cancelled => "cancelled"
  | .expired => "expired"
  | .invalidatedByPolicyChange => "invalidated_by_policy_change"

/-- `ApprovalRequest`, without the identifier it is stored under. -/
structure ApprovalRequest where
  status : ApprovalStatus
  approvalScope : String
  /-- When the time for a decision is over. -/
  expiresAt : String
  updatedAt : String
  executionStatus : String
  approvalAuthority : String
  members : List (String × Json)
  deriving DecidableEq

/-- `ApprovalRequest.model_dump`. -/
def ApprovalRequest.modelDump (approvalId : String) (approval : ApprovalRequest) : Json :=
  .obj ([("approval_id", .str approvalId), ("status", .str approval.status.text),
    ("approval_scope", .str approval.approvalScope), ("expires_at", .str approval.expiresAt),
    ("updated_at", .str approval.updatedAt),
    ("execution_status", .str approval.executionStatus),
    ("approval_authority", .str approval.approvalAuthority)] ++ approval.members)

/-- `ApprovalEvent`, as far as it is read. -/
structure ApprovalEvent where
  eventType : String
  createdAt : String
  summary : String
  deriving DecidableEq

/-- The files of one approval. -/
structure ApprovalFiles where
  /-- The document, if it passes the schema. -/
  request : Option ApprovalRequest
  events : List ApprovalEvent
  deriving DecidableEq

/-- What reading an approval gives: nothing, a document that fails the schema, or an
approval. -/
inductive ApprovalRead
  | missing
  | invalid
  | found (approval : ApprovalRequest)
  deriving DecidableEq

abbrev ApprovalTable : Type := Table String ApprovalFiles

namespace ApprovalTable

/-- `ApprovalStore.get`. -/
def read (approvals : ApprovalTable) (approvalId : String) : ApprovalRead :=
  match approvals.get? approvalId with
  | none => .missing
  | some files => files.request.elim .invalid .found

def filesOf (approvals : ApprovalTable) (approvalId : String) : ApprovalFiles :=
  (approvals.get? approvalId).getD ⟨none, []⟩

/-- `ApprovalStore.save`. -/
def save (approvalId : String) (approval : ApprovalRequest) (approvals : ApprovalTable) :
    ApprovalTable :=
  approvals.insert approvalId { approvals.filesOf approvalId with request := some approval }

/-- `ApprovalStore.append_event`. -/
def appendEvent (approvalId : String) (e : ApprovalEvent) (approvals : ApprovalTable) :
    ApprovalTable :=
  let files := approvals.filesOf approvalId
  approvals.insert approvalId { files with events := files.events ++ [e] }

end ApprovalTable

variable (clock : Clock)

/-- The operations of the service on the approvals. -/
inductive ApprovalOp
  /-- `ApprovalStore.get`. -/
  | get (approvalId : String)
  /-- `ApprovalStore.save`. -/
  | save (approvalId : String) (approval : ApprovalRequest)
  /-- `ApprovalStore.append_event`. -/
  | appendEvent (approvalId : String) (e : ApprovalEvent)

def approvalStore : Signature where
  Op := ApprovalOp
  Answer
    | .get _ => ApprovalRead
    | .save .. => Unit
    | .appendEvent .. => Unit

abbrev ApprovalProgram (α : Type) : Type := Program approvalStore α

def approvalHandler : Handler approvalStore ApprovalTable
  | .get approvalId, approvals => (approvals.read approvalId, approvals)
  | .save approvalId approval, approvals => ((), approvals.save approvalId approval)
  | .appendEvent approvalId e, approvals => ((), approvals.appendEvent approvalId e)

namespace ApprovalProgram

variable (approvalId : String)

def get : ApprovalProgram (Option ApprovalRequest) := do
  match ← Program.perform (S := approvalStore) (.get approvalId) with
  | .missing => pure none
  | .invalid => .raise "ValidationError"
  | .found approval => pure (some approval)

def save (approval : ApprovalRequest) : ApprovalProgram Unit :=
  Program.perform (S := approvalStore) (.save approvalId approval)

def appendEvent (e : ApprovalEvent) : ApprovalProgram Unit :=
  Program.perform (S := approvalStore) (.appendEvent approvalId e)

end ApprovalProgram

/-- `ApprovalLifecycleService.is_expired`: a time that cannot be parsed is over. -/
def isExpired (expiresAt : String) : Bool :=
  (clock.elapsed expiresAt).all (0 ≤ ·)

def ApprovalRequest.expire (now : String) (approval : ApprovalRequest) : ApprovalRequest :=
  { approval with status := .expired, updatedAt := now }

def expiredEvent (now : String) : ApprovalEvent :=
  ⟨"approval_expired", now, "Approval expirou antes da decisao."⟩

def expireApproval (approvalId : String) (approval : ApprovalRequest) :
    ApprovalProgram ApprovalRequest := do
  ApprovalProgram.save approvalId (approval.expire clock.now)
  ApprovalProgram.appendEvent approvalId (expiredEvent clock.now)
  pure (approval.expire clock.now)

/-- `ApprovalService._reconcile_expiration`. -/
def reconcileExpiration (approvalId : String) (approval : ApprovalRequest) :
    ApprovalProgram ApprovalRequest :=
  if approval.status = .pending ∧ isExpired clock approval.expiresAt = true then
    expireApproval clock approvalId approval
  else pure approval

/-- `ApprovalService.get_approval`. -/
def getApproval (approvalId : String) : ApprovalProgram (Option ApprovalRequest) := do
  match ← ApprovalProgram.get approvalId with
  | none => pure none
  | some approval => some <$> reconcileExpiration clock approvalId approval

/-- `ApprovalDecisionValue`. -/
inductive ApprovalDecision
  | approved | rejected | cancelled

def ApprovalDecision.status : ApprovalDecision → ApprovalStatus
  | .approved => .approved
  | .rejected => .rejected
  | .cancelled => .cancelled

def ApprovalDecision.eventType : ApprovalDecision → String
  | .approved => "approval_approved"
  | .rejected => "approval_rejected"
  | .cancelled => "approval_cancelled"

/-- What the service asks other services for. -/
structure ApprovalServices where
  /-- Whether `ArtifactApprovalBridge.record_approval_decision` raises. -/
  bridgeFails : ApprovalRequest → Bool

def ApprovalRequest.decided (now : String) (decision : ApprovalDecision)
    (approval : ApprovalRequest) : ApprovalRequest :=
  { approval with
    status := decision.status
    updatedAt := now
    executionStatus := "not_executed"
    approvalAuthority := "AIpinho" }

/-- `ApprovalService._decide`. The draft of the approval is not part of the model. -/
def decideApproval (services : ApprovalServices) (clock : Clock) (approvalId : String)
    (decision : ApprovalDecision) : ApprovalProgram ApprovalRequest := do
  match ← getApproval clock approvalId with
  | none => .raise "approval_not_found"
  | some approval =>
    if approval.status ≠ .pending then
      .raise "approval_not_pending"
    else if isExpired clock approval.expiresAt = true then do
      let _ ← expireApproval clock approvalId approval
      .raise "approval_expired"
    else do
      let approval := approval.decided clock.now decision
      ApprovalProgram.save approvalId approval
      ApprovalProgram.appendEvent approvalId ⟨decision.eventType, clock.now,
        "Approval " ++ decision.status.text ++
          "; execucao sera retomada apenas pelo runtime governado quando aplicavel."⟩
      if approval.approvalScope = "future_artifact_write" ∧
          services.bridgeFails approval = true then
        ApprovalProgram.appendEvent approvalId ⟨"artifact_preview_sync_failed", clock.now,
          "Artifact preview sync failed; approval still did not execute a write."⟩
      pure approval

end AIpinho.Approvals
