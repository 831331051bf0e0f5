import AIpinho.Approvals.Batch
import AIpinho.Lib.Windows

/-!
# Listing approvals

`ApprovalService.list_approvals` takes the newest approvals of the store, expires those whose
time is over, and only then looks at their status. Those of a task are looked for among the
newest thousand.
-/

namespace AIpinho.Approvals

open Lib AIpinho.Runtime

/-- Whether `glob("approval_*.json")` finds the document of an approval, and the name is not
that of a log of events. -/
def isGlobbed (approvalId : String) : Bool :=
  "approval_".toList.isPrefixOf approvalId.toList &&
    !".events".toList.isSuffixOf approvalId.toList

/-- `updated_at or created_at`. -/
def ApprovalRequest.sortKey (approval : ApprovalRequest) : String :=
  ApprovalRequest.orText approval.updatedAt (approval.text "created_at")

def ApprovalRequest.hasText (name value : String) (approval : ApprovalRequest) : Bool :=
  approval.members.lookup name = some (.str value)

namespace ApprovalTable

/-- The approvals of the store: the documents that are found and pass the schema. -/
def stored (approvals : ApprovalTable) : List (String × ApprovalRequest) :=
  approvals.entries.filterMap fun entry =>
    if isGlobbed entry.1 then entry.2.request.map fun approval => (entry.1, approval) else none

/-- `ApprovalStore.list` before it is cut: the newest approvals come first. -/
def newest (status : Option ApprovalStatus) (sessionId : Option String)
    (approvals : ApprovalTable) : List (String × ApprovalRequest) :=
  (approvals.stored.filter fun entry => status.all (entry.2.status = ·) &&
    sessionId.all fun sessionId => entry.2.hasText "session_id" sessionId).insertionSort
      fun a b => b.2.sortKey ≤ a.2.sortKey

/-- `ApprovalStore.list`. -/
def list (status : Option ApprovalStatus) (sessionId : Option String) (limit : ℤ)
    (approvals : ApprovalTable) : List (String × ApprovalRequest) :=
  (approvals.newest status sessionId).take limit.toNat

end ApprovalTable

/-- `_reconcile_expiration` for each approval. Each is read at a time of its own. -/
def reconcileEach (clocks : String → Clock) :
    List (String × ApprovalRequest) → ApprovalProgram (List (String × ApprovalRequest))
  | [] => pure []
  | (approvalId, approval) :: entries => do
    let approval ← reconcileExpiration (clocks approvalId) approvalId approval
    let rest ← reconcileEach clocks entries
    pure ((approvalId, approval) :: rest)

variable (clocks : String → Clock)

/-- `list_approvals`, with the approvals after it. -/
def listApprovals (status : Option ApprovalStatus) (sessionId : Option String) (limit : ℤ)
    (approvals : ApprovalTable) : Except String (List (String × ApprovalRequest)) × ApprovalTable :=
  let listed := (reconcileEach clocks (approvals.list none sessionId limit)).run approvalHandler
    approvals
  (listed.1.map fun candidates =>
    (candidates.filter fun entry => status.all (entry.2.status = ·)).take limit.toNat, listed.2)

def ApprovalRequest.isOfTask (taskId : String) (approval : ApprovalRequest) : Bool :=
  approval.hasText "run_id" taskId || approval.hasText "task_id" taskId

/-- `max(1, min(limit, 500))`. -/
def taskLimit (limit : ℤ) : ℕ :=
  (max 1 (min limit 500)).toNat

def listForTask (taskId : String) (status : Option ApprovalStatus) (limit : ℤ)
    (approvals : ApprovalTable) : Except String (List (String × ApprovalRequest)) × ApprovalTable :=
  let listed := listApprovals clocks status none 1000 approvals
  (listed.1.map fun entries =>
    (entries.filter fun entry => entry.2.isOfTask taskId).take (taskLimit limit), listed.2)

def safeBatchForTask (excludedActions : List String) (clocks : String → Clock) (taskId : String)
    (approvals : ApprovalTable) :
    Except String (List (String × ApprovalRequest)) × ApprovalTable :=
  let listed := listForTask clocks taskId (some .pending) 500 approvals
  (listed.1.map fun entries =>
    entries.filter fun entry => safeBatchAllowed excludedActions entry.2, listed.2)

def effective (sessionId : Option String) (approvals : ApprovalTable) :
    List (String × ApprovalRequest) :=
  (approvals.newest none sessionId).map fun entry => (entry.1, entry.2.seen (clocks entry.1))

def waitsFor (taskId : String) (entry : String × ApprovalRequest) : Bool :=
  entry.2.status = .pending && entry.2.isOfTask taskId

section Listed

variable {clocks : String → Clock} {approvals : ApprovalTable}

theorem run_reconcileEach (entries : List (String × ApprovalRequest))
    (approvals : ApprovalTable) :
    ((reconcileEach clocks entries).run approvalHandler approvals).1 =
      .ok (entries.map fun entry => (entry.1, entry.2.seen (clocks entry.1))) := by
  induction entries generalizing approvals with
  | nil => rfl
  | cons entry entries ih =>
    obtain ⟨approvalId, approval⟩ := entry
    have hfirst :=
      ApprovalTable.run_reconcileExpiration (clocks approvalId) approvalId approval approvals
    rw [reconcileEach, Program.run_bind_of_ok _ (congrArg Prod.fst hfirst),
      Program.run_bind_of_ok _ (ih _)]
    rfl

theorem listApprovals_fst (status : Option ApprovalStatus) (sessionId : Option String)
    (limit : ℤ) :
    (listApprovals clocks status sessionId limit approvals).1 =
      .ok ((((effective clocks sessionId approvals).take limit.toNat).filter fun entry =>
        status.all (entry.2.status = ·)).take limit.toNat) := by
  rw [listApprovals]
  dsimp only
  rw [run_reconcileEach, ApprovalTable.list, List.map_take]
  rfl

theorem listForTask_fst (taskId : String) (status : Option ApprovalStatus) (limit : ℤ) :
    (listForTask clocks taskId status limit approvals).1 =
      .ok ((((effective clocks none approvals).take 1000).filter fun entry =>
        status.all (entry.2.status = ·) && entry.2.isOfTask taskId).take (taskLimit limit)) := by
  have hwindow : ∀ p : String × ApprovalRequest → Bool,
      (((effective clocks none approvals).take 1000).filter p).take 1000 =
        ((effective clocks none approvals).take 1000).filter p := fun p =>
    List.take_of_length_le ((List.length_filter_le _ _).trans (List.length_take_le _ _))
  rw [listForTask]
  dsimp only
  rw [listApprovals_fst]
  change Except.ok (List.take _ (List.filter _ (List.take 1000 (List.filter _ (List.take 1000 _)))))
    = _
  rw [hwindow, List.filter_filter]
  simp only [Bool.and_comm]

theorem safeBatchForTask_fst (excludedActions : List String) (taskId : String) :
    (safeBatchForTask excludedActions clocks taskId approvals).1 =
      .ok (((((effective clocks none approvals).take 1000).filter (waitsFor taskId)).take
        500).filter fun entry => safeBatchAllowed excludedActions entry.2) := by
  rw [safeBatchForTask]
  dsimp only
  rw [listForTask_fst]
  rfl

end Listed

/-- Listings are complete. -/
structure ListsAll (clocks : String → Clock) (excludedActions : List String)
    (approvals : ApprovalTable) (status : Option ApprovalStatus) (sessionId : Option String)
    (limit : ℤ) (taskId : String) (taskListLimit : ℤ) : Prop where
  listing : (listApprovals clocks status sessionId limit approvals).1 =
    .ok (((effective clocks sessionId approvals).filter fun entry =>
      status.all (entry.2.status = ·)).take limit.toNat)
  task : (listForTask clocks taskId (some .pending) taskListLimit approvals).1 =
    .ok (((effective clocks none approvals).filter (waitsFor taskId)).take
      (taskLimit taskListLimit))
  batch : (safeBatchForTask excludedActions clocks taskId approvals).1 =
    .ok ((effective clocks none approvals).filter fun entry =>
      waitsFor taskId entry && safeBatchAllowed excludedActions entry.2)

/-- No approval is missed because of newer ones. -/
structure NoneHidden (clocks : String → Clock) (excludedActions : List String)
    (approvals : ApprovalTable) (status : Option ApprovalStatus) (sessionId : Option String)
    (limit : ℤ) (taskId : String) (taskListLimit : ℤ) : Prop where
  /-- The newest approvals, as many as are asked for, all have the status, or no older one
  has it. -/
  listing :
    (∀ entry ∈ (effective clocks sessionId approvals).take limit.toNat,
      status.all (entry.2.status = ·) = true) ∨
    ∀ entry ∈ (effective clocks sessionId approvals).drop limit.toNat,
      status.all (entry.2.status = ·) = false
  /-- Among the newest 1000 approvals there are as many waiting ones of the task as are asked
  for, or no older one is. -/
  task :
    taskLimit taskListLimit ≤
      (((effective clocks none approvals).take 1000).filter (waitsFor taskId)).length ∨
    ∀ entry ∈ (effective clocks none approvals).drop 1000, waitsFor taskId entry = false
  /-- A waiting approval of the task that a safe batch allows has less than 1000 newer
  approvals, of which less than 500 are waiting ones of the task. -/
  batch : ∀ newer entry older, effective clocks none approvals = newer ++ entry :: older →
    waitsFor taskId entry = true → safeBatchAllowed excludedActions entry.2 = true →
    newer.length < 1000 ∧ (newer.filter (waitsFor taskId)).length < 500

/-- Listings are complete exactly if no approval is missed because of newer ones. -/
theorem listsAll_iff {clocks : String → Clock} {excludedActions : List String}
    {approvals : ApprovalTable} {status : Option ApprovalStatus} {sessionId : Option String}
    {limit : ℤ} {taskId : String} {taskListLimit : ℤ} :
    ListsAll clocks excludedActions approvals status sessionId limit taskId taskListLimit ↔
      NoneHidden clocks excludedActions approvals status sessionId limit taskId
        taskListLimit := by
  have hlisting : (listApprovals clocks status sessionId limit approvals).1 =
      .ok (((effective clocks sessionId approvals).filter fun entry =>
        status.all (entry.2.status = ·)).take limit.toNat) ↔
      (∀ entry ∈ (effective clocks sessionId approvals).take limit.toNat,
        status.all (entry.2.status = ·) = true) ∨
      ∀ entry ∈ (effective clocks sessionId approvals).drop limit.toNat,
        status.all (entry.2.status = ·) = false := by
    rw [listApprovals_fst, Except.ok.injEq, take_filter_take_eq_iff, le_length_filter_take_iff]
  have htask : (listForTask clocks taskId (some .pending) taskListLimit approvals).1 =
      .ok (((effective clocks none approvals).filter (waitsFor taskId)).take
        (taskLimit taskListLimit)) ↔
      taskLimit taskListLimit ≤
        (((effective clocks none approvals).take 1000).filter (waitsFor taskId)).length ∨
      ∀ entry ∈ (effective clocks none approvals).drop 1000, waitsFor taskId entry = false := by
    rw [listForTask_fst, Except.ok.injEq]
    exact take_filter_take_eq_iff
  have hbatch : (safeBatchForTask excludedActions clocks taskId approvals).1 =
      .ok ((effective clocks none approvals).filter fun entry =>
        waitsFor taskId entry && safeBatchAllowed excludedActions entry.2) ↔
      ∀ newer entry older, effective clocks none approvals = newer ++ entry :: older →
        waitsFor taskId entry = true → safeBatchAllowed excludedActions entry.2 = true →
        newer.length < 1000 ∧ (newer.filter (waitsFor taskId)).length < 500 := by
    rw [safeBatchForTask_fst, Except.ok.injEq]
    exact filter_window_eq_iff
  constructor
  · rintro ⟨h₁, h₂, h₃⟩
    exact ⟨hlisting.mp h₁, htask.mp h₂, hbatch.mp h₃⟩
  · rintro ⟨h₁, h₂, h₃⟩
    exact ⟨hlisting.mpr h₁, htask.mpr h₂, hbatch.mpr h₃⟩

def waitingAndNewer : ApprovalTable :=
  ⟨[("approval_1", ⟨some waiting, []⟩),
    ("approval_2", ⟨some (waiting.decided "t1" .approved), []⟩)], by decide⟩

/-- One waiting approval is asked for, there is one, and none is listed. -/
theorem waiting_approval_hidden :
    (listApprovals (fun _ => ⟨"t2", fun _ => some (-1)⟩) (some .pending) none 1
      waitingAndNewer).1 = .ok [] ∧
    ¬ListsAll (fun _ => ⟨"t2", fun _ => some (-1)⟩) [] waitingAndNewer (some .pending) none 1
      "task" 100 := by
  have hempty : (listApprovals (fun _ => ⟨"t2", fun _ => some (-1)⟩) (some .pending) none 1
      waitingAndNewer).1 = .ok [] := by
    rw [listApprovals_fst]
    decide +kernel
  refine ⟨hempty, fun h => ?_⟩
  have hlisting := h.listing
  rw [hempty, Except.ok.injEq] at hlisting
  exact absurd hlisting (by decide +kernel)

end AIpinho.Approvals
