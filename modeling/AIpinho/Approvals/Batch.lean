import AIpinho.Approvals.Reading

/-!
# Batches of decisions

`_decide_batch` reads the selected approvals, checks them as a whole and then decides them one
after another. Reading writes what has lapsed, and a decision that is refused in the middle
leaves the earlier ones in place.
-/

namespace AIpinho.Approvals

open List Lib AIpinho.Runtime

namespace ApprovalRequest

/-- The text of a member; `None` and a missing member count as the empty text. -/
def text (name : String) (approval : ApprovalRequest) : String :=
  ((approval.members.lookup name).bind Json.text?).getD ""

/-- `a or b` of two texts. -/
def orText (a b : String) : String := if a = "" then b else a

variable (approval : ApprovalRequest)

/-- `approval.task_id or approval.run_id or ""`. -/
def taskKey : String :=
  orText (approval.text "task_id") (approval.text "run_id")

/-- `approval.workspace_path or approval.workspace_id or ""`. -/
def workspaceKey : String :=
  orText (approval.text "workspace_path") (approval.text "workspace_id")

def textsOf : Option Json → List String
  | some (.list items) => items.filterMap Json.text?
  | _ => []

/-- `approval.actions_requested`. -/
def actionsRequested : List String :=
  textsOf (approval.members.lookup "actions_requested")

/-- `approval.policy_snapshot.denied_actions`. -/
def deniedActions : List String :=
  textsOf ((approval.members.lookup "policy_snapshot").bind (·.field? "denied_actions"))

/-- `approval.allowed_by_policy`, which is `True` by default. -/
def allowedByPolicy : Bool :=
  (approval.members.lookup "allowed_by_policy").all Json.truthy

end ApprovalRequest

/-- The actions that a safe batch excludes if the policy names none. -/
def excludedByDefault : List String :=
  ["delete_file", "delete_files", "move_file", "move_files", "git_commit", "git_push",
    "destructive_shell", "network_shell", "process_control_shell", "run_command"]

/-- What a batch asks others for. -/
structure BatchServices extends ApprovalServices where
  /-- `str.strip`. -/
  strip : String → String
  /-- `ApprovalStore._path`: the approval whose file an identifier leads to, if that file
  is in the directory of the store. -/
  locate : String → Option String
  /-- `ApprovalPolicy.safe_batch_excluded_actions`. -/
  safeBatchExcludedActions : List String
  /-- Whether the draft of an identifier is there and cannot be read, so that
  `_update_draft_status` raises. -/
  draftFails : String → Bool

/-- When the steps of a batch on an approval take place. -/
structure BatchClocks where
  reading : String → Clock
  deciding : String → Clock
  recording : String → String

/-- `ApprovalService._safe_batch_allowed`. -/
def safeBatchAllowed (excludedActions : List String) (approval : ApprovalRequest) : Bool :=
  let excluded := if excludedActions = [] then excludedByDefault else excludedActions
  let actions := approval.actionsRequested
  !actions.isEmpty && !actions.any excluded.contains &&
    !actions.any approval.deniedActions.contains &&
    (approval.status = .pending && approval.allowedByPolicy)

def isSpread (texts : List String) : Bool := 1 < (texts.filter (· ≠ "")).eraseDups.length

variable (services : BatchServices)

/-- Why a batch is refused as a whole. -/
def batchObjection (safeOnly : Bool) (real : List ApprovalRequest) : Option String :=
  if isSpread (real.map ApprovalRequest.taskKey) then
    some "batch_cross_task_not_allowed"
  else if isSpread (real.map ApprovalRequest.workspaceKey) then
    some "batch_cross_workspace_not_allowed"
  else if safeOnly && real.any (!safeBatchAllowed services.safeBatchExcludedActions ·) then
    some "batch_contains_non_safe_action"
  else none

def uniqueIds (approvalIds : List String) : List String :=
  (approvalIds.map services.strip).eraseDups.filter (· ≠ "")

/-- `get_approval` for each identifier. -/
def readBatch (services : BatchServices) (clocks : BatchClocks) :
    List String → ApprovalProgram (List (String × Option ApprovalRequest))
  | [] => pure []
  | approvalId :: approvalIds =>
    match services.locate approvalId with
    | none => .raise "UnsafePathError"
    | some key => do
      let approval ← getApproval (clocks.reading key) key
      let rest ← readBatch services clocks approvalIds
      pure ((key, approval) :: rest)

def present (approvals : List (String × Option ApprovalRequest)) :
    List (String × ApprovalRequest) :=
  approvals.filterMap fun entry => entry.2.map fun approval => (entry.1, approval)

def checkBatch (safeOnly : Bool) (approvals : List (String × Option ApprovalRequest)) :
    Except String (List (String × ApprovalRequest)) :=
  if approvals.any (·.2.isNone) then .error "approval_not_found"
  else
    match batchObjection services safeOnly ((present approvals).map Prod.snd) with
    | some reason => .error reason
    | none => .ok (present approvals)

variable (clocks : BatchClocks)

/-- The first half of `_decide_batch`: read the approvals and check them. -/
def selectBatch (safeOnly : Bool) (approvalIds : List String) :
    ApprovalProgram (List (String × ApprovalRequest)) :=
  if uniqueIds services approvalIds = [] then .raise "no_approvals_selected"
  else do
    let approvals ← readBatch services clocks (uniqueIds services approvalIds)
    match checkBatch services safeOnly approvals with
    | .error reason => .raise reason
    | .ok real => pure real

/-- `_decide` for each approval. -/
def decideEach (services : BatchServices) (clocks : BatchClocks) (decision : ApprovalDecision) :
    List String → ApprovalProgram (List (String × ApprovalRequest))
  | [] => pure []
  | key :: keys => do
    let approval ← decideApproval services.toApprovalServices (clocks.deciding key) key decision
    if services.draftFails (approval.text "draft_id") = true then .raise "ValidationError"
    else do
      let rest ← decideEach services clocks decision keys
      pure ((key, approval) :: rest)

def ApprovalDecision.batchEvent : ApprovalDecision → String
  | .approved => "approval_batch_approved"
  | _ => "approval_batch_denied"

def recordBatch (clocks : BatchClocks) (decision : ApprovalDecision) :
    List (String × ApprovalRequest) → ApprovalProgram Unit
  | [] => pure ()
  | result :: results => do
    ApprovalProgram.appendEvent result.1 ⟨decision.batchEvent, clocks.recording result.1,
      "Decisao em lote registrada para approval governado."⟩
    recordBatch clocks decision results

/-- `ApprovalService._decide_batch`. -/
def decideBatch (decision : ApprovalDecision) (safeOnly : Bool) (approvalIds : List String) :
    ApprovalProgram (List (String × ApprovalRequest)) := do
  let real ← selectBatch services clocks safeOnly approvalIds
  let results ← decideEach services clocks decision (real.map Prod.fst)
  recordBatch clocks decision results
  pure results

/-- `ApprovalService.approve_batch`. -/
def approveBatch (safeOnly : Bool) (approvalIds : List String) :
    ApprovalProgram (List (String × ApprovalRequest)) :=
  decideBatch services clocks .approved safeOnly approvalIds

/-- `ApprovalService.reject_batch`. -/
def rejectBatch (safeOnly : Bool) (approvalIds : List String) :
    ApprovalProgram (List (String × ApprovalRequest)) :=
  decideBatch services clocks .rejected safeOnly approvalIds

namespace ApprovalTable

variable {approvals : ApprovalTable} {key key' : String}

def eventCount (key : String) (approvals : ApprovalTable) : ℕ :=
  (approvals.filesOf key).events.length

@[simp] theorem eventCount_save (key key' : String) (approval : ApprovalRequest)
    (approvals : ApprovalTable) :
    (approvals.save key' approval).eventCount key = approvals.eventCount key := by
  by_cases hkey : key = key'
  · subst hkey
    rw [eventCount, filesOf, save, Table.get?_insert_self]
    rfl
  · rw [eventCount, filesOf, get?_save_of_ne hkey]
    rfl

@[simp] theorem eventCount_appendEvent_self (key : String) (e : ApprovalEvent)
    (approvals : ApprovalTable) :
    (approvals.appendEvent key e).eventCount key = approvals.eventCount key + 1 := by
  rw [eventCount, filesOf, appendEvent, Table.get?_insert_self, Option.getD_some, length_append]
  rfl

theorem eventCount_le_appendEvent (key key' : String) (e : ApprovalEvent)
    (approvals : ApprovalTable) :
    approvals.eventCount key ≤ (approvals.appendEvent key' e).eventCount key := by
  by_cases hkey : key = key'
  · subst hkey
    simp
  · rw [eventCount, eventCount, filesOf, filesOf, get?_appendEvent_of_ne hkey]

theorem eventCount_le_run {α : Type} (p : ApprovalProgram α) (key : String)
    (approvals : ApprovalTable) :
    approvals.eventCount key ≤ (p.run approvalHandler approvals).2.eventCount key := by
  induction p generalizing approvals with
  | done | raise => exact le_refl _
  | call o k ih =>
    refine le_trans ?_ (ih _ _)
    cases o with
    | get approvalId => exact le_refl _
    | save approvalId approval => exact (eventCount_save key approvalId approval _).ge
    | appendEvent approvalId e => exact eventCount_le_appendEvent key approvalId e _

theorem eventCount_le_of_bind {α β : Type} {p : ApprovalProgram α} {f : α → ApprovalProgram β}
    {after : ApprovalTable} (h : ((p >>= f).run approvalHandler approvals).2 = after)
    (key : String) :
    (p.run approvalHandler approvals).2.eventCount key ≤ after.eventCount key := by
  subst h
  cases hresult : (p.run approvalHandler approvals).1 with
  | error e => rw [Program.run_bind_of_error _ hresult]
  | ok a =>
    rw [Program.run_bind_of_ok _ hresult]
    exact eventCount_le_run _ key _

theorem eventCount_le_touch (clock : Clock) (key key' : String) (approvals : ApprovalTable) :
    approvals.eventCount key ≤ (approvals.touch clock key').eventCount key := by
  have hrun := eventCount_le_run (getApproval clock key') key approvals
  rwa [run_getApproval] at hrun

theorem eventCount_lt_touch {clock : Clock} (h : ¬approvals.Fresh clock key) :
    approvals.eventCount key < (approvals.touch clock key).eventCount key := by
  rw [Fresh] at h
  push Not at h
  obtain ⟨approval, hread, hlapsed⟩ := h
  rw [touch, hread]
  simp [hlapsed]

/-- What a reader is given does not change when another approval is read. -/
theorem current_touch_of_ne (clock clock' : Clock) (h : key ≠ key') (approvals : ApprovalTable) :
    (approvals.touch clock' key').current clock key = approvals.current clock key := by
  rw [current, read_of_get?_eq (get?_touch_of_ne clock' h approvals), current]

end ApprovalTable

section Reading

variable (services : BatchServices) (clocks : BatchClocks)

def batchReads : List String → ApprovalTable →
    Except String (List (String × Option ApprovalRequest))
  | [], _ => .ok []
  | approvalId :: approvalIds, approvals =>
    match services.locate approvalId with
    | none => .error "UnsafePathError"
    | some key => do
      let approval ← approvals.current (clocks.reading key) key
      let rest ← batchReads approvalIds approvals
      pure ((key, approval) :: rest)

def keysRead : List String → ApprovalTable → List String
  | [], _ => []
  | approvalId :: approvalIds, approvals =>
    match services.locate approvalId with
    | none => []
    | some key =>
      match approvals.current (clocks.reading key) key with
      | .error _ => []
      | .ok _ => key :: keysRead approvalIds approvals

def touchAll (keys : List String) (approvals : ApprovalTable) : ApprovalTable :=
  keys.foldl (fun approvals key => approvals.touch (clocks.reading key) key) approvals

variable {services clocks}

theorem current_reading_touch (key key' : String) (approvals : ApprovalTable) :
    (approvals.touch (clocks.reading key') key').current (clocks.reading key) key =
      approvals.current (clocks.reading key) key := by
  by_cases hkey : key = key'
  · subst hkey
    exact ApprovalTable.current_touch _ _ _ _
  · exact ApprovalTable.current_touch_of_ne _ _ hkey _

theorem batchReads_touch (key : String) (approvalIds : List String) (approvals : ApprovalTable) :
    batchReads services clocks approvalIds (approvals.touch (clocks.reading key) key) =
      batchReads services clocks approvalIds approvals := by
  induction approvalIds with
  | nil => rfl
  | cons approvalId approvalIds ih =>
    rw [batchReads, batchReads]
    simp only [current_reading_touch, ih]

theorem keysRead_touch (key : String) (approvalIds : List String) (approvals : ApprovalTable) :
    keysRead services clocks approvalIds (approvals.touch (clocks.reading key) key) =
      keysRead services clocks approvalIds approvals := by
  induction approvalIds with
  | nil => rfl
  | cons approvalId approvalIds ih =>
    rw [keysRead, keysRead]
    simp only [current_reading_touch, ih]

theorem run_readBatch (approvalIds : List String) (approvals : ApprovalTable) :
    (readBatch services clocks approvalIds).run approvalHandler approvals =
      (batchReads services clocks approvalIds approvals,
        touchAll clocks (keysRead services clocks approvalIds approvals) approvals) := by
  induction approvalIds generalizing approvals with
  | nil => rfl
  | cons approvalId approvalIds ih =>
    rw [readBatch, batchReads, keysRead]
    cases services.locate approvalId with
    | none => rfl
    | some key =>
      have hget := ApprovalTable.run_getApproval (clocks.reading key) key approvals
      simp only
      cases hcurrent : approvals.current (clocks.reading key) key with
      | error e =>
        rw [hcurrent] at hget
        rw [Program.run_bind_of_error _ (congrArg Prod.fst hget), hget]
        -- The document fails the schema, so reading it wrote nothing.
        have hsame : approvals.touch (clocks.reading key) key = approvals := by
          apply ApprovalTable.touch_of_fresh
          intro approval hread
          rw [ApprovalTable.current, hread] at hcurrent
          cases hcurrent
        rw [hsame]
        rfl
      | ok approval =>
        rw [hcurrent] at hget
        have hrest := ih (approvals.touch (clocks.reading key) key)
        rw [batchReads_touch, keysRead_touch] at hrest
        rw [Program.run_bind_of_ok _ (congrArg Prod.fst hget), hget]
        cases hreads : batchReads services clocks approvalIds approvals with
        | error e =>
          rw [hreads] at hrest
          rw [Program.run_bind_of_error _ (congrArg Prod.fst hrest), hrest]
          rfl
        | ok rest =>
          rw [hreads] at hrest
          rw [Program.run_bind_of_ok _ (congrArg Prod.fst hrest), hrest]
          rfl

variable {approvals : ApprovalTable}

variable {keys : List String}

theorem touchAll_of_fresh (h : ∀ key ∈ keys, approvals.Fresh (clocks.reading key) key) :
    touchAll clocks keys approvals = approvals := by
  induction keys with
  | nil => rfl
  | cons key keys ih =>
    rw [forall_mem_cons] at h
    rw [touchAll, foldl_cons, ApprovalTable.touch_of_fresh h.1]
    exact ih h.2

theorem eventCount_le_touchAll (key : String) (keys : List String) (approvals : ApprovalTable) :
    approvals.eventCount key ≤ (touchAll clocks keys approvals).eventCount key := by
  induction keys generalizing approvals with
  | nil => exact le_refl _
  | cons key' keys ih =>
    have htouch := ApprovalTable.eventCount_le_touch (clocks.reading key') key key' approvals
    exact htouch.trans (ih _)

theorem read_touchAll {key : String} {approval : ApprovalRequest}
    (hread : approvals.read key = .found approval) :
    (touchAll clocks keys approvals).read key =
      .found (if key ∈ keys then approval.seen (clocks.reading key) else approval) := by
  induction keys generalizing approvals approval with
  | nil =>
    rw [if_neg not_mem_nil]
    exact hread
  | cons key' keys ih =>
    rw [touchAll, foldl_cons]
    by_cases hsame : key = key'
    · subst hsame
      have hseen := ApprovalTable.read_touch_self (clocks.reading key) hread
      have hrest := ih hseen
      rw [touchAll] at hrest
      rw [hrest]
      simp
    · have hget := ApprovalTable.get?_touch_of_ne (clocks.reading key') hsame approvals
      have hrest := ih ((ApprovalTable.read_of_get?_eq hget).trans hread)
      rw [touchAll] at hrest
      rw [hrest]
      simp [hsame]

theorem eventCount_lt_touchAll {key : String} (hkey : key ∈ keys)
    (hlapsed : ¬approvals.Fresh (clocks.reading key) key) :
    approvals.eventCount key < (touchAll clocks keys approvals).eventCount key := by
  induction keys generalizing approvals with
  | nil => simp at hkey
  | cons key' keys ih =>
    rw [touchAll, foldl_cons]
    by_cases hsame : key = key'
    · subst hsame
      have htouch := ApprovalTable.eventCount_lt_touch hlapsed
      exact htouch.trans_le (eventCount_le_touchAll key keys _)
    · have hmem : key ∈ keys := by simpa [hsame] using hkey
      have hstill : ¬(approvals.touch (clocks.reading key') key').Fresh (clocks.reading key)
          key := by
        have hget := ApprovalTable.get?_touch_of_ne (clocks.reading key') hsame approvals
        rw [ApprovalTable.Fresh, ApprovalTable.read_of_get?_eq hget]
        exact hlapsed
      have htouch := ApprovalTable.eventCount_le_touch (clocks.reading key') key key' approvals
      exact htouch.trans_lt (ih hmem hstill)

variable (services clocks) in
/-- What a batch selects, or why it is refused before anything is decided. -/
def selection (safeOnly : Bool) (approvalIds : List String) (approvals : ApprovalTable) :
    Except String (List (String × ApprovalRequest)) :=
  if uniqueIds services approvalIds = [] then .error "no_approvals_selected"
  else batchReads services clocks (uniqueIds services approvalIds) approvals >>=
    checkBatch services safeOnly

theorem run_selectBatch (safeOnly : Bool) (approvalIds : List String) (approvals : ApprovalTable) :
    (selectBatch services clocks safeOnly approvalIds).run approvalHandler approvals =
      (selection services clocks safeOnly approvalIds approvals,
        touchAll clocks (keysRead services clocks (uniqueIds services approvalIds) approvals)
          approvals) := by
  rw [selectBatch, selection]
  by_cases hnone : uniqueIds services approvalIds = []
  · rw [if_pos hnone, if_pos hnone, hnone]
    rfl
  rw [if_neg hnone, if_neg hnone]
  have hreads := @run_readBatch services clocks (uniqueIds services approvalIds) approvals
  cases hbatch : batchReads services clocks (uniqueIds services approvalIds) approvals with
  | error e =>
    rw [hbatch] at hreads
    rw [Program.run_bind_of_error _ (congrArg Prod.fst hreads), hreads]
    rfl
  | ok reads =>
    rw [hbatch] at hreads
    rw [Program.run_bind_of_ok _ (congrArg Prod.fst hreads), hreads]
    change Program.run _ (match checkBatch services safeOnly reads with
      | .error reason => .raise reason
      | .ok real => pure real) _ = (checkBatch services safeOnly reads, _)
    cases checkBatch services safeOnly reads <;> rfl

end Reading

/-- The approval can still be decided at the clock. -/
def ApprovalTable.Open (clock : Clock) (key : String) (approval : ApprovalRequest)
    (approvals : ApprovalTable) : Prop :=
  approvals.read key = .found approval ∧ approval.status = .pending ∧
    isExpired clock approval.expiresAt = false

section Deciding

variable {services : ApprovalServices} {clock : Clock} {key : String}
  {decision : ApprovalDecision} {approvals : ApprovalTable} {approval : ApprovalRequest}

/-- The approvals after one was decided. -/
structure Decides (key : String) (approval : ApprovalRequest) (before after : ApprovalTable) :
    Prop where
  stored : after.read key = .found approval
  /-- The other approvals are as they were. -/
  frame : ∀ key', key' ≠ key → after.get? key' = before.get? key'
  recorded : before.eventCount key < after.eventCount key

theorem Decides.appendEvent {before after : ApprovalTable} (h : Decides key approval before after)
    (e : ApprovalEvent) : Decides key approval before (after.appendEvent key e) where
  stored := ApprovalTable.read_appendEvent_of_found h.stored e
  frame key' hne := (ApprovalTable.get?_appendEvent_of_ne hne e after).trans (h.frame key' hne)
  recorded := h.recorded.trans_le (ApprovalTable.eventCount_le_appendEvent key key e after)

theorem decides_save (key : String) (approval : ApprovalRequest) (e : ApprovalEvent)
    (approvals : ApprovalTable) :
    Decides key approval approvals ((approvals.save key approval).appendEvent key e) where
  stored := ApprovalTable.read_appendEvent_of_found (ApprovalTable.read_save_self _ _ _) e
  frame key' hne := by
    rw [ApprovalTable.get?_appendEvent_of_ne hne, ApprovalTable.get?_save_of_ne hne]
  recorded := by simp

variable (services decision) in
theorem run_decideApproval_of_open (h : approvals.Open clock key approval) :
    ∃ after, (decideApproval services clock key decision).run approvalHandler approvals =
        (.ok (approval.decided clock.now decision), after) ∧
      Decides key (approval.decided clock.now decision) approvals after := by
  obtain ⟨hread, hstatus, hexpired⟩ := h
  have hnot : approval.isLapsed clock = false := by simp [ApprovalRequest.isLapsed, hexpired]
  have hget := ApprovalTable.run_getApproval clock key approvals
  rw [ApprovalTable.current, ApprovalTable.touch, hread] at hget
  simp only [ApprovalRequest.seen, hnot, Bool.false_eq_true, if_false] at hget
  rw [decideApproval, Program.run_bind_of_ok _ (congrArg Prod.fst hget), hget]
  simp only [hstatus, hexpired, ne_eq, not_true_eq_false, if_false, Bool.false_eq_true]
  by_cases hbridge : (approval.decided clock.now decision).approvalScope = "future_artifact_write" ∧
      services.bridgeFails (approval.decided clock.now decision) = true
  · rw [if_pos hbridge]
    exact ⟨_, rfl, (decides_save key _ _ approvals).appendEvent _⟩
  · rw [if_neg hbridge]
    exact ⟨_, rfl, decides_save key _ _ approvals⟩

variable (services clock decision) in
theorem run_decideApproval_of_settled (hread : approvals.read key = .found approval)
    (hstatus : approval.status ≠ .pending) :
    (decideApproval services clock key decision).run approvalHandler approvals =
      (.error "approval_not_pending", approvals) := by
  have hnot : approval.isLapsed clock = false := by simp [ApprovalRequest.isLapsed, hstatus]
  have hget := ApprovalTable.run_getApproval clock key approvals
  rw [ApprovalTable.current, ApprovalTable.touch, hread] at hget
  simp only [ApprovalRequest.seen, hnot, Bool.false_eq_true, if_false] at hget
  rw [decideApproval, Program.run_bind_of_ok _ (congrArg Prod.fst hget), hget]
  simp [hstatus]

theorem open_of_run_decideApproval {result : ApprovalRequest}
    (h : ((decideApproval services clock key decision).run approvalHandler approvals).1 =
      .ok result) : ∃ approval, approvals.Open clock key approval := by
  have hget := ApprovalTable.run_getApproval clock key approvals
  cases hread : approvals.read key with
  | missing =>
    rw [ApprovalTable.current, hread] at hget
    rw [decideApproval, Program.run_bind_of_ok _ (congrArg Prod.fst hget)] at h
    cases h
  | invalid =>
    rw [ApprovalTable.current, hread] at hget
    rw [decideApproval, Program.run_bind_of_error _ (congrArg Prod.fst hget)] at h
    cases h
  | found approval =>
    by_cases hstatus : approval.status = .pending
    · refine ⟨approval, hread, hstatus, ?_⟩
      by_contra hexpired
      rw [Bool.not_eq_false] at hexpired
      have hlapsed : approval.isLapsed clock = true := by
        simp [ApprovalRequest.isLapsed, hstatus, hexpired]
      rw [ApprovalTable.current, hread] at hget
      simp only [ApprovalRequest.seen, hlapsed, if_true] at hget
      rw [decideApproval, Program.run_bind_of_ok _ (congrArg Prod.fst hget)] at h
      simp [ApprovalRequest.expire] at h
    · rw [run_decideApproval_of_settled services clock decision hread hstatus] at h
      cases h

variable (services clock decision) in
theorem eventCount_lt_decideApproval (hread : approvals.read key = .found approval)
    (hstatus : approval.status = .pending) :
    approvals.eventCount key <
      ((decideApproval services clock key decision).run approvalHandler approvals).2.eventCount
        key := by
  by_cases hexpired : isExpired clock approval.expiresAt = true
  · have hlapsed : approval.isLapsed clock = true := by
      simp [ApprovalRequest.isLapsed, hstatus, hexpired]
    have hfresh : ¬approvals.Fresh clock key := by
      intro hfresh
      rw [hfresh approval hread] at hlapsed
      cases hlapsed
    have hget := ApprovalTable.run_getApproval clock key approvals
    rw [ApprovalTable.current, hread] at hget
    rw [decideApproval, Program.run_bind_of_ok _ (congrArg Prod.fst hget), hget]
    have htouch := ApprovalTable.eventCount_lt_touch hfresh
    exact htouch.trans_le (ApprovalTable.eventCount_le_run _ key _)
  · have hopen : approvals.Open clock key approval := ⟨hread, hstatus, by simpa using hexpired⟩
    obtain ⟨after, hrun, hdecides⟩ := run_decideApproval_of_open services decision hopen
    rw [hrun]
    exact hdecides.recorded

end Deciding

section Each

variable {services : BatchServices} {clocks : BatchClocks} {decision : ApprovalDecision}

def ApprovalTable.Ready (services : BatchServices) (clocks : BatchClocks) (key : String)
    (approval : ApprovalRequest) (approvals : ApprovalTable) : Prop :=
  approvals.Open (clocks.deciding key) key approval ∧
    services.draftFails (approval.text "draft_id") = false

variable {approvals : ApprovalTable}

theorem ApprovalTable.Ready.of_get?_eq {key : String} {approval : ApprovalRequest}
    {approvals' : ApprovalTable} (h : approvals'.get? key = approvals.get? key)
    (hready : approvals.Ready services clocks key approval) :
    approvals'.Ready services clocks key approval := by
  refine ⟨⟨?_, hready.1.2⟩, hready.2⟩
  rw [ApprovalTable.read_of_get?_eq h]
  exact hready.1.1

theorem ApprovalRequest.text_decided (now : String) (approval : ApprovalRequest) (name : String) :
    (approval.decided now decision).text name = approval.text name := rfl

variable (decision) in
theorem run_decideEach_of_ready {keys : List String} (hnodup : keys.Nodup)
    (hready : ∀ key ∈ keys, ∃ approval, approvals.Ready services clocks key approval) :
    ∃ results after, (decideEach services clocks decision keys).run approvalHandler approvals =
        (.ok results, after) ∧
      (∀ key ∈ keys, ∀ approval, approvals.read key = .found approval →
        after.read key = .found (approval.decided (clocks.deciding key).now decision)) ∧
      ∀ key, key ∉ keys → after.get? key = approvals.get? key := by
  induction keys generalizing approvals with
  | nil => exact ⟨[], approvals, rfl, by simp, fun _ _ => rfl⟩
  | cons key keys ih =>
    rw [nodup_cons] at hnodup
    rw [forall_mem_cons] at hready
    obtain ⟨⟨approval, hopen, hdraft⟩, hrest⟩ := hready
    obtain ⟨middle, hrun, hdecides⟩ :=
      run_decideApproval_of_open services.toApprovalServices decision hopen
    -- The first decision leaves the other approvals as they are.
    have hrest' : ∀ key' ∈ keys, ∃ approval, middle.Ready services clocks key' approval := by
      intro key' hkey'
      obtain ⟨approval', hready'⟩ := hrest key' hkey'
      have hne : key' ≠ key := by
        rintro rfl
        exact hnodup.1 hkey'
      exact ⟨approval', hready'.of_get?_eq (hdecides.frame key' hne)⟩
    obtain ⟨results, after, heach, hdecided, hframe⟩ := ih hnodup.2 hrest'
    refine ⟨(key, approval.decided (clocks.deciding key).now decision) :: results, after, ?_, ?_,
      ?_⟩
    · rw [decideEach, Program.run_bind_of_ok _ (congrArg Prod.fst hrun), hrun]
      rw [ApprovalRequest.text_decided, hdraft, if_neg (by simp),
        Program.run_bind_of_ok _ (congrArg Prod.fst heach), heach]
      rfl
    · intro key' hkey' approval' hread'
      rcases mem_cons.mp hkey' with rfl | hmem
      · rw [hopen.1, ApprovalRead.found.injEq] at hread'
        subst hread'
        rw [ApprovalTable.read_of_get?_eq (hframe key' hnodup.1)]
        exact hdecides.stored
      · have hne : key' ≠ key := by
          rintro rfl
          exact hnodup.1 hmem
        apply hdecided key' hmem
        rw [ApprovalTable.read_of_get?_eq (hdecides.frame key' hne)]
        exact hread'
    · intro key' hkey'
      rw [mem_cons, not_or] at hkey'
      rw [hframe key' hkey'.2, hdecides.frame key' hkey'.1]

theorem ready_of_run_decideEach {keys : List String} {results : List (String × ApprovalRequest)}
    (h : ((decideEach services clocks decision keys).run approvalHandler approvals).1 =
      .ok results) :
    keys.Nodup ∧ ∀ key ∈ keys, ∃ approval, approvals.Ready services clocks key approval := by
  induction keys generalizing approvals results with
  | nil => exact ⟨nodup_nil, by simp⟩
  | cons key keys ih =>
    rw [decideEach] at h
    cases hfirst : ((decideApproval services.toApprovalServices (clocks.deciding key) key
        decision).run approvalHandler approvals).1 with
    | error e =>
      rw [Program.run_bind_of_error _ hfirst] at h
      cases h
    | ok decided =>
      obtain ⟨approval, hopen⟩ := open_of_run_decideApproval hfirst
      obtain ⟨middle, hrun, hdecides⟩ :=
        run_decideApproval_of_open services.toApprovalServices decision hopen
      rw [Program.run_bind_of_ok _ hfirst] at h
      rw [hrun] at h hfirst
      obtain rfl := Except.ok.inj hfirst
      rw [ApprovalRequest.text_decided] at h
      cases hdraft : services.draftFails (approval.text "draft_id") with
      | true =>
        rw [hdraft, if_pos rfl] at h
        cases h
      | false =>
        rw [hdraft, if_neg (by simp)] at h
        cases hrest : ((decideEach services clocks decision keys).run approvalHandler middle).1 with
        | error e =>
          rw [Program.run_bind_of_error _ hrest] at h
          cases h
        | ok rest =>
          obtain ⟨hnodup, hready⟩ := ih hrest
          -- The first approval is not pending any more.
          have hnotMem : key ∉ keys := by
            intro hkey
            obtain ⟨again, ⟨hread, hstatus, -⟩, -⟩ := hready key hkey
            rw [hdecides.stored, ApprovalRead.found.injEq] at hread
            subst hread
            cases decision <;> cases hstatus
          refine ⟨nodup_cons.mpr ⟨hnotMem, hnodup⟩, ?_⟩
          rw [forall_mem_cons]
          refine ⟨⟨approval, hopen, hdraft⟩, fun key' hkey' => ?_⟩
          obtain ⟨approval', hready'⟩ := hready key' hkey'
          have hne : key' ≠ key := by
            rintro rfl
            exact hnotMem hkey'
          exact ⟨approval', hready'.of_get?_eq (hdecides.frame key' hne).symm⟩

theorem run_recordBatch (results : List (String × ApprovalRequest)) (approvals : ApprovalTable) :
    ∃ after, (recordBatch clocks decision results).run approvalHandler approvals = (.ok (), after) ∧
      ∀ key approval, approvals.read key = .found approval → after.read key = .found approval := by
  induction results generalizing approvals with
  | nil => exact ⟨approvals, rfl, fun _ _ h => h⟩
  | cons result results ih =>
    obtain ⟨after, hrun, hafter⟩ := ih (approvals.appendEvent result.1
      ⟨decision.batchEvent, clocks.recording result.1,
        "Decisao em lote registrada para approval governado."⟩)
    refine ⟨after, hrun, fun key approval hread => hafter key approval ?_⟩
    by_cases hkey : key = result.1
    · subst hkey
      exact ApprovalTable.read_appendEvent_of_found hread _
    · rw [ApprovalTable.read_of_get?_eq (ApprovalTable.get?_appendEvent_of_ne hkey _ _)]
      exact hread

end Each

section Batch

variable (services : BatchServices) (clocks : BatchClocks) (decision : ApprovalDecision)
  (safeOnly : Bool) (approvalIds : List String) (approvals : ApprovalTable)

def BatchDecided (after : ApprovalTable) : Prop :=
  ∀ approvalId ∈ uniqueIds services approvalIds, ∃ key approval,
    services.locate approvalId = some key ∧ approvals.read key = .found approval ∧
      after.read key = .found (approval.decided (clocks.deciding key).now decision)

/-- A batch decides every listed approval, or raises and leaves all documents and all logs as
they were. -/
def AllOrNothing : Prop :=
  let outcome := (decideBatch services clocks decision safeOnly approvalIds).run approvalHandler
    approvals
  (∃ results, outcome.1 = .ok results ∧
    BatchDecided services clocks decision approvalIds approvals outcome.2) ∨
  (∃ e, outcome.1 = .error e) ∧ outcome.2 = approvals

/-- No approval that the batch reads has lapsed at its reading. -/
def NoneLapsed : Prop :=
  ∀ key ∈ keysRead services clocks (uniqueIds services approvalIds) approvals,
    approvals.Fresh (clocks.reading key) key

/-- The selected approvals stand or fall together: the first one has been decided before, or
all of them can be decided and no two identifiers lead to the same one. -/
def Uniform (real : List (String × ApprovalRequest)) : Prop :=
  (∃ first ∈ real.head?, first.2.status ≠ .pending) ∨
  (real.map Prod.fst).Nodup ∧ ∀ entry ∈ real, entry.2.status = .pending ∧
    isExpired (clocks.deciding entry.1) entry.2.expiresAt = false ∧
      services.draftFails (entry.2.text "draft_id") = false

variable {services clocks decision safeOnly approvalIds approvals}

def Selects (services : BatchServices) (clocks : BatchClocks) (approvals : ApprovalTable)
    (approvalId : String) (entry : String × ApprovalRequest) : Prop :=
  services.locate approvalId = some entry.1 ∧
    approvals.current (clocks.reading entry.1) entry.1 = .ok (some entry.2)

variable {ids : List String}

theorem selects_of_batchReads {reads : List (String × Option ApprovalRequest)}
    (h : batchReads services clocks ids approvals = .ok reads)
    (hall : reads.any (·.2.isNone) = false) :
    List.Forall₂ (Selects services clocks approvals) ids (present reads) ∧
      keysRead services clocks ids approvals = (present reads).map Prod.fst := by
  induction ids generalizing reads with
  | nil =>
    obtain rfl := Except.ok.inj h
    exact ⟨.nil, rfl⟩
  | cons approvalId ids ih =>
    rw [batchReads] at h
    cases hlocate : services.locate approvalId with
    | none =>
      rw [hlocate] at h
      cases h
    | some key =>
      cases hcurrent : approvals.current (clocks.reading key) key with
      | error e =>
        simp only [hlocate, hcurrent] at h
        cases h
      | ok approval =>
        cases hrest : batchReads services clocks ids approvals with
        | error e =>
          simp only [hlocate, hcurrent, hrest] at h
          cases h
        | ok rest =>
          simp only [hlocate, hcurrent, hrest] at h
          obtain rfl := Except.ok.inj h
          rw [any_cons, Bool.or_eq_false_iff] at hall
          cases approval with
          | none => simp at hall
          | some approval =>
            obtain ⟨hselects, hkeys⟩ := ih hrest hall.2
            refine ⟨.cons ⟨hlocate, hcurrent⟩ hselects, ?_⟩
            rw [keysRead]
            simp only [hlocate, hcurrent, hkeys]
            rfl

variable {real : List (String × ApprovalRequest)} {entry : String × ApprovalRequest}

theorem selects_of_selection
    (h : selection services clocks safeOnly approvalIds approvals = .ok real) :
    uniqueIds services approvalIds ≠ [] ∧
      List.Forall₂ (Selects services clocks approvals) (uniqueIds services approvalIds) real ∧
      keysRead services clocks (uniqueIds services approvalIds) approvals = real.map Prod.fst := by
  rw [selection] at h
  split at h
  · cases h
  · rename_i hsome
    refine ⟨hsome, ?_⟩
    cases hreads : batchReads services clocks (uniqueIds services approvalIds) approvals with
    | error e =>
      rw [hreads] at h
      cases h
    | ok reads =>
      rw [hreads] at h
      change checkBatch services safeOnly reads = .ok real at h
      rw [checkBatch] at h
      split at h
      · cases h
      · rename_i hall
        split at h
        · cases h
        · obtain rfl := Except.ok.inj h
          exact selects_of_batchReads hreads (eq_false_of_ne_true hall)

theorem Selects.read {approvalId : String}
    (h : Selects services clocks approvals approvalId entry)
    (hfresh : approvals.Fresh (clocks.reading entry.1) entry.1) :
    approvals.read entry.1 = .found entry.2 := by
  have hcurrent := h.2
  rw [ApprovalTable.current] at hcurrent
  cases hread : approvals.read entry.1 with
  | missing | invalid => simp [hread] at hcurrent
  | found approval =>
    have hnot := hfresh approval hread
    simp only [hread, ApprovalRequest.seen, hnot, Bool.false_eq_true, if_false,
      Except.ok.injEq, Option.some.injEq] at hcurrent
    rw [hcurrent]

theorem exists_selects_of_mem (h : List.Forall₂ (Selects services clocks approvals) ids real)
    (hentry : entry ∈ real) : ∃ approvalId, Selects services clocks approvals approvalId entry := by
  induction h with
  | nil => simp at hentry
  | cons hfirst _ ih =>
    rcases mem_cons.mp hentry with rfl | hmem
    · exact ⟨_, hfirst⟩
    · exact ih hmem

theorem read_of_selected (hselects : List.Forall₂ (Selects services clocks approvals) ids real)
    (hfresh : ∀ key ∈ real.map Prod.fst, approvals.Fresh (clocks.reading key) key)
    (hentry : entry ∈ real) : approvals.read entry.1 = .found entry.2 := by
  obtain ⟨approvalId, hentrySelects⟩ := exists_selects_of_mem hselects hentry
  exact hentrySelects.read (hfresh entry.1 (mem_map_of_mem hentry))

theorem run_decideBatch_of_refused {e : String}
    (h : selection services clocks safeOnly approvalIds approvals = .error e) :
    (decideBatch services clocks decision safeOnly approvalIds).run approvalHandler approvals =
      (.error e, touchAll clocks
        (keysRead services clocks (uniqueIds services approvalIds) approvals) approvals) := by
  have hselect := @run_selectBatch services clocks safeOnly approvalIds approvals
  rw [h] at hselect
  rw [decideBatch, Program.run_bind_of_error _ (congrArg Prod.fst hselect), hselect]

theorem run_decideBatch_of_selected
    (h : selection services clocks safeOnly approvalIds approvals = .ok real) :
    (decideBatch services clocks decision safeOnly approvalIds).run approvalHandler approvals =
      (decideEach services clocks decision (real.map Prod.fst) >>= fun results =>
        recordBatch clocks decision results >>= fun _ => pure results).run approvalHandler
        (touchAll clocks (real.map Prod.fst) approvals) := by
  have hselect := @run_selectBatch services clocks safeOnly approvalIds approvals
  rw [h, (selects_of_selection h).2.2] at hselect
  rw [decideBatch, Program.run_bind_of_ok _ (congrArg Prod.fst hselect), hselect]

theorem ready_of_decideBatch {results : List (String × ApprovalRequest)}
    (h : ((decideBatch services clocks decision safeOnly approvalIds).run approvalHandler
      approvals).1 = .ok results) :
    ∃ real, selection services clocks safeOnly approvalIds approvals = .ok real ∧
      (real.map Prod.fst).Nodup ∧ ∀ entry ∈ real, ∃ approval,
        (touchAll clocks (real.map Prod.fst) approvals).Ready services clocks entry.1 approval := by
  cases hselection : selection services clocks safeOnly approvalIds approvals with
  | error e =>
    rw [run_decideBatch_of_refused hselection] at h
    cases h
  | ok real =>
    refine ⟨real, rfl, ?_⟩
    rw [run_decideBatch_of_selected hselection] at h
    cases heach : ((decideEach services clocks decision (real.map Prod.fst)).run approvalHandler
        (touchAll clocks (real.map Prod.fst) approvals)).1 with
    | error e =>
      rw [Program.run_bind_of_error _ heach] at h
      cases h
    | ok rest =>
      obtain ⟨hnodup, hready⟩ := ready_of_run_decideEach heach
      refine ⟨hnodup, fun entry hentry => hready entry.1 ?_⟩
      exact mem_map_of_mem hentry

theorem exists_entry_of_mem (h : List.Forall₂ (Selects services clocks approvals) ids real)
    {approvalId : String} (hid : approvalId ∈ ids) :
    ∃ entry ∈ real, Selects services clocks approvals approvalId entry := by
  induction h with
  | nil => simp at hid
  | cons hfirst _ ih =>
    rcases mem_cons.mp hid with rfl | hmem
    · exact ⟨_, mem_cons_self, hfirst⟩
    · obtain ⟨entry, hentry, hselects⟩ := ih hmem
      exact ⟨entry, mem_cons_of_mem _ hentry, hselects⟩

/-- If a batch is all or nothing, then nothing it reads has lapsed: the lapsed approval would
be written as expired and could not be decided. -/
theorem AllOrNothing.noneLapsed
    (h : AllOrNothing services clocks decision safeOnly approvalIds approvals) :
    NoneLapsed services clocks approvalIds approvals := by
  intro key hkey
  by_contra hlapsed
  have hcount := eventCount_lt_touchAll hkey hlapsed
  rcases h with ⟨results, hok, -⟩ | ⟨-, hsame⟩
  · obtain ⟨real, hselection, -, hready⟩ := ready_of_decideBatch hok
    rw [(selects_of_selection hselection).2.2] at hkey
    obtain ⟨entry, hentry, rfl⟩ := mem_map.mp hkey
    obtain ⟨approval, ⟨hread, hstatus, -⟩, -⟩ := hready entry hentry
    rw [ApprovalTable.Fresh] at hlapsed
    push Not at hlapsed
    obtain ⟨old, hold, hlapsed⟩ := hlapsed
    rw [read_touchAll hold, if_pos hkey, ApprovalRead.found.injEq] at hread
    subst hread
    rw [Bool.ne_false_iff] at hlapsed
    rw [ApprovalRequest.seen, if_pos hlapsed] at hstatus
    cases hstatus
  · cases hselection : selection services clocks safeOnly approvalIds approvals with
    | error e =>
      rw [run_decideBatch_of_refused hselection] at hsame
      rw [show touchAll clocks _ approvals = approvals from hsame] at hcount
      exact lt_irrefl _ hcount
    | ok real =>
      rw [run_decideBatch_of_selected hselection] at hsame
      rw [(selects_of_selection hselection).2.2] at hcount
      have hle := ApprovalTable.eventCount_le_run (decideEach services clocks decision
        (real.map Prod.fst)) key (touchAll clocks (real.map Prod.fst) approvals)
      have hafter := ApprovalTable.eventCount_le_of_bind hsame key
      omega

/-- If a batch is all or nothing, then what it selected stands or falls together. -/
theorem AllOrNothing.uniform
    (h : AllOrNothing services clocks decision safeOnly approvalIds approvals)
    (hselection : selection services clocks safeOnly approvalIds approvals = .ok real) :
    Uniform services clocks real := by
  obtain ⟨hsome, hselects, hkeys⟩ := selects_of_selection hselection
  have hfresh : ∀ key ∈ real.map Prod.fst, approvals.Fresh (clocks.reading key) key := by
    rw [← hkeys]
    exact h.noneLapsed
  have hread : ∀ entry ∈ real, approvals.read entry.1 = .found entry.2 :=
    fun _ => read_of_selected hselects hfresh
  rcases h with ⟨results, hok, -⟩ | ⟨-, hsame⟩
  · obtain ⟨real', hselection', hnodup, hready⟩ := ready_of_decideBatch hok
    rw [hselection, Except.ok.injEq] at hselection'
    subst hselection'
    rw [touchAll_of_fresh hfresh] at hready
    refine Or.inr ⟨hnodup, fun entry hentry => ?_⟩
    obtain ⟨approval, ⟨hfound, hstatus, hexpired⟩, hdraft⟩ := hready entry hentry
    rw [hread entry hentry, ApprovalRead.found.injEq] at hfound
    rw [hfound]
    exact ⟨hstatus, hexpired, hdraft⟩
  · rw [run_decideBatch_of_selected hselection, touchAll_of_fresh hfresh] at hsame
    cases real with
    | nil =>
      exact absurd (forall₂_nil_right_iff.mp hselects) hsome
    | cons first rest =>
      refine Or.inl ⟨first, rfl, fun hstatus => ?_⟩
      -- A pending approval that comes first is written.
      have hcount := eventCount_lt_decideApproval services.toApprovalServices
        (clocks.deciding first.1) decision (hread first mem_cons_self) hstatus
      rw [map_cons, decideEach, Program.bind_assoc] at hsame
      have hafter := ApprovalTable.eventCount_le_of_bind hsame first.1
      exact absurd (hcount.trans_le hafter) (lt_irrefl _)

/-- A batch is all or nothing exactly if nothing it reads has lapsed and what passes its checks
stands or falls together. -/
theorem batch_atomic_iff : AllOrNothing services clocks decision safeOnly approvalIds approvals ↔
      NoneLapsed services clocks approvalIds approvals ∧
      ∀ real, selection services clocks safeOnly approvalIds approvals = .ok real →
        Uniform services clocks real := by
  constructor
  · intro h
    exact ⟨h.noneLapsed, fun real hselection => h.uniform hselection⟩
  rintro ⟨hfresh, huniform⟩
  rw [AllOrNothing]
  cases hselection : selection services clocks safeOnly approvalIds approvals with
  | error e =>
    rw [run_decideBatch_of_refused hselection, touchAll_of_fresh hfresh]
    exact Or.inr ⟨⟨e, rfl⟩, rfl⟩
  | ok real =>
    obtain ⟨-, hselects, hkeys⟩ := selects_of_selection hselection
    rw [NoneLapsed, hkeys] at hfresh
    have hread : ∀ entry ∈ real, approvals.read entry.1 = .found entry.2 :=
      fun _ => read_of_selected hselects hfresh
    rw [run_decideBatch_of_selected hselection, touchAll_of_fresh hfresh]
    rcases huniform real hselection with ⟨first, hfirst, hstatus⟩ | ⟨hnodup, hopen⟩
    · obtain ⟨rest, rfl⟩ := head?_eq_some_iff.mp hfirst
      have hrefused := run_decideApproval_of_settled services.toApprovalServices
        (clocks.deciding first.1) decision (hread first mem_cons_self) hstatus
      refine Or.inr ?_
      rw [map_cons, decideEach, Program.bind_assoc,
        Program.run_bind_of_error _ (congrArg Prod.fst hrefused), hrefused]
      exact ⟨⟨_, rfl⟩, rfl⟩
    · have hready : ∀ key ∈ real.map Prod.fst, ∃ approval,
          approvals.Ready services clocks key approval := by
        intro key hkey
        obtain ⟨entry, hentry, rfl⟩ := mem_map.mp hkey
        obtain ⟨hstatus, hexpired, hdraft⟩ := hopen entry hentry
        exact ⟨entry.2, ⟨hread entry hentry, hstatus, hexpired⟩, hdraft⟩
      obtain ⟨results, middle, heach, hdecided, -⟩ := run_decideEach_of_ready decision hnodup hready
      obtain ⟨after, hrecord, hkept⟩ := @run_recordBatch clocks decision results middle
      refine Or.inl ⟨results, ?_, ?_⟩
      · rw [Program.run_bind_of_ok _ (congrArg Prod.fst heach), heach,
          Program.run_bind_of_ok _ (congrArg Prod.fst hrecord)]
        rfl
      · intro approvalId hid
        obtain ⟨entry, hentry, hselect⟩ := exists_entry_of_mem hselects hid
        refine ⟨entry.1, entry.2, hselect.1, hread entry hentry, ?_⟩
        rw [Program.run_bind_of_ok _ (congrArg Prod.fst heach), heach,
          Program.run_bind_of_ok _ (congrArg Prod.fst hrecord), hrecord]
        have hkey : entry.1 ∈ real.map Prod.fst := mem_map_of_mem hentry
        exact hkept _ _ (hdecided entry.1 hkey entry.2 (hread entry hentry))

end Batch

def waiting : ApprovalRequest :=
  ⟨.pending, "single_action", "later", "t0", "not_executed", "AIpinho", []⟩

def waitingAndApproved : ApprovalTable :=
  ⟨[("approval_1", ⟨some waiting, []⟩),
    ("approval_2", ⟨some { waiting with status := .approved }, []⟩)], by decide⟩

def beforeLapse : BatchClocks :=
  ⟨fun _ => ⟨"t1", fun _ => some (-1)⟩, fun _ => ⟨"t1", fun _ => some (-1)⟩, fun _ => "t2"⟩

/-- Identifiers without surrounding space, each the name of a file of its own. -/
def plainNames : BatchServices := ⟨⟨fun _ => false⟩, id, some, [], fun _ => false⟩

/-- `approve_batch` raises at the second approval and leaves the first one approved. -/
theorem batch_half_approved :
    ((approveBatch plainNames beforeLapse false ["approval_1", "approval_2"]).run approvalHandler
      waitingAndApproved).1 = .error "approval_not_pending" ∧
    ((approveBatch plainNames beforeLapse false ["approval_1", "approval_2"]).run approvalHandler
      waitingAndApproved).2.read "approval_1" = .found (waiting.decided "t1" .approved) ∧
    ¬AllOrNothing plainNames beforeLapse .approved false ["approval_1", "approval_2"]
      waitingAndApproved := by
  refine ⟨by decide +kernel, by decide +kernel, fun h => ?_⟩
  have hselection : selection plainNames beforeLapse false ["approval_1", "approval_2"]
      waitingAndApproved = .ok [("approval_1", waiting),
        ("approval_2", { waiting with status := .approved })] := by
    decide +kernel
  rcases h.uniform hselection with ⟨first, hfirst, hstatus⟩ | ⟨-, hopen⟩
  · obtain rfl := Option.some.inj hfirst
    exact hstatus rfl
  · have hsecond := hopen _ (mem_cons_of_mem _ mem_cons_self)
    cases hsecond.1

end AIpinho.Approvals
