import AIpinho.Approvals.Reading
import AIpinho.Grants.MissionScope
import AIpinho.Lib.Runs
import AIpinho.Tools.GovernedRuns

/-!
# Approvals of executions

An execution that names an approval must have the fingerprint that the approval carries. One
without a fingerprint is accepted for any request, and nothing records its use.
-/

namespace AIpinho.Tools

open List Lib
open AIpinho.Approvals (ApprovalDecision ApprovalEvent ApprovalRequest ApprovalServices
  ApprovalTable approvalHandler decideApproval)
open AIpinho.Grants (given)
open AIpinho.Runtime (Clock)

/-- A call of `request_approval`. -/
structure ApprovalCall where
  request : GovernedRequest
  clock : Clock
  found : GovernedFindings
  approvalId : String
  expiresAt : String

/-- A call of `execute`. -/
structure ExecutionCall where
  request : GovernedRequest
  clock : Clock
  found : GovernedFindings
  reclock : Clock
  /-- What is then found besides the approvals. -/
  refound : GovernedFindings
  /-- What its operations are answered, one after the other. -/
  answers : ℕ → (o : GovernedOp) → governedStore.Answer o

/-- What happens to the approvals. -/
inductive GovernedCall
  | requestApproval (call : ApprovalCall)
  | decide (services : ApprovalServices) (clock : Clock) (approvalId : String)
      (decision : ApprovalDecision)
  /-- Another service stores an approval of its own. -/
  | keep (approvalId : String) (approval : ApprovalRequest)
  | execute (call : ExecutionCall)

/-- The approvals, with what has been asked for and used. -/
structure GovernedLedger where
  approvals : ApprovalTable
  /-- The approvals that were asked for, with the fingerprints of their requests. -/
  requested : List (String × String)
  /-- The approvals that were relied on, with the fingerprints of what was executed. -/
  relied : List (String × String)

/-- An approval authorises one execution of one request. -/
structure GovernedLedger.Authorises (ledger : GovernedLedger) : Prop where
  isRequested : ∀ use ∈ ledger.relied, use ∈ ledger.requested
  once : (ledger.relied.map Prod.fst).Nodup

def ExecutionCall.environment (call : ExecutionCall) : Handler governedStore ℕ :=
  fun o n => (call.answers n o, n + 1)

def createdEvent (now : String) : ApprovalEvent :=
  ⟨"approval_created", now,
    "ApprovalRequest criado para execucao governada de tool; nada foi executado."⟩

namespace GovernedToolExecution

variable (service : GovernedToolExecution)

def findingsIn (approvals : ApprovalTable) (clock : Clock) (found : GovernedFindings) :
    GovernedFindings :=
  { found with approval := fun approvalId => approvals.current clock approvalId }

def readNamed (request : GovernedRequest) (clock : Clock) (approvals : ApprovalTable) :
    ApprovalTable :=
  match service.registry request.toolId, given request.approvalId with
  | some _, some approvalId => approvals.touch clock approvalId
  | _, _ => approvals

def exchangesOf (call : ExecutionCall) (approvals : ApprovalTable) : List governedStore.Exchange :=
  (service.execute (findingsIn approvals call.clock call.found)
    (findingsIn (service.readNamed call.request call.clock approvals) call.reclock call.refound)
    call.request).exchanges call.environment 0

def reliances (call : ExecutionCall) (approvals : ApprovalTable) : List (String × String) :=
  if (service.exchangesOf call approvals).any (·.1.carriesOut) then
    ((given call.request.approvalId).map
      (·, service.requestFingerprint call.request)).toList
  else []

def advance (ledger : GovernedLedger) : GovernedCall → GovernedLedger
  | .requestApproval call =>
    let read := service.readNamed call.request call.clock ledger.approvals
    match service.requestApproval (findingsIn ledger.approvals call.clock call.found)
        call.request call.clock.now call.expiresAt with
    | .ok (.required approval) =>
      { ledger with
        approvals := (read.save call.approvalId approval).appendEvent call.approvalId
          (createdEvent call.clock.now)
        requested := ledger.requested ++
          [(call.approvalId, service.requestFingerprint call.request)] }
    | _ => { ledger with approvals := read }
  | .decide services clock approvalId decision =>
    { ledger with
      approvals := ((decideApproval services clock approvalId decision).run approvalHandler
        ledger.approvals).2 }
  | .keep approvalId approval =>
    { ledger with approvals := ledger.approvals.save approvalId approval }
  | .execute call =>
    -- The second reading finds an approval that is approved, and writes nothing.
    { ledger with
      approvals := service.readNamed call.request call.clock ledger.approvals
      relied := ledger.relied ++ service.reliances call ledger.approvals }

/-- The approval that an execution names, if it is one it can rely on, carries a fingerprint
and was not relied on before. The other services write no fingerprint. -/
def IsBound (ledger : GovernedLedger) : GovernedCall → Prop
  | .execute call => ∀ approvalId tool approval, given call.request.approvalId = some approvalId →
      service.registry call.request.toolId = some tool →
        ledger.approvals.read approvalId = .found approval →
          service.approvalErrorOf call.request tool (some approval) = none →
            service.requestHash approval ≠ "" ∧ approvalId ∉ ledger.relied.map Prod.fst
  | .keep _ approval => service.requestHash approval = ""
  | .requestApproval _ | .decide .. => True

/-- Every fingerprint that is stored is that of the request its approval was asked for. -/
def Recorded (ledger : GovernedLedger) : Prop :=
  ∀ approvalId approval, ledger.approvals.read approvalId = .found approval →
    service.requestHash approval ≠ "" →
      (approvalId, service.requestHash approval) ∈ ledger.requested

variable {service}

def KeepsMembers (before after : ApprovalTable) : Prop :=
  ∀ approvalId approval, after.read approvalId = .found approval → ∃ old,
    before.read approvalId = .found old ∧ approval.members = old.members

variable {before after : ApprovalTable} {approvalId : String} {approval : ApprovalRequest}

theorem KeepsMembers.refl (approvals : ApprovalTable) : KeepsMembers approvals approvals :=
  fun _ approval hread => ⟨approval, hread, rfl⟩

theorem KeepsMembers.trans {middle : ApprovalTable} (h : KeepsMembers before middle)
    (h' : KeepsMembers middle after) : KeepsMembers before after := by
  intro approvalId approval hread
  obtain ⟨old, hold, hmembers⟩ := h' approvalId approval hread
  obtain ⟨older, holder, hmembers'⟩ := h approvalId old hold
  exact ⟨older, holder, hmembers.trans hmembers'⟩

theorem keepsMembers_appendEvent (approvalId : String) (e : ApprovalEvent)
    (approvals : ApprovalTable) : KeepsMembers approvals (approvals.appendEvent approvalId e) := by
  intro key approval hread
  by_cases hkey : key = approvalId
  · subst hkey
    refine ⟨approval, ?_, rfl⟩
    unfold ApprovalTable.read at hread ⊢
    unfold ApprovalTable.appendEvent ApprovalTable.filesOf at hread
    rw [Table.get?_insert_self] at hread
    cases hfiles : approvals.get? key with
    | none =>
      rw [hfiles] at hread
      cases hread
    | some files =>
      rw [hfiles] at hread
      exact hread
  · have hsame := ApprovalTable.get?_appendEvent_of_ne hkey e approvals
    rw [ApprovalTable.read_of_get?_eq hsame] at hread
    exact ⟨approval, hread, rfl⟩

variable {old : ApprovalRequest} {approvals : ApprovalTable}

theorem keepsMembers_save (hold : approvals.read approvalId = .found old)
    (hmembers : approval.members = old.members) :
    KeepsMembers approvals (approvals.save approvalId approval) := by
  intro key other hread
  by_cases hkey : key = approvalId
  · subst hkey
    rw [ApprovalTable.read_save_self] at hread
    cases hread
    exact ⟨old, hold, hmembers⟩
  · have hsame := ApprovalTable.get?_save_of_ne hkey approval approvals
    rw [ApprovalTable.read_of_get?_eq hsame] at hread
    exact ⟨other, hread, rfl⟩

theorem keepsMembers_write (hold : approvals.read approvalId = .found old)
    (hmembers : approval.members = old.members) (e : ApprovalEvent) :
    KeepsMembers approvals ((approvals.save approvalId approval).appendEvent approvalId e) :=
  (keepsMembers_save hold hmembers).trans (keepsMembers_appendEvent approvalId e _)

theorem keepsMembers_touch (clock : Clock) (approvalId : String) (approvals : ApprovalTable) :
    KeepsMembers approvals (approvals.touch clock approvalId) := by
  unfold ApprovalTable.touch
  split
  · exact .refl approvals
  · exact .refl approvals
  · rename_i old hold
    split
    · have hmembers : (old.expire clock.now).members = old.members := rfl
      exact keepsMembers_write hold hmembers _
    · exact .refl approvals

theorem keepsMembers_readNamed (request : GovernedRequest) (clock : Clock)
    (approvals : ApprovalTable) :
    KeepsMembers approvals (service.readNamed request clock approvals) := by
  unfold readNamed
  split
  · exact keepsMembers_touch _ _ _
  · exact .refl approvals

theorem keepsMembers_decide (services : ApprovalServices) (clock : Clock) (approvalId : String)
    (decision : ApprovalDecision) (approvals : ApprovalTable) :
    KeepsMembers approvals
      ((decideApproval services clock approvalId decision).run approvalHandler approvals).2 := by
  have hget := ApprovalTable.run_getApproval clock approvalId approvals
  have htouch := keepsMembers_touch clock approvalId approvals
  cases hread : approvals.read approvalId with
  | missing =>
    rw [ApprovalTable.current, hread] at hget
    rw [decideApproval, Program.run_bind_of_ok _ (congrArg Prod.fst hget), hget]
    exact htouch
  | invalid =>
    rw [ApprovalTable.current, hread] at hget
    rw [decideApproval, Program.run_bind_of_error _ (congrArg Prod.fst hget), hget]
    exact htouch
  | found old =>
    have hseen := ApprovalTable.read_touch_self clock hread
    rw [ApprovalTable.current, hread] at hget
    rw [decideApproval, Program.run_bind_of_ok _ (congrArg Prod.fst hget), hget]
    dsimp only
    split
    · exact htouch
    · split
      · have hmembers : ((old.seen clock).expire clock.now).members =
            (old.seen clock).members := rfl
        exact htouch.trans (keepsMembers_write hseen hmembers _)
      · have hmembers : ((old.seen clock).decided clock.now decision).members =
            (old.seen clock).members := rfl
        split
        · exact (htouch.trans (keepsMembers_write hseen hmembers _)).trans
            (keepsMembers_appendEvent _ _ _)
        · exact htouch.trans (keepsMembers_write hseen hmembers _)

theorem requestHash_congr (hmembers : approval.members = old.members) :
    service.requestHash approval = service.requestHash old := by
  unfold requestHash
  rw [hmembers]

theorem requestHash_newApproval (request : GovernedRequest) (tool : GovernedTool)
    (now expiresAt : String) :
    service.requestHash (service.newApproval request tool now expiresAt) =
      service.requestFingerprint request := rfl

theorem exists_newApproval {found : GovernedFindings} {request : GovernedRequest}
    {now expiresAt : String}
    (h : service.requestApproval found request now expiresAt = .ok (.required approval)) :
    ∃ tool, approval = service.newApproval request tool now expiresAt := by
  unfold requestApproval at h
  obtain ⟨decision, -, h⟩ := value_bind_ok_iff.mp h
  split at h
  · rename_i canonical assessment _ _
    split at h
    · cases h
    · split at h
      · cases h
      · exact ⟨assessment.tool, by cases h; rfl⟩
  · cases h

variable {found : GovernedFindings} {request : GovernedRequest}

theorem approvalErrorOf_ne_empty (tool : GovernedTool) (approval : Option ApprovalRequest) :
    service.approvalErrorOf request tool approval ≠ some "" := by
  unfold approvalErrorOf
  cases approval with
  | none => simp
  | some approval =>
    dsimp only
    split
    · simp [String.append_eq_empty_iff]
    · split
      · simp
      · split <;> simp

theorem approvalError_of_allowed {observation : Option GitObservation} {decision : GovernedDecision}
    {tool : GovernedTool} {assessment : Assessment}
    (hallows : Allows service found request observation decision tool assessment) :
    given assessment.approvalError = none := by
  cases herror : given assessment.approvalError with
  | none => rfl
  | some reason =>
    obtain ⟨hreason, -⟩ := Grants.given_eq_some.mp herror
    have hinvalid : assessment.approvalValid request = false := by
      simp [Assessment.approvalValid, hreason]
    have hmem : assessment.denied "human_authority" "approval_service" reason ∈
        service.facets found request assessment := by
      simp [facets, Assessment.humanFacets, hinvalid, herror]
    have hhard := not_denied_of_allowed hallows.permission hmem
    cases hhard

theorem approvalErrorOf_of_allowed {observation : Option GitObservation}
    {decision : GovernedDecision}
    (hdecision : service.decision found request observation = .ok decision)
    (hallowed : decision.canonical.any (·.permission = .allowed) = true)
    (hnamed : given request.approvalId = some approvalId) :
    ∃ tool read, service.registry request.toolId = some tool ∧
      found.approval approvalId = .ok read ∧ service.approvalErrorOf request tool read = none := by
  obtain ⟨tool, assessment, hallows⟩ := exists_allows hdecision hallowed
  have hnone := approvalError_of_allowed hallows
  obtain ⟨shell, error, grant, -, herror, rfl⟩ := assess_ok hallows.isAssessed
  unfold GovernedToolExecution.approvalError at herror
  rw [hnamed] at herror
  dsimp only at herror
  cases hread : found.approval approvalId with
  | error e =>
    rw [hread] at herror
    cases herror
  | ok read =>
    rw [hread] at herror
    have hcheck : service.approvalErrorOf request tool read = error := Except.ok.inj herror
    refine ⟨tool, read, hallows.isTool, rfl, ?_⟩
    cases herror' : service.approvalErrorOf request tool read with
    | none => rfl
    | some reason =>
      have hgiven : given (some reason) = some reason := by
        rw [Grants.given_eq_some]
        exact ⟨rfl, fun hempty => approvalErrorOf_ne_empty tool read (hempty ▸ herror')⟩
      change given error = none at hnone
      rw [← hcheck, herror', hgiven] at hnone
      cases hnone

theorem exists_first_allowed {refound : GovernedFindings} {ys : List governedStore.Exchange}
    {decision : GovernedDecision} (hsettles : Settles service found refound request ys decision)
    (hallowed : decision.canonical.any (·.permission = .allowed) = true) :
    ∃ first, service.decision found request none = .ok first ∧
      first.canonical.any (·.permission = .allowed) = true := by
  cases hsettles with
  | atOnce decision hdecision hgit => exact ⟨decision, hdecision, hallowed⟩
  | observed first decision git observation ys hfirst hfirstAllowed =>
    exact ⟨first, hfirst, hfirstAllowed⟩

theorem approved_of_approvalErrorOf {tool : GovernedTool}
    (h : service.approvalErrorOf request tool (some approval) = none) :
    approval.status = .approved ∧ (service.requestHash approval ≠ "" →
      service.requestHash approval = service.requestFingerprint request) := by
  unfold approvalErrorOf at h
  dsimp only at h
  split at h
  · cases h
  · rename_i hstatus
    split at h
    · cases h
    · split at h
      · cases h
      · rename_i hhash
        refine ⟨by simpa using hstatus, fun hne => ?_⟩
        by_contra hother
        exact hhash ⟨hne, hother⟩

theorem seen_eq_of_approved {clock : Clock} (h : (approval.seen clock).status = .approved) :
    approval.seen clock = approval := by
  unfold ApprovalRequest.seen at h ⊢
  split at h
  · cases h
  · rename_i hlapsed
    rw [if_neg hlapsed]

theorem exists_relied {call : ExecutionCall} {use : String × String}
    (h : use ∈ service.reliances call approvals) :
    ∃ tool stored, given call.request.approvalId = some use.1 ∧
      use.2 = service.requestFingerprint call.request ∧
      service.registry call.request.toolId = some tool ∧
      approvals.read use.1 = .found stored ∧
      service.approvalErrorOf call.request tool (some stored) = none := by
  unfold reliances at h
  split at h
  · rename_i hcarries
    obtain ⟨x, hmem, hx⟩ := any_eq_true.mp hcarries
    have hnamed : ∃ approvalId, given call.request.approvalId = some approvalId ∧
        use = (approvalId, service.requestFingerprint call.request) := by
      cases hgiven : given call.request.approvalId with
      | none => simp [hgiven] at h
      | some approvalId => exact ⟨approvalId, rfl, by simpa [hgiven] using h⟩
    obtain ⟨approvalId, hnamed, rfl⟩ := hnamed
    obtain ⟨decision, assessment, hcarried⟩ :=
      carried_of_mem (Program.ends_exchanges call.environment _ 0) hmem hx
    obtain ⟨ys, hsettles, -⟩ := hcarried.isSettled
    obtain ⟨first, hfirst, hallowed⟩ := exists_first_allowed hsettles hcarried.isAllowed
    obtain ⟨tool, read, htool, hread, hright⟩ := approvalErrorOf_of_allowed hfirst hallowed hnamed
    change approvals.current call.clock approvalId = .ok read at hread
    unfold ApprovalTable.current at hread
    cases hstored : approvals.read approvalId with
    | missing =>
      rw [hstored] at hread
      cases hread
      cases hright
    | invalid =>
      rw [hstored] at hread
      cases hread
    | found stored =>
      rw [hstored] at hread
      have hsome : some (stored.seen call.clock) = read := Except.ok.inj hread
      subst hsome
      rw [seen_eq_of_approved (approved_of_approvalErrorOf hright).1] at hright
      exact ⟨tool, stored, hnamed, rfl, htool, rfl, hright⟩
  · exact absurd h not_mem_nil

theorem reliances_length_le_one (call : ExecutionCall) (approvals : ApprovalTable) :
    (service.reliances call approvals).length ≤ 1 := by
  unfold reliances
  split
  · cases given call.request.approvalId <;> simp
  · simp

variable {ledger : GovernedLedger}

theorem Recorded.keep (h : Recorded service ledger)
    (hkeeps : KeepsMembers ledger.approvals after) :
    ∀ approvalId approval, after.read approvalId = .found approval →
      service.requestHash approval ≠ "" →
        (approvalId, service.requestHash approval) ∈ ledger.requested := by
  intro approvalId approval hread hne
  obtain ⟨old, hold, hmembers⟩ := hkeeps approvalId approval hread
  rw [requestHash_congr hmembers] at hne ⊢
  exact h approvalId old hold hne

theorem Recorded.save {requested : List (String × String)}
    (h : ∀ approvalId approval, before.read approvalId = .found approval →
      service.requestHash approval ≠ "" → (approvalId, service.requestHash approval) ∈ requested)
    (hnew : service.requestHash approval ≠ "" →
      (approvalId, service.requestHash approval) ∈ requested) :
    ∀ key other, (before.save approvalId approval).read key = .found other →
      service.requestHash other ≠ "" → (key, service.requestHash other) ∈ requested := by
  intro key other hread hne
  by_cases hkey : key = approvalId
  · subst hkey
    rw [ApprovalTable.read_save_self] at hread
    cases hread
    exact hnew hne
  · have hsame := ApprovalTable.get?_save_of_ne hkey approval before
    rw [ApprovalTable.read_of_get?_eq hsame] at hread
    exact h key other hread hne

/-- A bound call leaves every execution with an approval of its own. -/
theorem advance_keeps (call : GovernedCall) (h : ledger.Authorises ∧ Recorded service ledger)
    (hbound : IsBound service ledger call) :
    (service.advance ledger call).Authorises ∧ Recorded service (service.advance ledger call) := by
  obtain ⟨hauthorises, hrecorded⟩ := h
  cases call with
  | requestApproval call =>
    have hkeeps : KeepsMembers ledger.approvals
        (service.readNamed call.request call.clock ledger.approvals) :=
      keepsMembers_readNamed call.request call.clock ledger.approvals
    have hread := hrecorded.keep hkeeps
    unfold advance
    dsimp only
    split
    · rename_i approval hrequested
      obtain ⟨tool, rfl⟩ := exists_newApproval hrequested
      refine ⟨⟨fun use huse => mem_append_left _ (hauthorises.isRequested use huse),
        hauthorises.once⟩, ?_⟩
      have hnew : service.requestHash
          (service.newApproval call.request tool call.clock.now call.expiresAt) ≠ "" →
          (call.approvalId, service.requestHash
            (service.newApproval call.request tool call.clock.now call.expiresAt)) ∈
              ledger.requested ++ [(call.approvalId, service.requestFingerprint call.request)] := by
        rw [requestHash_newApproval]
        simp
      have hsaved := Recorded.save
        (fun key other hother hne => mem_append_left _ (hread key other hother hne)) hnew
      intro key other hother hne
      obtain ⟨old, hold, hmembers⟩ := keepsMembers_appendEvent _ _ _ key other hother
      rw [requestHash_congr hmembers] at hne ⊢
      exact hsaved key old hold hne
    · exact ⟨⟨hauthorises.isRequested, hauthorises.once⟩, hread⟩
  | decide services clock approvalId decision =>
    exact ⟨⟨hauthorises.isRequested, hauthorises.once⟩,
      hrecorded.keep (keepsMembers_decide services clock approvalId decision ledger.approvals)⟩
  | keep approvalId approval =>
    exact ⟨⟨hauthorises.isRequested, hauthorises.once⟩,
      Recorded.save hrecorded fun hne => absurd hbound hne⟩
  | execute call =>
    have hkeeps : KeepsMembers ledger.approvals
        (service.readNamed call.request call.clock ledger.approvals) :=
      keepsMembers_readNamed call.request call.clock ledger.approvals
    have hread := hrecorded.keep hkeeps
    have hnew : ∀ use ∈ service.reliances call ledger.approvals,
        use ∈ ledger.requested ∧ use.1 ∉ ledger.relied.map Prod.fst := by
      intro use huse
      obtain ⟨tool, stored, hnamed, hprint, htool, hstored, hright⟩ := exists_relied huse
      obtain ⟨hne, hunused⟩ := hbound use.1 tool stored hnamed htool hstored hright
      have hprint' := (approved_of_approvalErrorOf hright).2 hne
      have hmem := hrecorded use.1 stored hstored hne
      rw [hprint', ← hprint] at hmem
      exact ⟨hmem, hunused⟩
    refine ⟨⟨fun use huse => ?_, ?_⟩, hread⟩
    · rcases mem_append.mp huse with hold | hfresh
      · exact hauthorises.isRequested use hold
      · exact (hnew use hfresh).1
    · change ((ledger.relied ++ service.reliances call ledger.approvals).map Prod.fst).Nodup
      rw [map_append, List.nodup_append]
      refine ⟨hauthorises.once, ?_, ?_⟩
      · have hlength : (service.reliances call ledger.approvals).length ≤ 1 :=
          reliances_length_le_one call ledger.approvals
        match service.reliances call ledger.approvals, hlength with
        | [], _ => exact nodup_nil
        | [use], _ => exact nodup_singleton _
      · intro key hkey key' hkey' heq
        subst heq
        obtain ⟨use, huse, rfl⟩ := mem_map.mp hkey'
        exact (hnew use huse).2 hkey

def emptyLedger : GovernedLedger where
  approvals := ⟨[], List.nodup_nil⟩
  requested := []
  relied := []

/-- A time before every other. -/
def sampleClock : Clock where
  now := "now"
  elapsed _ := some (-1)

def nothingFound : GovernedFindings where
  taskRun _ := none
  taskRunOfTask _ := none
  approval _ := .ok none
  grant _ _ := .ok none

def approvalCall : ApprovalCall where
  request := { commandRequest ["git", "status"] none with approvalId := none }
  clock := sampleClock
  found := nothingFound
  approvalId := "approval"
  expiresAt := "later"

def executionCall : ExecutionCall where
  request := commandRequest ["git", "status"] none
  clock := sampleClock
  found := nothingFound
  reclock := sampleClock
  refound := nothingFound
  answers _ o := (succeedingRunner o ()).1

def approvedCalls : List GovernedCall :=
  [.requestApproval approvalCall,
    .decide ⟨fun _ => false⟩ sampleClock "approval" .approved]

/-- What is stored then. -/
def approvedLedger : GovernedLedger := run projectExecution.advance emptyLedger approvedCalls

theorem emptyLedger_authorises : emptyLedger.Authorises where
  isRequested _ huse := absurd huse not_mem_nil
  once := nodup_nil

theorem emptyLedger_recorded : Recorded projectExecution emptyLedger := by
  intro approvalId approval hread
  cases hread

theorem approvedLedger_isBound :
    IsBound projectExecution approvedLedger (.execute executionCall) := by
  intro approvalId tool approval hnamed _ hread _
  have hid : approvalId = "approval" := by
    have hgiven : given executionCall.request.approvalId = some "approval" := by decide
    exact Option.some.inj (hnamed.symm.trans hgiven)
  subst hid
  have hstored : approvedLedger.approvals.read "approval" =
      .found (approvedCommand approvalCall.request) := by rfl
  have heq : approvedCommand approvalCall.request = approval := by
    injection hstored.symm.trans hread
  have hunused : approvedLedger.relied = [] := by decide
  subst heq
  exact ⟨by decide, by simp [hunused]⟩

end GovernedToolExecution

end AIpinho.Tools
