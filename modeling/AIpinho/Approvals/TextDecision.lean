import AIpinho.Approvals.Batch
import AIpinho.Lib.Keywords
import AIpinho.Lib.Text

/-!
# Decisions in words

`UniversalApproverService.decide_from_text` looks for words of approval and of rejection in what
an approver says, and decides if it finds words of one kind only. "Not approved" is read as an
approval.
-/

namespace AIpinho.Approvals

open Lib AIpinho.Runtime

deriving instance DecidableEq for ApprovalDecision

/-- The characters that belong to words, `\w` of a pattern. -/
structure WordTable where
  isWord : Char → Bool
  letters : ∀ c, (foldCase c).isLower = true → isWord c = true

/-- A text as a pattern reads it with `re.IGNORECASE`. -/
def WordTable.lettering (table : WordTable) : Lettering Char := ⟨table.isWord, foldCase⟩

/-- The words of `APPROVE_RE`. -/
def approveWords : List (List Char) :=
  ["approve".toList, "approved".toList, "aprovar".toList, "aprovado".toList, "autorizo".toList,
    "autorizado".toList, "permito".toList, "permitido".toList]

/-- The words of `REJECT_RE`. -/
def rejectWords : List (List Char) :=
  ["deny".toList, "denied".toList, "reject".toList, "rejected".toList, "negar".toList,
    "negado".toList, "rejeitar".toList, "rejeitado".toList, "bloquear".toList,
    "bloqueado".toList]

def decisionFromText (table : WordTable) (text : String) : Option ApprovalDecision :=
  let approved := table.lettering.search approveWords text.toList
  let rejected := table.lettering.search rejectWords text.toList
  if approved = rejected then none
  else if approved then some .approved
  else some .rejected

inductive ApproverStatus
  | active | disabled | revoked
  deriving DecidableEq

def ApproverStatus.text : ApproverStatus → String
  | .active => "active"
  | .disabled => "disabled"
  | .revoked => "revoked"

/-- `UniversalApprover`, as far as it is read. -/
structure UniversalApprover where
  approverId : String
  trustLevel : String
  /-- What the approver may do in each category. -/
  capabilities : List (String × List String)
  status : ApproverStatus

def isIdChar (c : Char) : Bool := c.isLower || c.isDigit || c = '_' || c = '.' || c = ':' || c = '-'

/-- `str.lower`, as far as the characters of an identifier can tell. -/
def lowerIdChar (c : Char) : List Char :=
  if c.toNat = 0x212A then ['k']
  else if c.toNat = 0x130 then ['i', Char.ofNat 0x307]
  else [c.toLower]

def joinIdChars : Bool → List Char → List Char
  | _, [] => []
  | isRun, c :: cs =>
    if isIdChar c then c :: joinIdChars false cs
    else if isRun then joinIdChars true cs
    else '_' :: joinIdChars true cs

def normalizeId (value : String) : String :=
  String.ofList <| trim (· = '_') <|
    joinIdChars false ((trim isSpace value.toList).flatMap lowerIdChar)

/-- `get_approver`, from what `list_approvers` gives. -/
def getApprover (approvers : List UniversalApprover) (approverId : String) :
    Option UniversalApprover :=
  approvers.find? (·.approverId = normalizeId approverId)

/-- The capability matrix of the configuration. -/
structure CapabilityMatrix where
  trustOrder : List (String × ℤ)
  minimumTrustByCategory : List (String × String)
  actionCategoryMap : List (String × String)

namespace CapabilityMatrix

variable (matrix : CapabilityMatrix)

def trustAllows (actual minimum : String) : Bool :=
  (matrix.trustOrder.lookup minimum).getD 999 ≤ (matrix.trustOrder.lookup actual).getD (-1)

def categoriesForActions (actions : List String) : List String :=
  (actions.map fun action => (matrix.actionCategoryMap.lookup action).getD "contracts").eraseDups

def objection (approver : UniversalApprover) (category : String) : Option String :=
  if matrix.trustAllows approver.trustLevel
      ((matrix.minimumTrustByCategory.lookup category).getD "L1") = false then
    some "trust_level_denied"
  else if "approve" ∉ (approver.capabilities.lookup category).getD [] then
    some "capability_denied"
  else none

/-- `_can_approve`: the first objection and the category it is about, if there is one. -/
def canApprove (approver : UniversalApprover) (actions : List String) : Option (String × String) :=
  let categories := matrix.categoriesForActions actions
  (if categories = [] then ["contracts"] else categories).findSome? fun category =>
    (matrix.objection approver category).map fun reasonCode => (reasonCode, category)

end CapabilityMatrix

/-- The status of a result. -/
inductive ResultStatus
  | ok | blocked
  deriving DecidableEq

/-- `UniversalApprovalDecisionResult`, without the signature of the decision and the task
that goes on. -/
structure TextDecisionResult where
  /-- Whether the decision was accepted. -/
  status : ResultStatus
  approvalId : String
  approverId : String
  decision : Option ApprovalDecision
  reasonCode : Option String
  humanSummary : String
  approval : Option ApprovalRequest

/-- `_blocked`. -/
def blockedDecision (approvalId approverId reasonCode summary : String) : TextDecisionResult :=
  ⟨.blocked, approvalId, approverId, none, some reasonCode, summary, none⟩

/-- What a decision in words asks others for. -/
structure TextServices extends ApprovalServices where
  words : WordTable
  approvers : List UniversalApprover
  matrix : CapabilityMatrix
  /-- Whether the draft of an approval cannot be updated. -/
  draftFails : String → Bool

/-- The times of a decision in words. -/
structure TextClocks where
  reading : Clock
  deciding : Clock
  recording : String

variable (services : TextServices)

/-- `ApprovalService.approve` and `ApprovalService.reject`: `_decide` and the draft. -/
def decideWithDraft (clock : Clock) (approvalId : String) (decision : ApprovalDecision) :
    ApprovalProgram ApprovalRequest := do
  let approval ← decideApproval services.toApprovalServices clock approvalId decision
  if services.draftFails (approval.text "draft_id") = true then .raise "ValidationError"
  else pure approval

variable (clocks : TextClocks)

def recordTextDecision (approvalId : String) (approver : UniversalApprover)
    (decision : ApprovalDecision) :
    ApprovalProgram TextDecisionResult := do
  ApprovalProgram.appendEvent approvalId ⟨"universal_approval_decision_received",
    clocks.recording, "Decisao textual recebida de Universal Approver."⟩
  match ← (decideWithDraft services clocks.deciding approvalId decision).attempt with
  | .error reason =>
    pure (blockedDecision approvalId approver.approverId reason
      "ApprovalService recusou a decisao.")
  | .ok updated =>
    ApprovalProgram.appendEvent approvalId ⟨"universal_approval_signature_created",
      clocks.recording, "Assinatura de approval registrada."⟩
    ApprovalProgram.appendEvent approvalId ⟨"universal_approval_decision_accepted",
      clocks.recording,
      "Decisao universal aceita; execucao continua apenas pelo runtime governado."⟩
    pure ⟨.ok, approvalId, approver.approverId, some decision, none,
      "Approval registrado pela AIpinho com assinatura de Universal Approver. " ++
        "Nenhum bypass foi executado.", some updated⟩

def decidePendingFromText (approvalId : String) (approver : UniversalApprover)
    (approval : ApprovalRequest) (text : String) : ApprovalProgram TextDecisionResult :=
  match decisionFromText services.words text with
  | none => do
    ApprovalProgram.appendEvent approvalId ⟨"universal_approval_decision_rejected",
      clocks.recording, "Texto do approver nao continha decisao clara."⟩
    pure (blockedDecision approvalId approver.approverId "approval_text_ambiguous"
      "Texto nao indicou approve/deny de forma inequivoca.")
  | some decision =>
    match services.matrix.canApprove approver approval.actionsRequested with
    | some (reasonCode, category) => do
      ApprovalProgram.appendEvent approvalId
        ⟨if reasonCode = "trust_level_denied" then "universal_approval_trust_denied"
            else "universal_approval_capability_denied",
          clocks.recording, "Universal Approver nao tem autoridade suficiente para esta categoria."⟩
      pure (blockedDecision approvalId approver.approverId reasonCode
        ("Approver sem autoridade para " ++ category ++ "."))
    | none => recordTextDecision services clocks approvalId approver decision

/-- `decide_from_text`. The task that goes on after the decision is not part of the model. -/
def decideFromText (approvalId approverId text : String) : ApprovalProgram TextDecisionResult :=
  match getApprover services.approvers approverId with
  | none =>
    pure (blockedDecision approvalId approverId "unknown_approver" "Approver desconhecido.")
  | some approver =>
    if approver.status ≠ .active then
      pure (blockedDecision approvalId approver.approverId ("approver_" ++ approver.status.text)
        "Approver nao esta ativo.")
    else do
      match ← getApproval clocks.reading approvalId with
      | none =>
        pure (blockedDecision approvalId approver.approverId "approval_not_found"
          "ApprovalRequest nao encontrado.")
      | some approval =>
        if approval.status ≠ .pending then
          pure (blockedDecision approvalId approver.approverId
            (if approval.status = .expired then "approval_expired"
              else "approval_not_pending:" ++ approval.status.text)
            ("ApprovalRequest nao esta pendente: " ++ approval.status.text ++ "."))
        else decidePendingFromText services clocks approvalId approver approval text

namespace ApprovalTable

def Approved (approvalId : String) (approvals : ApprovalTable) : Prop :=
  ∃ approval, approvals.read approvalId = .found approval ∧ approval.status = .approved

variable {approvals : ApprovalTable} {key key' : String}

theorem found_of_appendEvent {e : ApprovalEvent} {approval : ApprovalRequest}
    (h : (approvals.appendEvent key e).read key' = .found approval) :
    approvals.read key' = .found approval := by
  by_cases hkey : key' = key
  · subst hkey
    rw [appendEvent, read, Table.get?_insert_self, filesOf] at h
    rw [read]
    cases hfiles : approvals.get? key' with
    | none =>
      rw [hfiles] at h
      cases h
    | some files =>
      rw [hfiles] at h
      exact h
  · rwa [read_of_get?_eq (get?_appendEvent_of_ne hkey e approvals)] at h

end ApprovalTable

section Keeping

variable {services : TextServices} {clocks : TextClocks} {key : String}

def Unapproved (key : String) (approvals : ApprovalTable) : Prop := ¬approvals.Approved key

variable (approvalId : String)

theorem keeps_save {approval : ApprovalRequest} (hstatus : approval.status ≠ .approved) :
    (ApprovalProgram.save approvalId approval).Keeps approvalHandler (Unapproved key) := by
  rintro approvals hunapproved ⟨found, hread, hfound⟩
  change (approvals.save approvalId approval).read key = .found found at hread
  by_cases hkey : key = approvalId
  · subst hkey
    rw [ApprovalTable.read_save_self, ApprovalRead.found.injEq] at hread
    exact hstatus (hread ▸ hfound)
  · have hsame := ApprovalTable.get?_save_of_ne hkey approval approvals
    rw [ApprovalTable.read_of_get?_eq hsame] at hread
    exact hunapproved ⟨found, hread, hfound⟩

theorem keeps_appendEvent (e : ApprovalEvent) :
    (ApprovalProgram.appendEvent approvalId e).Keeps approvalHandler (Unapproved key) :=
  fun _ hunapproved happroved => hunapproved <| happroved.imp fun _ h =>
    ⟨ApprovalTable.found_of_appendEvent h.1, h.2⟩

theorem keeps_expireApproval (clock : Clock) (approvalId : String) (approval : ApprovalRequest) :
    (expireApproval clock approvalId approval).Keeps approvalHandler (Unapproved key) := by
  refine (keeps_save approvalId ?_).bind fun _ => (keeps_appendEvent approvalId _).bind fun _ =>
    Program.keeps_done _
  simp [ApprovalRequest.expire]

theorem keeps_getApproval (clock : Clock) (approvalId : String) :
    (getApproval clock approvalId).Keeps approvalHandler (Unapproved key) := by
  intro approvals hunapproved
  rw [ApprovalTable.run_getApproval]
  dsimp only [ApprovalTable.touch]
  split
  · exact hunapproved
  · exact hunapproved
  · rename_i approval _
    split
    · exact keeps_expireApproval clock approvalId approval approvals hunapproved
    · exact hunapproved

theorem keeps_decideApproval (services : ApprovalServices) (clock : Clock) (approvalId : String)
    {decision : ApprovalDecision} (hdecision : decision ≠ .approved) :
    (decideApproval services clock approvalId decision).Keeps approvalHandler (Unapproved key) := by
  have hstatus : decision.status ≠ .approved := by
    cases decision with
    | approved => exact absurd rfl hdecision
    | rejected | cancelled => decide
  refine (keeps_getApproval clock approvalId).bind fun found => ?_
  cases found with
  | none => exact Program.keeps_raise _
  | some approval =>
    dsimp only
    split
    · exact Program.keeps_raise _
    · split
      · exact (keeps_expireApproval clock approvalId approval).bind fun _ => Program.keeps_raise _
      · refine (keeps_save approvalId hstatus).bind fun _ =>
          (keeps_appendEvent approvalId _).bind fun _ => ?_
        split
        · exact (keeps_appendEvent approvalId _).bind fun _ => Program.keeps_done _
        · exact Program.keeps_done _

theorem keeps_recordTextDecision (approver : UniversalApprover) {decision : ApprovalDecision}
    (hdecision : decision ≠ .approved) :
    (recordTextDecision services clocks approvalId approver decision).Keeps approvalHandler
      (Unapproved key) := by
  have hdecide : (decideWithDraft services clocks.deciding approvalId decision).Keeps
      approvalHandler (Unapproved key) := by
    refine (keeps_decideApproval _ _ _ hdecision).bind fun approval => ?_
    split
    · exact Program.keeps_raise _
    · exact Program.keeps_done _
  refine (keeps_appendEvent approvalId _).bind fun _ => hdecide.attempt.bind fun result => ?_
  cases result with
  | error reason => exact Program.keeps_done _
  | ok updated =>
    exact (keeps_appendEvent approvalId _).bind fun _ =>
      (keeps_appendEvent approvalId _).bind fun _ => Program.keeps_done _

theorem keeps_decideFromText (approverId : String) {text : String}
    (htext : decisionFromText services.words text ≠ some .approved) :
    (decideFromText services clocks approvalId approverId text).Keeps approvalHandler
      (Unapproved key) := by
  rw [decideFromText]
  split
  · exact Program.keeps_done _
  · rename_i approver _
    split
    · exact Program.keeps_done _
    · refine (keeps_getApproval clocks.reading approvalId).bind fun found => ?_
      cases found with
      | none => exact Program.keeps_done _
      | some approval =>
        dsimp only
        split
        · exact Program.keeps_done _
        · rw [decidePendingFromText]
          split
          · exact (keeps_appendEvent approvalId _).bind fun _ => Program.keeps_done _
          · rename_i decision hdecision
            split
            · exact (keeps_appendEvent approvalId _).bind fun _ => Program.keeps_done _
            · exact keeps_recordTextDecision approvalId approver fun h => htext (h ▸ hdecision)

end Keeping

section Consent

variable {table : WordTable} {negations words : List (List Char)} {text : String}

/-- One of the words stands in the text. -/
def Says (table : WordTable) (words : List (List Char)) (text : String) : Prop :=
  ∃ before word after, table.lettering.WordAt words text.toList before word after

def EndsWithNegation (table : WordTable) (negations : List (List Char)) (before : List Char) :
    Prop :=
  ∃ front word space, table.lettering.WordAt negations before front word space ∧ space ≠ [] ∧
    ∀ c ∈ space, isSpace c = true

/-- Every word of approval follows a negation. -/
def AllNegated (table : WordTable) (negations : List (List Char)) (text : String) : Prop :=
  ∀ before word after, table.lettering.WordAt approveWords text.toList before word after →
    EndsWithNegation table negations before

/-- A text that approves nothing, or that rejects. -/
def IsRefusal (table : WordTable) (negations : List (List Char)) (text : String) : Prop :=
  AllNegated table negations text ∨ Says table rejectWords text

/-- A text is not read as consent: the decision is not an approval, and no approval is
approved that was not. -/
structure NoConsent (table : WordTable) (text : String) : Prop where
  decision : decisionFromText table text ≠ some .approved
  approvals : ∀ (services : TextServices) (clocks : TextClocks) (approvalId approverId key : String)
    (approvals : ApprovalTable), services.words = table → ¬approvals.Approved key →
      ¬((decideFromText services clocks approvalId approverId text).run approvalHandler
        approvals).2.Approved key

theorem noConsent_iff : NoConsent table text ↔ decisionFromText table text ≠ some .approved := by
  refine ⟨NoConsent.decision, fun hdecision => ⟨hdecision, ?_⟩⟩
  rintro services clocks approvalId approverId key approvals rfl hunapproved
  exact keeps_decideFromText approvalId approverId hdecision approvals hunapproved

theorem lettered_of_isLower (table : WordTable) {words : List (List Char)}
    (hwords : (words.all fun word => !word.isEmpty && word.all (·.isLower)) = true) :
    table.lettering.Lettered words := by
  intro word hword
  have hlower := List.all_eq_true.mp hwords word hword
  rw [Bool.and_eq_true, Bool.not_eq_true', List.isEmpty_eq_false_iff, List.all_eq_true] at hlower
  exact ⟨hlower.1, fun c hc => table.letters c (hlower.2 _ hc)⟩

theorem search_approveWords : table.lettering.search approveWords text.toList = true ↔
    Says table approveWords text :=
  Lettering.search_iff (lettered_of_isLower table (by decide))

theorem search_rejectWords : table.lettering.search rejectWords text.toList = true ↔
    Says table rejectWords text :=
  Lettering.search_iff (lettered_of_isLower table (by decide))

theorem decisionFromText_eq_approved_iff : decisionFromText table text = some .approved ↔
      Says table approveWords text ∧ ¬Says table rejectWords text := by
  rw [← search_approveWords, ← search_rejectWords, decisionFromText]
  cases table.lettering.search approveWords text.toList <;>
    cases table.lettering.search rejectWords text.toList <;> decide

/-- A refusal is not read as consent, unless all it says is that something is not
approved. -/
theorem refusal_noConsent_iff (table : WordTable) (negations : List (List Char)) (text : String) :
    (IsRefusal table negations text → NoConsent table text) ↔
      ¬(AllNegated table negations text ∧ Says table approveWords text ∧
        ¬Says table rejectWords text) := by
  rw [noConsent_iff, Ne, decisionFromText_eq_approved_iff]
  constructor
  · rintro hconsent ⟨hnegated, hsaid⟩
    exact hconsent (.inl hnegated) hsaid
  · rintro hcondition (hnegated | hrejected) ⟨happroved, hnone⟩
    · exact hcondition ⟨hnegated, happroved, hnone⟩
    · exact hnone hrejected

end Consent

def asciiWords : WordTable where
  isWord c := (foldCase c).isLower || c.isDigit || c = '_'
  letters c hc := by simp [hc]

def waitingForWords : ApprovalTable :=
  ⟨[("approval_1", ⟨some ⟨.pending, "single_action", "2030", "2026", "not_executed", "AIpinho",
    [("actions_requested", .list [.str "write_file"])]⟩, []⟩)], by decide⟩

def fileApprover : TextServices where
  bridgeFails _ := false
  words := asciiWords
  approvers := [⟨"reviewer", "L2", [("filesystem", ["approve", "deny"])], .active⟩]
  matrix := ⟨[("L1", 1), ("L2", 2)], [("filesystem", "L1")], [("write_file", "filesystem")]⟩
  draftFails _ := false

/-- The times of a decision before the time of the approval is over. -/
def earlyClocks : TextClocks :=
  ⟨⟨"2026", fun _ => some (-1)⟩, ⟨"2026", fun _ => some (-1)⟩, "2026"⟩

theorem allNegated_not_approved : AllNegated asciiWords ["not".toList] "not approved" := by
  intro before word after h
  have hplace : ∀ n < 13, asciiWords.lettering.keywordHere approveWords
      ("not approved".toList.take n).getLast? ("not approved".toList.drop n) = true → n = 4 := by
    decide
  have htext := h.text_eq
  rw [List.append_assoc] at htext
  have hlength := congrArg List.length htext
  rw [List.length_append] at hlength
  have hbefore : before.length = 4 := hplace _ (by
    have : "not approved".toList.length = 12 := rfl
    omega) (h.keywordHere (lettered_of_isLower asciiWords (by decide)))
  have hsplit : "not ".toList ++ "approved".toList = before ++ (word ++ after) := htext
  obtain rfl : "not ".toList = before := (List.append_inj hsplit hbefore.symm).1
  refine ⟨[], "not".toList, " ".toList, ⟨rfl, by decide, by decide, by decide⟩, by decide, ?_⟩
  rw [show " ".toList = [' '] from rfl, List.forall_mem_singleton]
  decide

/-- "not approved" approves. -/
theorem not_approved_approves : IsRefusal asciiWords ["not".toList] "not approved" ∧
      decisionFromText asciiWords "not approved" = some .approved ∧
      ¬waitingForWords.Approved "approval_1" ∧
      ((decideFromText fileApprover earlyClocks "approval_1" "reviewer" "not approved").run
        approvalHandler waitingForWords).2.Approved "approval_1" := by
  refine ⟨.inl allNegated_not_approved, by decide, ?_, ?_⟩
  · rintro ⟨approval, hread, hstatus⟩
    cases hread
    cases hstatus
  · exact ⟨_, rfl, rfl⟩

end AIpinho.Approvals
