import AIpinho.Grants.Service
import AIpinho.Lib.Transactions
import Mathlib.Data.Finset.Card

/-!
# Uses and revocations of a grant

`consume` and `revoke` load a grant, change it and save it as a whole, so a use can be lost and
a revocation undone. Uses are counted and revocations are final in every run in which no call
loads the grant while another is about to save it.
-/

namespace AIpinho.Grants

open List Lib

def GrantOp.reads : GrantOp → Prop
  | .load _ => True
  | .save .. => False

def GrantOp.writes : GrantOp → Prop
  | .load _ => False
  | .save .. => True

def GrantTable.Present (grantId : String) (grants : GrantTable) : Prop :=
  ∃ grant, grants.get? grantId = some grant

/-- A call on a grant, at its time. -/
inductive GrantCall
  | consume (now : ℤ) (query : GrantQuery)
  | revoke (now : ℤ) (actor : String)

variable (services : GrantServices)

def GrantCall.program (grantId : String) : GrantCall → GrantProgram GrantDecision
  | .consume now query => Grants.consume services now grantId query
  | .revoke now actor => Grants.revoke now grantId actor

/-- What `consume` makes of a grant if nobody comes between, and its decision. -/
def consumed (now : ℤ) (query : GrantQuery) (grant : SessionGrant) : SessionGrant × GrantDecision :=
  if grant.isOver now then
    (grant.expire now, ⟨"grant_not_approved:" ++ GrantStatus.expired.text, grant.expire now⟩)
  else if grant.status ≠ .approved then
    (grant, ⟨"grant_not_approved:" ++ grant.status.text, grant⟩)
  else
    match scopeReason services grant query with
    | some reason => (grant, ⟨reason, grant⟩)
    | none =>
      if grant.isUsedUp then (grant.expire now, ⟨"grant_use_limit_reached", grant.expire now⟩)
      else (grant.use now, ⟨"grant_consumed", grant.use now⟩)

/-- What `revoke` makes of a grant if nobody comes between, and its decision. -/
def revoked (now : ℤ) (actor : String) (grant : SessionGrant) : SessionGrant × GrantDecision :=
  if grant.status = .revoked ∨ grant.status = .expired then
    (grant, ⟨"grant_not_revocable:" ++ grant.status.text, grant⟩)
  else (grant.revoke now actor, ⟨"grant_revoked", grant.revoke now actor⟩)

def GrantCall.effect : GrantCall → SessionGrant → SessionGrant × GrantDecision
  | .consume now query => consumed services now query
  | .revoke now actor => revoked now actor

def GrantCall.transaction (call : GrantCall) : Transaction (Option SessionGrant) GrantDecision where
  next grant := grant.map fun grant => (call.effect services grant).1
  result
    | none => .error "grant_not_found"
    | some grant => .ok (call.effect services grant).2

section

variable {services : GrantServices} {grantId : String}

theorem leaves_load :
    Program.Leaves grantHandler (GrantTable.Present grantId) (fun grants => grants.get? grantId)
      (.load grantId) id := fun _ hpresent => ⟨rfl, hpresent⟩

theorem leaves_save (grant : SessionGrant) :
    Program.Leaves grantHandler (GrantTable.Present grantId) (fun grants => grants.get? grantId)
      (.save grantId grant) (fun _ => some grant) := by
  intro grants _
  exact ⟨Table.get?_insert_self _ _ _, grant, Table.get?_insert_self _ _ _⟩

theorem writing_save (grant : SessionGrant) (decision : GrantDecision) :
    (Program.call (S := grantStore) (.save grantId grant) fun _ => .done decision).Writing
      grantHandler (GrantTable.Present grantId) (fun grants => grants.get? grantId) GrantOp.writes
      (some grant) (.ok decision) :=
  ⟨_, _, rfl, trivial, leaves_save grant, fun _ => Program.quiet_done decision⟩

variable (status : GrantStatus)

theorem notApproved_ne_effective : "grant_not_approved:" ++ status.text ≠ "grant_effective" := by
  cases status <;> decide

theorem notApproved_ne_consumed : "grant_not_approved:" ++ status.text ≠ "grant_consumed" := by
  cases status <;> decide

theorem notRevocable_ne_consumed : "grant_not_revocable:" ++ status.text ≠ "grant_consumed" := by
  cases status <;> decide

theorem consume_performs (hid : isGrantId grantId = true) (now : ℤ) (query : GrantQuery) :
    (consume services now grantId query).Performs grantHandler (GrantTable.Present grantId)
      (fun grants => grants.get? grantId) GrantOp.reads GrantOp.writes
      ((GrantCall.consume now query).transaction services) := by
  rw [consume, isEffective, required_eq hid]
  refine ⟨.load grantId, _, rfl, trivial, leaves_load, ?_⟩
  rintro grants ⟨grant, hget⟩
  simp only [GrantCall.transaction, GrantCall.effect, consumed, hget, Option.map_some]
  dsimp only [grantHandler, bind, Program.bind]
  simp only [hget, Option.elim_some, Program.bind, expireIfNeeded]
  by_cases hover : grant.isOver now = true
  · rw [if_pos hover, if_pos hover, save_eq hid]
    refine Or.inr ?_
    exact writing_save _ _
  rw [if_neg hover, if_neg hover]
  simp only [pure, Program.bind]
  by_cases hstatus : grant.status ≠ .approved
  · rw [if_pos hstatus, if_pos hstatus]
    refine Or.inl ⟨rfl, ?_⟩
    rw [Program.bind, if_pos (notApproved_ne_effective grant.status)]
    exact Program.quiet_done _
  rw [if_neg hstatus, if_neg hstatus]
  cases hreason : scopeReason services grant query with
  | some reason =>
    have hne : reason ≠ "grant_effective" := by
      rintro rfl
      exact absurd (mem_scopeReasons hreason) (by decide)
    refine Or.inl ⟨rfl, ?_⟩
    simp only [Program.bind]
    rw [if_pos hne]
    exact Program.quiet_done _
  | none =>
    by_cases hused : grant.isUsedUp = true
    · simp only [hused, if_true, save_eq hid]
      exact Or.inr (writing_save _ _)
    · simp only [hused, Bool.false_eq_true, if_false, Program.bind, ne_eq, not_true_eq_false,
        save_eq hid]
      exact Or.inr (writing_save _ _)

theorem revoke_performs (hid : isGrantId grantId = true) (now : ℤ) (actor : String) :
    (revoke now grantId actor).Performs grantHandler (GrantTable.Present grantId)
      (fun grants => grants.get? grantId) GrantOp.reads GrantOp.writes
      ((GrantCall.revoke now actor).transaction services) := by
  rw [revoke, required_eq hid]
  refine ⟨.load grantId, _, rfl, trivial, leaves_load, ?_⟩
  rintro grants ⟨grant, hget⟩
  simp only [GrantCall.transaction, GrantCall.effect, revoked, hget, Option.map_some]
  dsimp only [grantHandler, bind, Program.bind]
  simp only [hget, Option.elim_some, Program.bind]
  by_cases hfinal : grant.status = .revoked ∨ grant.status = .expired
  · rw [if_pos hfinal, if_pos hfinal]
    exact Or.inl ⟨rfl, Program.quiet_done _⟩
  · rw [if_neg hfinal, if_neg hfinal, save_eq hid]
    exact Or.inr (writing_save _ _)

theorem GrantCall.performs (hid : isGrantId grantId = true) (call : GrantCall) :
    (call.program services grantId).Performs grantHandler (GrantTable.Present grantId)
      (fun grants => grants.get? grantId) GrantOp.reads GrantOp.writes
      (call.transaction services) := by
  cases call with
  | consume now query => exact consume_performs hid now query
  | revoke now actor => exact revoke_performs hid now actor

def SessionGrant.Final (grant : SessionGrant) : Prop :=
  grant.status = .revoked ∨ grant.status = .expired

variable (services) in
theorem GrantCall.effect_cases (call : GrantCall) (grant : SessionGrant) :
    (call.effect services grant).1.maxUses = grant.maxUses ∧
    (((call.effect services grant).2.reasonCode = "grant_consumed" ∧ grant.status = .approved ∧
        grant.isUsedUp = false ∧ (call.effect services grant).1.usedCount = grant.usedCount + 1) ∨
      ((call.effect services grant).2.reasonCode ≠ "grant_consumed" ∧
        (call.effect services grant).1.usedCount = grant.usedCount)) := by
  cases call with
  | revoke now actor =>
    rw [effect, revoked]
    split
    · exact ⟨rfl, Or.inr ⟨notRevocable_ne_consumed grant.status, rfl⟩⟩
    · exact ⟨rfl, Or.inr ⟨by simp, rfl⟩⟩
  | consume now query =>
    rw [effect, consumed]
    split
    · exact ⟨rfl, Or.inr ⟨notApproved_ne_consumed .expired, rfl⟩⟩
    split
    · exact ⟨rfl, Or.inr ⟨notApproved_ne_consumed grant.status, rfl⟩⟩
    rename_i hover hstatus
    cases hreason : scopeReason services grant query with
    | some reason =>
      refine ⟨rfl, Or.inr ⟨?_, rfl⟩⟩
      rintro rfl
      exact absurd (mem_scopeReasons hreason) (by decide)
    | none =>
      by_cases hused : grant.isUsedUp = true
      · simp only [hused, if_true]
        exact ⟨rfl, Or.inr ⟨by simp, rfl⟩⟩
      · simp only [if_neg hused]
        have huse : (grant.use now).maxUses = grant.maxUses ∧
            (grant.use now).usedCount = grant.usedCount + 1 := by
          rw [SessionGrant.use]
          split
          · exact ⟨rfl, rfl⟩
          · exact ⟨rfl, rfl⟩
        exact ⟨huse.1, Or.inl ⟨trivial, not_not.mp hstatus, Bool.eq_false_iff.mpr hused, huse.2⟩⟩

theorem SessionGrant.Final.effect {grant : SessionGrant} (h : grant.Final) (call : GrantCall) :
    (call.effect services grant).1 = grant ∧
      (call.effect services grant).2.reasonCode ≠ "grant_consumed" := by
  have hnot : grant.status ≠ .approved := by
    rcases h with h | h <;> simp [h]
  cases call with
  | revoke now actor =>
    have hfinal : grant.status = .revoked ∨ grant.status = .expired := h
    rw [GrantCall.effect, revoked, if_pos hfinal]
    exact ⟨rfl, notRevocable_ne_consumed grant.status⟩
  | consume now query =>
    have hover : grant.isOver now = false := by
      rcases h with h | h <;> simp [SessionGrant.isOver, h]
    rw [GrantCall.effect, consumed, if_neg (by simp [hover]), if_pos hnot]
    exact ⟨rfl, notApproved_ne_consumed grant.status⟩

theorem final_of_revoke (now : ℤ) (actor : String) (grant : SessionGrant) :
    ((GrantCall.revoke now actor).effect services grant).1.Final := by
  rw [GrantCall.effect, revoked]
  split
  · rename_i hfinal
    exact hfinal
  · exact Or.inl rfl

end

section

variable {ι : Type} [DecidableEq ι]

def racingCalls (services : GrantServices) (grantId : String) (calls : ι → GrantCall)
    (grants : GrantTable) : Pool grantStore GrantTable fun _ : ι => GrantDecision where
  threads i := (calls i).program services grantId
  state := grants

/-- A call has reported a use. -/
def Consumed (c : Pool grantStore GrantTable fun _ : ι => GrantDecision) (i : ι) : Prop :=
  ∃ decision, c.threads i = .done decision ∧ decision.reasonCode = "grant_consumed"

/-- No more calls consume the grant than it has uses. -/
def UsesBounded (maxUses : ℤ) (c : Pool grantStore GrantTable fun _ : ι => GrantDecision) : Prop :=
  ∀ calls : Finset ι, (∀ i ∈ calls, Consumed c i) → calls.card ≤ maxUses.toNat

/-- After a run that ended with a trace, no call that did not take part in it reports a use, and
the stored grant cannot be used any more. -/
def RevokedFor (grantId : String) (trace : List (ι × grantStore.Exchange))
    (c : Pool grantStore GrantTable fun _ : ι => GrantDecision) : Prop :=
  (∀ i, i ∉ trace.map Prod.fst → ¬Consumed c i) ∧
    ∃ grant, c.state.get? grantId = some grant ∧ grant.Final

variable {services : GrantServices} {calls : ι → GrantCall}

variable {log : List (ι × Option SessionGrant)} {grant : SessionGrant}

omit [DecidableEq ι] in
theorem consumed_le_of_chain {maxUses : ℤ} (hmax : grant.maxUses = some maxUses)
    (hchain : Pool.Chain (fun i => (calls i).transaction services) (some grant) log) :
    (log.filter fun entry => (entry.2.any fun read =>
      ((calls entry.1).effect services read).2.reasonCode = "grant_consumed")).length +
        grant.usedCount ≤ max grant.usedCount maxUses.toNat := by
  induction log generalizing grant with
  | nil => simp
  | cons entry log ih =>
    obtain ⟨hread, hrest⟩ := hchain.of_cons
    obtain ⟨hmax', huse⟩ := (calls entry.1).effect_cases services grant
    have hih := ih (hmax'.trans hmax) hrest
    rw [filter_cons, hread]
    rcases huse with ⟨hcode, -, hleft, hcount⟩ | ⟨hcode, hcount⟩
    · have hlt : (grant.usedCount : ℤ) < maxUses := by
        simpa [SessionGrant.isUsedUp, hmax] using hleft
      simp only [Option.any_some, hcode, decide_true, if_true, length_cons]
      rw [hcount] at hih
      omega
    · simp only [Option.any_some, hcode, decide_false, Bool.false_eq_true, if_false]
      rw [hcount] at hih
      exact hih

abbrev Counts (services : GrantServices) (grantId : String) (calls : ι → GrantCall)
    (grant : SessionGrant) (log : List (ι × Option SessionGrant))
    (c : Pool grantStore GrantTable fun _ : ι => GrantDecision) : Prop :=
  Pool.Serialized grantHandler (GrantTable.Present grantId) (fun grants => grants.get? grantId)
    GrantOp.reads GrantOp.writes (fun i => (calls i).transaction services) (some grant) log c

theorem effect_of_result {call : GrantCall} {read : Option SessionGrant} {decision : GrantDecision}
    (h : (call.transaction services).result read = .ok decision) :
    ∃ grant, read = some grant ∧ (call.effect services grant).2 = decision := by
  cases read with
  | none => cases h
  | some grant => exact ⟨grant, rfl, Except.ok.inj h⟩

theorem Counts.usesBounded {grantId : String}
    {c : Pool grantStore GrantTable fun _ : ι => GrantDecision}
    (h : Counts services grantId calls grant log c) {maxUses : ℤ}
    (hmax : grant.maxUses = some maxUses) : UsesBounded maxUses c := by
  intro users husers
  let uses := log.filter fun entry => entry.2.any fun read =>
    ((calls entry.1).effect services read).2.reasonCode = "grant_consumed"
  have hsubset : users ⊆ (uses.map Prod.fst).toFinset := by
    intro i hi
    obtain ⟨decision, hdone, hcode⟩ := husers i hi
    obtain ⟨pre, w, post, hsplit, -, hresult, -⟩ := h.of_done hdone
    obtain ⟨read, rfl, rfl⟩ := effect_of_result hresult
    have hmem : (i, some read) ∈ uses := by
      rw [mem_filter, hsplit]
      exact ⟨by simp, by simpa using hcode⟩
    rw [mem_toFinset]
    exact mem_map_of_mem hmem
  have hcard : users.card ≤ uses.length := by
    calc users.card ≤ (uses.map Prod.fst).toFinset.card := Finset.card_le_card hsubset
      _ ≤ (uses.map Prod.fst).length := toFinset_card_le _
      _ = uses.length := length_map _
  have hcount : uses.length + grant.usedCount ≤ max grant.usedCount maxUses.toNat :=
    consumed_le_of_chain hmax h.chain
  omega

omit [DecidableEq ι] in
theorem final_keeps_final (h : grant.Final) (log : List (ι × Option SessionGrant)) :
    Pool.final (fun i => (calls i).transaction services) (some grant) log = some grant := by
  refine Pool.final_keeps (P := fun value => value = some grant) ?_ rfl log
  rintro i value rfl
  simp only [GrantCall.transaction, Option.map_some, (h.effect (calls i)).1]

theorem Counts.revokedFor {grantId : String} {more : List (ι × Option SessionGrant)}
    {c c' : Pool grantStore GrantTable fun _ : ι => GrantDecision}
    (h : Counts services grantId calls grant log c)
    (h' : Counts services grantId calls grant (log ++ more) c') {i : ι} {now : ℤ} {actor : String}
    {decision : GrantDecision} (hcall : calls i = .revoke now actor)
    (hdone : c.threads i = .done decision) (hdone' : c'.threads i = .done decision)
    {trace : List (ι × grantStore.Exchange)}
    (hmoved : ∀ entry ∈ log, entry.1 ∈ trace.map Prod.fst) : RevokedFor grantId trace c' := by
  obtain ⟨pre, w, post, hsplit, hread, hresult, -⟩ := h.of_done hdone
  obtain ⟨read, rfl, -⟩ := effect_of_result hresult
  have hfinal : ((calls i).effect services read).1.Final := by
    rw [hcall]
    exact final_of_revoke now actor read
  have hleft : Pool.final (fun i => (calls i).transaction services) (some grant) log =
      some ((calls i).effect services read).1 := by
    rw [hsplit, Pool.final_append, ← hread, Pool.final_cons]
    exact final_keeps_final hfinal post
  constructor
  · rintro j hj ⟨other, hother, hcode⟩
    have hnew : j ∉ log.map Prod.fst := by
      intro hmem
      obtain ⟨entry, hentry, rfl⟩ := mem_map.mp hmem
      exact hj (hmoved entry hentry)
    obtain ⟨between, hlate⟩ := h'.of_done_later hother hnew
    rw [hleft, final_keeps_final hfinal between] at hlate
    obtain ⟨late, hlate', rfl⟩ := effect_of_result hlate
    obtain rfl := Option.some.inj hlate'
    exact (hfinal.effect (calls j)).2 hcode
  · obtain ⟨-, w, -, -, -, hresult', rest, -, hvalue⟩ := h'.of_done hdone'
    obtain ⟨read', rfl, -⟩ := effect_of_result hresult'
    have hfinal' : ((calls i).effect services read').1.Final := by
      rw [hcall]
      exact final_of_revoke now actor read'
    refine ⟨((calls i).effect services read').1, ?_, hfinal'⟩
    rw [hvalue]
    exact final_keeps_final hfinal' rest

/-- Any number of calls on one grant: in every run in which no call loads the grant while
another is about to save it, no more uses are reported than the grant may have; and once a
revocation has returned, no call that starts later reports a use and the stored grant cannot
be used any more. -/
theorem grant_uses_of_orderly (services : GrantServices) {grantId : String}
    (hid : isGrantId grantId = true) (calls : ι → GrantCall) {grants : GrantTable}
    {grant : SessionGrant} (hget : grants.get? grantId = some grant)
    {trace later : List (ι × grantStore.Exchange)}
    {c c' : Pool grantStore GrantTable fun _ : ι => GrantDecision}
    (hrun : Pool.Orderly grantHandler GrantOp.reads GrantOp.writes
      (racingCalls services grantId calls grants) trace c)
    (hlater : Pool.Orderly grantHandler GrantOp.reads GrantOp.writes c later c') :
    (∀ maxUses, grant.maxUses = some maxUses → UsesBounded maxUses c') ∧
    ∀ i now actor decision, calls i = .revoke now actor → c.threads i = .done decision →
      RevokedFor grantId trace c' := by
  have hstart : Pool.Serialized grantHandler (GrantTable.Present grantId)
      (fun grants => grants.get? grantId) GrantOp.reads GrantOp.writes
      (fun i => (calls i).transaction services) (some grant) []
      (racingCalls services grantId calls grants) := by
    have hpresent : GrantTable.Present grantId
        (racingCalls services grantId calls grants).state := ⟨grant, hget⟩
    rw [← hget]
    exact Pool.Serialized.start hpresent fun i => (calls i).performs hid
  obtain ⟨log, hlog, hmoved⟩ := hrun.serialized hstart
  rw [nil_append] at hlog
  obtain ⟨more, hmore, -⟩ := hlater.serialized hlog
  constructor
  · intro maxUses hmax
    exact Counts.usesBounded hmore hmax
  · intro i now actor decision hcall hdone
    exact Counts.revokedFor hlog hmore hcall hdone (hlater.done_of_done hdone) hmoved

end

def plainTexts : GrantServices := ⟨id, fun path => some [path], id⟩

def editGrant (maxUses : ℤ) : SessionGrant :=
  ⟨none, none, none, none, ["edit"], [], [], [], [], [], ⟨[], List.nodup_nil⟩, some "user",
    .approved, none, some maxUses, 0, 0⟩

def editGrantStored (maxUses : ℤ) : GrantTable := ⟨[("grant_1", editGrant maxUses)], by simp⟩

def useToEdit : GrantCall := .consume 1 ⟨"edit", none, none, none, none, none, none, none, none⟩

def revokeAndUse : Bool → GrantCall
  | false => .revoke 1 "user"
  | true => useToEdit

def revokeRace : Pool grantStore GrantTable fun _ : Bool => GrantDecision :=
  racingCalls plainTexts "grant_1" revokeAndUse (editGrantStored 2)

def useRace : Pool grantStore GrantTable fun _ : Bool => GrantDecision :=
  racingCalls plainTexts "grant_1" (fun _ => useToEdit) (editGrantStored 1)

/-- The revocation returns before the use loads the grant. -/
theorem revoked_before_use : UsesBounded 2 (revokeRace.play grantHandler [false, false, true]) ∧
    RevokedFor "grant_1" (revokeRace.trace grantHandler [false, false])
      (revokeRace.play grantHandler [false, false, true]) := by
  have hget : (editGrantStored 2).get? "grant_1" = some (editGrant 2) := rfl
  have hrun : Pool.Orderly grantHandler GrantOp.reads GrantOp.writes revokeRace
      (revokeRace.trace grantHandler [false, false])
      (revokeRace.play grantHandler [false, false]) := by
    refine .cons false _ _ rfl ?_ (.cons false _ _ rfl (fun h => h.elim) (.nil _))
    intro _ j
    cases j
    · exact Program.not_aboutToWrite_call (S := grantStore) (o := .load "grant_1") id
    · exact Program.not_aboutToWrite_call (S := grantStore) (o := .load "grant_1") id
  have hlater : Pool.Orderly grantHandler GrantOp.reads GrantOp.writes
      (revokeRace.play grantHandler [false, false])
      ((revokeRace.play grantHandler [false, false]).trace grantHandler [true])
      (revokeRace.play grantHandler [false, false, true]) := by
    refine .cons true _ _ rfl ?_ (.nil _)
    intro _ j
    cases j
    · rintro ⟨o, k, hdone, -⟩
      cases hdone
    · exact Program.not_aboutToWrite_call (S := grantStore) (o := .load "grant_1") id
  obtain ⟨huses, hrevoked⟩ := grant_uses_of_orderly plainTexts rfl revokeAndUse hget hrun hlater
  exact ⟨huses 2 rfl, hrevoked false 1 "user" _ rfl rfl⟩

/-- Both calls load the grant, then both save it: a grant for a single use is used twice. And a
use that loaded the grant before it was revoked saves it as approved. -/
theorem single_use_grant_used_twice : Pool.Runs grantHandler useRace
      (useRace.trace grantHandler [false, true, false, true])
      (useRace.play grantHandler [false, true, false, true]) ∧
    ¬UsesBounded 1 (useRace.play grantHandler [false, true, false, true]) ∧
    Pool.Runs grantHandler revokeRace
      (revokeRace.trace grantHandler [true, false, false, true])
      (revokeRace.play grantHandler [true, false, false, true]) ∧
    ¬RevokedFor "grant_1" (revokeRace.trace grantHandler [true, false, false])
      (revokeRace.play grantHandler [true, false, false, true]) := by
  refine ⟨Pool.runs_play _ _ _, fun hbounded => ?_, Pool.runs_play _ _ _, ?_⟩
  · have hcard := hbounded {false, true} fun i _ => by
      cases i
      · exact ⟨_, rfl, rfl⟩
      · exact ⟨_, rfl, rfl⟩
    exact absurd hcard (by decide)
  · rintro ⟨-, grant, hget, hfinal⟩
    obtain rfl := Option.some.inj hget
    rcases hfinal with hfinal | hfinal
    · cases hfinal
    · cases hfinal

end AIpinho.Grants
