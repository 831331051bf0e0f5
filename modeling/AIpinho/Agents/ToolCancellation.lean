import AIpinho.Agents.ToolPermissions

/-!
# Cancelling a call

A call writes its record from its own copy at every stage and never reads it, so a write of the
call after that of the cancellation takes the cancellation back.
-/

namespace AIpinho.Agents

open List Lib
open AIpinho.Grants (GrantQuery)
open AIpinho.Mission (MissionContract)

namespace ToolGateway

/-- The parties that write the record of a call. -/
inductive CallParty
  | invoker | canceller
  deriving DecidableEq

abbrev CallParty.Result : CallParty → Type
  | .invoker => ToolInvocation
  | .canceller => Option ToolInvocation

/-- What answers for grants and tools, with a state of its own. -/
structure ToolEnvironment (κ : Type) where
  grant : MissionContract → GrantQuery → Bool → κ → Except String (Option String) × κ
  execute : Execution → κ → ToolOutcome × κ

variable {κ : Type}

/-- `AgentToolInvocationStore` with the file of one call, beside the environment. -/
def invocationStore (environment : ToolEnvironment κ) :
    Handler gatewayStore (Option ToolInvocation × κ)
  | .save invocation, s => ((), (some invocation, s.2))
  | .load, s => (s.1, s)
  | .askGrant contract query consume, s =>
    ((environment.grant contract query consume s.2).1,
      (s.1, (environment.grant contract query consume s.2).2))
  | .execute execution, s =>
    ((environment.execute execution s.2).1, (s.1, (environment.execute execution s.2).2))

variable {Path : Type} (gateway : ToolGateway Path) (found : GatewayFindings)
  (request : ToolRequest) (now : String)

/-- A call and its cancellation, before either has begun: no record is written yet. -/
def race (inner : κ) : Pool gatewayStore (Option ToolInvocation × κ) CallParty.Result where
  threads
    | .invoker => gateway.invoke found request
    | .canceller => cancelInvocation now
  state := (none, inner)

abbrev CallStep : Type := CallParty × gatewayStore.Exchange

def wrote (party : CallParty) (invocation : ToolInvocation) : CallStep :=
  (party, ⟨.save invocation, ()⟩)

/-- The canceller is told that the invocation is cancelled. -/
def ReturnsCancelled (c : Pool gatewayStore (Option ToolInvocation × κ) CallParty.Result) : Prop :=
  ∃ invocation, c.result? .canceller = some (some invocation) ∧ invocation.status = .cancelled

/-- The cancellation lasts in a run: it writes the record, the stored status is cancelled ever
after, and if the call has not yet written that it runs, the tool is never executed. -/
structure StaysCancelled (environment : ToolEnvironment κ)
    (start : Pool gatewayStore (Option ToolInvocation × κ) CallParty.Result)
    (tr : List CallStep) : Prop where
  writes : ∃ tr₁ invocation tr₂, tr = tr₁ ++ wrote .canceller invocation :: tr₂
  stays : ∀ tr₁ invocation tr₂ later, tr = tr₁ ++ wrote .canceller invocation :: (tr₂ ++ later) →
    ∀ c, Pool.Runs (invocationStore environment) start
      (tr₁ ++ wrote .canceller invocation :: tr₂) c →
        c.state.1.map (·.status) = some .cancelled
  stops : ∀ tr₁ invocation tr₂, tr = tr₁ ++ wrote .canceller invocation :: tr₂ →
    (∀ running, wrote .invoker running ∈ tr₁ → running.status ≠ .running) →
      ∀ execution outcome, (.invoker, executed execution outcome) ∉ tr

/-- The invoker writes nothing after the canceller. -/
def WritesLast (tr : List CallStep) : Prop :=
  ∀ tr₁ invocation tr₂, tr = tr₁ ++ wrote .canceller invocation :: tr₂ →
    ∀ later, wrote .invoker later ∉ tr₂

/-- What a call may do after what it has done: it writes no cancelled record, reads none, and
executes the tool only after it has written that it runs. -/
def InvokerDoes (xs : List gatewayStore.Exchange) : GatewayOp → Prop
  | .save invocation => invocation.status ≠ .cancelled
  | .load => False
  | .askGrant .. => True
  | .execute _ => ∃ invocation, invocation.status = .running ∧ ⟨.save invocation, ()⟩ ∈ xs

variable {gateway found request now} {xs : List gatewayStore.Exchange}

variable {invocation : ToolInvocation} {judgement : Judgement}

theorem store_traced (h : invocation.status ≠ .cancelled) :
    (store invocation).Traced InvokerDoes xs := ⟨h, fun _ => trivial⟩

theorem askAuthority_traced (question : Option (MissionContract × GrantQuery)) :
    (askAuthority question).Traced InvokerDoes xs := by
  cases question with
  | none => trivial
  | some question =>
    refine ⟨trivial, fun answer => ?_⟩
    change Except String (Option String) at answer
    cases answer <;> trivial

theorem useAuthority_traced (question : Option (MissionContract × GrantQuery)) :
    (useAuthority question).Traced InvokerDoes xs := by
  cases question with
  | none => trivial
  | some question =>
    refine ⟨trivial, fun answer => ?_⟩
    change Except String (Option String) at answer
    cases answer <;> trivial

theorem ofExcept_traced {α : Type} (value : Except String α) :
    (GatewayProgram.ofExcept value).Traced InvokerDoes xs := by
  cases value <;> trivial

theorem perform_traced :
    (gateway.perform judgement request now invocation).Traced InvokerDoes xs := by
  refine ⟨by simp [InvokerDoes], fun _ => ?_⟩
  dsimp only [pure, Program.bind]
  cases gateway.execution judgement.tool request judgement.workspace with
  | error e => exact store_traced (by simp [completed])
  | ok execution =>
    refine ⟨⟨{ invocation with status := .running }, rfl, ?_⟩, fun outcome => store_traced ?_⟩
    · exact mem_append_right _ (mem_singleton.mpr rfl)
    · change ToolOutcome at outcome
      cases outcome <;> simp [completed, blocked]

theorem finish_traced {refused : Option String} : Program.Traced InvokerDoes (match refused with
      | some reasonCode => store (blocked now reasonCode invocation)
      | none => gateway.perform judgement request now invocation) xs := by
  cases refused with
  | some reasonCode => exact store_traced (by simp [blocked])
  | none => exact perform_traced

theorem proceed_traced {prepared : Prepared} {policy : PolicyDecision} :
    (gateway.proceed prepared judgement policy request now invocation).Traced InvokerDoes xs := by
  unfold proceed
  dsimp only
  split
  · refine (store_traced (by simp)).bind fun ys invocation _ => ?_
    split
    · exact (useAuthority_traced _).bind fun ys refused _ => finish_traced
    · exact perform_traced
  · change Program.Traced InvokerDoes (if _ then _ else _) xs
    split
    · exact (useAuthority_traced _).bind fun ys refused _ => finish_traced
    · exact perform_traced

theorem conclude_traced {prepared : Prepared} {policy : PolicyDecision} :
    (gateway.conclude prepared judgement policy request now invocation).Traced InvokerDoes xs := by
  unfold conclude
  dsimp only
  split
  · exact store_traced (by simp [blocked])
  · split
    · exact store_traced (by simp [blocked])
    · exact store_traced (by simp)
  · exact proceed_traced
  · exact store_traced (by simp [blocked])

theorem invoke_traced : (gateway.invoke found request).Traced InvokerDoes xs := by
  unfold invoke
  refine (ofExcept_traced _).bind fun ys prepared _ => ?_
  refine (askAuthority_traced _).bind fun ys authorityReady _ => ?_
  refine (store_traced (by simp [newInvocation])).bind fun ys invocation _ => ?_
  refine (ofExcept_traced _).bind fun ys policy _ => ?_
  exact (store_traced (by simp)).bind fun ys invocation _ => conclude_traced

def cancelledAt (now : String) (invocation : ToolInvocation) : ToolInvocation :=
  { invocation with status := .cancelled, completedAt := some now }

theorem cancelInvocation_ends {r : Except String (Option ToolInvocation)}
    (h : (cancelInvocation now).Ends xs r) :
    (∃ stored : Option ToolInvocation, xs = [⟨.load, stored⟩] ∧ r = .ok stored) ∨
      ∃ invocation : ToolInvocation, r = .ok (some (cancelledAt now invocation)) ∧
        xs = [⟨.load, some invocation⟩, ⟨.save (cancelledAt now invocation), ()⟩] := by
  obtain ⟨stored, ys, rfl, h⟩ := h
  change Option ToolInvocation at stored
  cases stored with
  | none =>
    obtain ⟨rfl, rfl⟩ := h
    exact .inl ⟨none, rfl, rfl⟩
  | some invocation =>
    change (if invocation.status.isFinal = true then
        (pure (some invocation) : GatewayProgram (Option ToolInvocation))
      else some <$> store (cancelledAt now invocation)).Ends ys r at h
    split at h
    · obtain ⟨rfl, rfl⟩ := h
      exact .inl ⟨some invocation, rfl, rfl⟩
    · obtain ⟨u, ys, rfl, rfl, rfl⟩ := h
      exact .inr ⟨invocation, rfl, rfl⟩

section Runs

variable {environment : ToolEnvironment κ} {inner : κ}
  {c : Pool gatewayStore (Option ToolInvocation × κ) CallParty.Result} {tr tr₁ tr₂ : List CallStep}

def storedAfter (environment : ToolEnvironment κ) (tr : List CallStep)
    (s : Option ToolInvocation × κ) : Option ToolInvocation × κ :=
  tr.foldl (fun s x => (invocationStore environment x.2.1 s).2) s

theorem storedAfter_of_not_wrote (s : Option ToolInvocation × κ)
    (h : ∀ party invocation, wrote party invocation ∉ tr) :
    (storedAfter environment tr s).1 = s.1 := by
  induction tr generalizing s with
  | nil => rfl
  | cons x tr ih =>
    have htail : ∀ party invocation, wrote party invocation ∉ tr :=
      fun party invocation hmem => h party invocation (mem_cons_of_mem _ hmem)
    rw [storedAfter, foldl_cons, ← storedAfter, ih _ htail]
    obtain ⟨party, o, a⟩ := x
    cases o with
    | save invocation => exact absurd (mem_cons_self ..) (h party invocation)
    | load | askGrant | execute => rfl

/-- A call takes its steps as it does alone. -/
theorem invokerDoes {x : gatewayStore.Exchange}
    (hruns : Pool.Runs (invocationStore environment) (race gateway found request now inner)
      (tr₁ ++ (.invoker, x) :: tr₂) c) :
    InvokerDoes (Pool.exchanges .invoker tr₁) x.1 := by
  obtain ⟨ys, r, -, hends⟩ := hruns.exists_ends .invoker
  rw [Pool.exchanges_append, Pool.exchanges_cons_self, append_assoc, cons_append] at hends
  have hdoes := (invoke_traced : (gateway.invoke found request).Traced InvokerDoes []).of_ends
    hends
  rwa [nil_append] at hdoes

theorem canceller_after_write {invocation : ToolInvocation}
    (hruns : Pool.Runs (invocationStore environment) (race gateway found request now inner)
      (tr₁ ++ wrote .canceller invocation :: tr₂) c) :
    invocation.status = .cancelled ∧ ∀ x ∈ tr₂, x.1 = .invoker := by
  obtain ⟨ys, r, -, hends⟩ := hruns.exists_ends .canceller
  rw [Pool.exchanges_append, wrote, Pool.exchanges_cons_self, append_assoc, cons_append] at hends
  rcases cancelInvocation_ends hends with ⟨stored, hxs, -⟩ | ⟨stored, -, hxs⟩
  · cases hbefore : Pool.exchanges .canceller tr₁ with
    | nil => rw [hbefore] at hxs; cases hxs
    | cons x before => rw [hbefore] at hxs; simp at hxs
  · cases hbefore : Pool.exchanges .canceller tr₁ with
    | nil => rw [hbefore] at hxs; cases hxs
    | cons x before =>
      rw [hbefore, cons_append] at hxs
      obtain ⟨-, hxs⟩ := List.cons.inj hxs
      cases before with
      | nil =>
        obtain ⟨hwrote, hafter⟩ := List.cons.inj hxs
        cases hwrote
        refine ⟨rfl, fun ⟨party, x⟩ hmem => ?_⟩
        cases party with
        | invoker => rfl
        | canceller =>
          have hnil := (append_eq_nil_iff.mp hafter).1
          exact absurd (Pool.mem_exchanges.mpr hmem) (by simp [hnil])
      | cons y before => simp at hxs

theorem not_cancelled_before
    (hruns : Pool.Runs (invocationStore environment) (race gateway found request now inner) tr c)
    (hquiet : ∀ invocation, wrote .canceller invocation ∉ tr) :
    (storedAfter environment tr (none, inner)).1.map (·.status) ≠ some .cancelled := by
  induction tr using List.reverseRecOn generalizing c with
  | nil => simp [storedAfter]
  | append_singleton tr x ih =>
    obtain ⟨m, hbefore, -⟩ := hruns.split
    have hrest := ih hbefore fun invocation hmem =>
      hquiet invocation (mem_append_left _ hmem)
    rw [storedAfter, foldl_append, ← storedAfter]
    obtain ⟨party, o, a⟩ := x
    cases o with
    | save invocation =>
      cases party with
      | canceller =>
        exact absurd (mem_append_right _ (mem_singleton.mpr rfl)) (hquiet invocation)
      | invoker =>
        have hdoes : invocation.status ≠ .cancelled := invokerDoes hruns
        exact fun heq => hdoes (Option.some.inj heq)
    | load | askGrant | execute => exact hrest

theorem wrote_of_returnsCancelled
    (hruns : Pool.Runs (invocationStore environment) (race gateway found request now inner) tr c)
    (hreturns : ReturnsCancelled c) :
    ∃ tr₁ invocation tr₂, tr = tr₁ ++ wrote .canceller invocation :: tr₂ := by
  obtain ⟨invocation, hresult, hcancelled⟩ := hreturns
  have hdone : (c.threads .canceller).Ends [] (.ok (some invocation)) := by
    rw [Pool.threads_of_result? hresult]
    exact ⟨rfl, rfl⟩
  have hends := hruns.ends hdone
  rw [append_nil] at hends
  rcases cancelInvocation_ends hends with ⟨stored, hxs, hr⟩ | ⟨stored, -, hxs⟩
  · cases hr
    -- what it has read is what was stored, and that was not cancelled
    have hload : ((.canceller, ⟨.load, some invocation⟩) : CallStep) ∈ tr :=
      Pool.mem_exchanges.mp (by rw [hxs]; exact mem_singleton.mpr rfl)
    have hquiet : ∀ other, wrote .canceller other ∉ tr := fun other hmem => by
      have hother := Pool.mem_exchanges.mpr hmem
      rw [hxs] at hother
      cases mem_singleton.mp hother
    obtain ⟨before, after, rfl⟩ := append_of_mem hload
    obtain ⟨m, hbefore, -⟩ := hruns.split
    have hstored : some invocation = (storedAfter environment before (none, inner)).1 :=
      hruns.answer_eq
    refine absurd ?_ (not_cancelled_before hbefore fun other hmem =>
      hquiet other (mem_append_left _ hmem))
    rw [← hstored, Option.map_some, hcancelled]
  · have hsave : wrote .canceller (cancelledAt now stored) ∈ tr :=
      Pool.mem_exchanges.mp (by rw [hxs]; simp)
    obtain ⟨before, after, hsplit⟩ := append_of_mem hsave
    exact ⟨before, _, after, hsplit⟩

/-- A cancellation that returns the record as cancelled lasts exactly if the call writes nothing
after it. -/
theorem stays_cancelled_iff
    (hruns : Pool.Runs (invocationStore environment) (race gateway found request now inner) tr c)
    (hreturns : ReturnsCancelled c) :
    StaysCancelled environment (race gateway found request now inner) tr ↔ WritesLast tr := by
  constructor
  · rintro hstays tr₁ invocation tr₂ rfl later hlater
    obtain ⟨before, after, rfl⟩ := append_of_mem hlater
    have hsplit : tr₁ ++ wrote .canceller invocation :: (before ++ wrote .invoker later :: after) =
        (tr₁ ++ wrote .canceller invocation :: before) ++ wrote .invoker later :: after := by
      simp
    rw [hsplit] at hruns
    have hnot : later.status ≠ .cancelled := invokerDoes hruns
    rw [append_cons] at hruns
    obtain ⟨m, hpart, -⟩ := hruns.split
    have hstored : m.state.1 = some later := by
      rw [hpart.state_eq, foldl_append]
      rfl
    rw [append_assoc, cons_append] at hpart
    have hstatus := hstays.stays tr₁ invocation (before ++ [wrote .invoker later]) after (by simp)
      m hpart
    rw [hstored] at hstatus
    exact hnot (Option.some.inj hstatus)
  · intro hlast
    refine ⟨wrote_of_returnsCancelled hruns hreturns, ?_, ?_⟩
    · rintro tr₁ invocation tr₂ later rfl m hm
      obtain ⟨hcancelled, hinvoker⟩ := canceller_after_write hm
      have hquiet : ∀ party other, wrote party other ∉ tr₂ := by
        intro party other hmem
        cases party with
        | invoker => exact hlast tr₁ invocation _ rfl other (mem_append_left _ hmem)
        | canceller => cases hinvoker _ hmem
      have hstate : m.state = storedAfter environment tr₂ (some invocation,
          (storedAfter environment tr₁ (none, inner)).2) := by
        rw [hm.state_eq, foldl_append, foldl_cons]
        rfl
      rw [hstate, storedAfter_of_not_wrote _ hquiet, Option.map_some, hcancelled]
    · rintro tr₁ invocation tr₂ rfl hnotyet execution outcome hmem
      obtain ⟨before, after, hsplit⟩ := append_of_mem hmem
      rw [hsplit] at hruns
      obtain ⟨running, hrunning, hwrote⟩ := invokerDoes hruns
      have hstep : wrote .invoker running ∈ tr₁ ++ wrote .canceller invocation :: tr₂ := by
        rw [hsplit]
        exact mem_append_left _ (Pool.mem_exchanges.mp hwrote)
      rcases mem_append.mp hstep with hbefore | hrest
      · exact hnotyet running hbefore hrunning
      · rcases mem_cons.mp hrest with heq | hafter
        · cases heq
        · exact hlast tr₁ invocation tr₂ rfl running hafter

end Runs

def succeedingEnvironment : ToolEnvironment Unit where
  grant _ _ _ _ := (.ok none, ())
  execute _ _ := (.succeeded [], ())

def sampleRace : Pool gatewayStore (Option ToolInvocation × Unit) CallParty.Result :=
  race systemGateway (createFileCall none) namedApproval "now" ()

def sampleTrace (order : List CallParty) : List CallStep :=
  sampleRace.trace (invocationStore succeedingEnvironment) order

def sampleEnd (order : List CallParty) :
    Pool gatewayStore (Option ToolInvocation × Unit) CallParty.Result :=
  sampleRace.play (invocationStore succeedingEnvironment) order

theorem returnsCancelled_of_status
    {c : Pool gatewayStore (Option ToolInvocation × κ) CallParty.Result}
    (h : (c.result? .canceller).any (fun returned : Option ToolInvocation =>
      returned.any (·.status = .cancelled)) = true) : ReturnsCancelled c := by
  obtain ⟨returned, hresult, hreturned⟩ := (Option.any_eq_true _ _).mp h
  obtain ⟨invocation, rfl, hcancelled⟩ := (Option.any_eq_true _ _).mp hreturned
  exact ⟨invocation, hresult, of_decide_eq_true hcancelled⟩

/-- The cancellation reads before the last write of the call and writes after it. -/
theorem stays_cancelled_iff_late : StaysCancelled succeedingEnvironment sampleRace
        (sampleTrace [.invoker, .invoker, .invoker, .invoker, .canceller, .invoker, .canceller]) ↔
      WritesLast
        (sampleTrace [.invoker, .invoker, .invoker, .invoker, .canceller, .invoker, .canceller]) :=
  stays_cancelled_iff (Pool.runs_play _ _ _) (returnsCancelled_of_status (by decide +kernel))

/-- The call is cancelled before its tool is executed; the tool is executed, and in the end the
call has succeeded. -/
theorem cancellation_is_taken_back :
    ¬∀ (gateway : ToolGateway String) (found : GatewayFindings) (request : ToolRequest)
      (now : String) (environment : ToolEnvironment Unit)
      (c : Pool gatewayStore (Option ToolInvocation × Unit) CallParty.Result)
      (tr : List CallStep),
      Pool.Runs (invocationStore environment) (race gateway found request now ()) tr c →
        ReturnsCancelled c → StaysCancelled environment (race gateway found request now ()) tr := by
  intro h
  have hruns := Pool.runs_play (invocationStore succeedingEnvironment)
    [.invoker, .canceller, .canceller, .invoker, .invoker, .invoker, .invoker] sampleRace
  have hstays := h _ _ _ _ _ _ _ hruns (returnsCancelled_of_status (by decide +kernel))
  obtain ⟨tr₁, invocation, tr₂, hsplit⟩ := hstays.writes
  have hstatus := hstays.stays tr₁ invocation tr₂ [] (by rw [append_nil]; exact hsplit) _
    (hsplit ▸ hruns)
  have hsucceeded : (sampleEnd [.invoker, .canceller, .canceller, .invoker, .invoker, .invoker,
      .invoker]).state.1.map (·.status) = some .succeeded := by decide +kernel
  cases hsucceeded.symm.trans hstatus

end ToolGateway

end AIpinho.Agents
