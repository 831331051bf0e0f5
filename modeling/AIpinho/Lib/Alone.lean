import AIpinho.Lib.Program

/-!
# Programs that run alone

Pre- and postconditions for a program that nothing interferes with, programs that
report their errors as values, a program for each item of a list, and programs over a
part of a larger system.
-/

namespace AIpinho.Lib

/-- The operations of one system among those of another. -/
structure Signature.Inclusion (S T : Signature) where
  /-- The operation of the larger system. -/
  op : S.Op → T.Op
  /-- Its answer, read by the smaller system. -/
  answer : ∀ o, T.Answer (op o) → S.Answer o

namespace Program

variable {S T : Signature} {α β σ τ : Type}

def attempt : Program S α → Program S (Except String α)
  | done a => done (.ok a)
  | raise e => done (.error e)
  | call o k => call o fun a => (k a).attempt

/-- The program over a larger system. -/
def hoist (i : S.Inclusion T) : Program S α → Program T α
  | done a => done a
  | raise e => raise e
  | call o k => call (i.op o) fun a => (k (i.answer o a)).hoist i

def passEach (f : α → β → Program S β) : List α → β → Program S β
  | [], b => done b
  | a :: as, b => f a b >>= passEach f as

section Run

variable (h : Handler S σ)

theorem run_bind_of_ok {p : Program S α} {f : α → Program S β} {s : σ} {a : α}
    (hp : (p.run h s).1 = .ok a) : (p >>= f).run h s = (f a).run h (p.run h s).2 := by
  induction p generalizing s with
  | done b =>
    cases hp
    rfl
  | raise e => cases hp
  | call o k ih => exact ih (h o s).1 hp

theorem run_bind_of_error {p : Program S α} {f : α → Program S β} {s : σ} {e : String}
    (hp : (p.run h s).1 = .error e) : (p >>= f).run h s = (.error e, (p.run h s).2) := by
  induction p generalizing s with
  | done b => cases hp
  | raise e =>
    cases hp
    rfl
  | call o k ih => exact ih (h o s).1 hp

theorem run_map (f : α → β) (p : Program S α) (s : σ) :
    (f <$> p).run h s = ((p.run h s).1.map f, (p.run h s).2) := by
  induction p generalizing s with
  | done | raise => rfl
  | call o k ih => exact ih (h o s).1 (h o s).2

@[simp] theorem run_attempt (p : Program S α) (s : σ) :
    p.attempt.run h s = (.ok (p.run h s).1, (p.run h s).2) := by
  induction p generalizing s with
  | done | raise => rfl
  | call o k ih => exact ih (h o s).1 (h o s).2

theorem run_attempt_bind (p : Program S α) (f : Except String α → Program S β) (s : σ) :
    (p.attempt >>= f).run h s = (f (p.run h s).1).run h (p.run h s).2 := by
  have hattempt := run_attempt h p s
  rw [run_bind_of_ok h (congrArg Prod.fst hattempt), hattempt]

end Run

/-- A part of a state that the operations of the smaller system work on, in the states
that have the part. -/
structure Part (i : S.Inclusion T) (h : Handler S σ) (H : Handler T τ) where
  Has : τ → Prop
  get : τ → σ
  set : σ → τ → τ
  has_set : ∀ s t, Has t → Has (set s t)
  get_set : ∀ s t, Has t → get (set s t) = s
  set_get : ∀ t, Has t → set (get t) t = t
  set_set : ∀ s s' t, Has t → set s' (set s t) = set s' t
  answer_eq : ∀ o t, i.answer o (H (i.op o) t).1 = (h o (get t)).1
  state_eq : ∀ o t, (H (i.op o) t).2 = set (h o (get t)).2 t

/-- A program of the smaller system runs on its part, and leaves the rest as it is. -/
theorem run_hoist {i : S.Inclusion T} {h : Handler S σ} {H : Handler T τ} (part : Part i h H)
    (p : Program S α) {t : τ} (ht : part.Has t) :
    (p.hoist i).run H t = ((p.run h (part.get t)).1, part.set (p.run h (part.get t)).2 t) := by
  induction p generalizing t with
  | done | raise => simp [hoist, part.set_get t ht]
  | call o k ih =>
    rw [hoist, run_call, run_call, part.answer_eq, part.state_eq, ih _ (part.has_set _ _ ht),
      part.get_set _ _ ht, part.set_set _ _ _ ht]

/-- From every state that meets the first condition, the program ends in a state that
meets the second with its result. -/
def Holds (h : Handler S σ) (P : σ → Prop) (p : Program S α) (Q : Except String α → σ → Prop) :
    Prop :=
  ∀ s, P s → Q (p.run h s).1 (p.run h s).2

variable {h : Handler S σ} {P : σ → Prop}

variable {p : Program S α} {f : α → Program S β}

theorem Holds.bind {M : Except String α → σ → Prop} {Q : Except String β → σ → Prop}
    (hp : p.Holds h P M) (hf : ∀ a, (f a).Holds h (M (.ok a)) Q)
    (he : ∀ e s, M (.error e) s → Q (.error e) s) : (p >>= f).Holds h P Q := by
  intro s hs
  have hM := hp s hs
  cases hresult : (p.run h s).1 with
  | ok a =>
    rw [run_bind_of_ok h hresult]
    exact hf a _ (hresult ▸ hM)
  | error e =>
    rw [run_bind_of_error h hresult]
    exact he e _ (hresult ▸ hM)

theorem Holds.mono {P' : σ → Prop} {Q Q' : Except String α → σ → Prop} (hp : p.Holds h P Q)
    (hP : ∀ s, P' s → P s) (hQ : ∀ r s, Q r s → Q' r s) :
    p.Holds h P' Q' := fun s hs => hQ _ _ (hp s (hP s hs))

theorem Holds.next {M : σ → Prop} {Q : Except String β → σ → Prop}
    (hp : p.Holds h P fun r s => (∃ a, r = .ok a) ∧ M s) (hf : ∀ a, (f a).Holds h M Q) :
    (p >>= f).Holds h P Q := by
  refine hp.bind (fun a => (hf a).mono (fun _ hs => hs.2) fun _ _ hq => hq) ?_
  rintro e s ⟨⟨a, ha⟩, -⟩
  cases ha

theorem Holds.raises_bind (hp : p.Holds h P fun r s => P s ∧ ∃ e, r = .error e)
    (f : α → Program S β) : (p >>= f).Holds h P fun r s => P s ∧ ∃ e, r = .error e := by
  refine hp.bind (fun a s hs => ?_) fun e s hs => ⟨hs.1, e, rfl⟩
  obtain ⟨-, e, he⟩ := hs
  cases he

def Keeps (h : Handler S σ) (P : σ → Prop) (p : Program S α) : Prop := p.Holds h P fun _ s => P s

theorem keeps_done (a : α) : (done a : Program S α).Keeps h P := fun _ hs => hs

theorem keeps_raise (e : String) : (raise e : Program S α).Keeps h P := fun _ hs => hs

theorem Keeps.bind (hp : p.Keeps h P) (hf : ∀ a, (f a).Keeps h P) : (p >>= f).Keeps h P :=
  Holds.bind hp hf fun _ _ hs => hs

theorem Keeps.attempt (hp : p.Keeps h P) : p.attempt.Keeps h P := by
  intro s hs
  rw [run_attempt]
  exact hp s hs

theorem Keeps.passEach {f : α → β → Program S β} {as : List α}
    (hf : ∀ a ∈ as, ∀ b, (f a b).Keeps h P) (b : β) : (passEach f as b).Keeps h P := by
  induction as generalizing b with
  | nil => exact keeps_done b
  | cons a as ih =>
    rw [List.forall_mem_cons] at hf
    exact (hf.1 b).bind (ih hf.2)

theorem Issues.keeps {A : S.Op → Prop} (hp : p.Issues A) (hA : ∀ o s, A o → P s → P (h o s).2) :
    p.Keeps h P := by
  induction p with
  | done a => exact keeps_done a
  | raise e => exact keeps_raise e
  | call o k ih => exact fun s hs => ih _ (hp.2 _) _ (hA o s hp.1 hs)

theorem Ensures.holds {A : S.Op → Prop} {Q : Except String α → Prop} (hp : p.Ensures A Q)
    (hA : ∀ o s, A o → P s → P (h o s).2) : p.Holds h P fun r s => Q r ∧ P s := by
  induction p with
  | done | raise => exact fun s hs => ⟨hp, hs⟩
  | call o k ih => exact fun s hs => ih _ (hp.2 _) _ (hA o s hp.1 hs)

end Program

end AIpinho.Lib
