import Mathlib.Logic.Function.Basic

/-!
# Programs that share a store

A program is a tree of operations with a continuation for every answer, so one text of a service
can be run alone, against arbitrary answers, or interleaved with other programs on a shared
state. The operations, their answers and the state are parameters.
-/

namespace AIpinho.Lib

open List

/-- The operations a program may perform, each with the type of its answer. -/
structure Signature where
  Op : Type
  Answer : Op → Type

/-- One operation together with the answer it received. -/
abbrev Signature.Exchange (S : Signature) : Type := Σ o : S.Op, S.Answer o

/-- The meaning of the operations on a state: each is one atomic step. -/
abbrev Handler (S : Signature) (σ : Type) : Type := (o : S.Op) → σ → S.Answer o × σ

/-- A program that returns an `α`, raises an error, or performs an operation
and continues with its answer. -/
inductive Program (S : Signature) (α : Type) : Type
  | done (a : α)
  | raise (e : String)
  | call (o : S.Op) (k : S.Answer o → Program S α)

namespace Program

variable {S : Signature} {α β γ σ : Type}

/-- Sequencing; an error ends the whole program. -/
def bind : Program S α → (α → Program S β) → Program S β
  | done a, f => f a
  | raise e, _ => raise e
  | call o k, f => call o (fun a => (k a).bind f)

instance : Monad (Program S) where
  pure := done
  bind := bind

def perform (o : S.Op) : Program S (S.Answer o) := call o done

@[simp] theorem pure_eq_done (a : α) : (pure a : Program S α) = done a := rfl

@[simp] theorem done_bind (a : α) (f : α → Program S β) : (done a >>= f) = f a := rfl

@[simp] theorem raise_bind (e : String) (f : α → Program S β) : (raise e >>= f) = raise e := rfl

@[simp] theorem call_bind (o : S.Op) (k : S.Answer o → Program S α) (f : α → Program S β) :
    (call o k >>= f) = call o (fun a => k a >>= f) := rfl

@[simp] theorem perform_bind (o : S.Op) (f : S.Answer o → Program S β) :
    (perform o >>= f) = call o f := rfl

theorem bind_assoc (p : Program S α) (f : α → Program S β) (g : β → Program S γ) :
    (p >>= f >>= g) = (p >>= fun a => f a >>= g) := by
  induction p with
  | done | raise => rfl
  | call o k ih =>
    simp only [call_bind]
    congr 1
    funext a
    exact ih a

/-- Execute a program alone on a state. -/
def run (h : Handler S σ) : Program S α → σ → Except String α × σ
  | done a, s => (.ok a, s)
  | raise e, s => (.error e, s)
  | call o k, s => (k (h o s).1).run h (h o s).2

@[simp] theorem run_done (h : Handler S σ) (a : α) (s : σ) :
    (done a : Program S α).run h s = (.ok a, s) := rfl

@[simp] theorem run_raise (h : Handler S σ) (e : String) (s : σ) :
    (raise e : Program S α).run h s = (.error e, s) := rfl

@[simp] theorem run_call (h : Handler S σ) (o : S.Op) (k : S.Answer o → Program S α) (s : σ) :
    (call o k).run h s = (k (h o s).1).run h (h o s).2 := rfl

/-- `p.Ends xs r`: receiving the answers in the exchanges `xs`, the program
ends with `r`. The answers are unconstrained, as if any environment gave them. -/
def Ends : Program S α → List S.Exchange → Except String α → Prop
  | done a, xs, r => xs = [] ∧ r = .ok a
  | raise e, xs, r => xs = [] ∧ r = .error e
  | call o k, xs, r => ∃ a ys, xs = ⟨o, a⟩ :: ys ∧ (k a).Ends ys r

variable {p : Program S α} {f : α → Program S β} {xs : List S.Exchange} {r : Except String β}
  {A : S.Op → Prop} {x : S.Exchange}

@[simp] theorem ends_done (a : α) (xs : List S.Exchange) (r : Except String α) :
    (done a : Program S α).Ends xs r ↔ xs = [] ∧ r = .ok a := Iff.rfl

@[simp] theorem ends_raise (e : String) (xs : List S.Exchange) (r : Except String α) :
    (raise e : Program S α).Ends xs r ↔ xs = [] ∧ r = .error e := Iff.rfl

theorem ends_bind : (p >>= f).Ends xs r ↔
      (∃ ys zs a, xs = ys ++ zs ∧ p.Ends ys (.ok a) ∧ (f a).Ends zs r) ∨
        ∃ e, p.Ends xs (.error e) ∧ r = .error e := by
  induction p generalizing xs with
  | done a =>
    constructor
    · intro h
      exact .inl ⟨[], xs, a, rfl, ⟨rfl, rfl⟩, h⟩
    · rintro (⟨ys, zs, a', rfl, ⟨rfl, ha⟩, h⟩ | ⟨e, ⟨-, he⟩, -⟩)
      · cases ha
        exact h
      · cases he
  | raise e =>
    constructor
    · rintro ⟨rfl, rfl⟩
      exact .inr ⟨e, ⟨rfl, rfl⟩, rfl⟩
    · rintro (⟨ys, zs, a', rfl, ⟨-, ha⟩, -⟩ | ⟨e', ⟨rfl, he⟩, rfl⟩)
      · cases ha
      · cases he
        exact ⟨rfl, rfl⟩
  | call o k ih =>
    constructor
    · rintro ⟨a, ys, rfl, h⟩
      rcases (ih a).mp h with ⟨ys', zs, a', rfl, hk, hf⟩ | ⟨e, hk, rfl⟩
      · exact .inl ⟨⟨o, a⟩ :: ys', zs, a', rfl, ⟨a, ys', rfl, hk⟩, hf⟩
      · exact .inr ⟨e, ⟨a, ys, rfl, hk⟩, rfl⟩
    · rintro (⟨ys, zs, a', rfl, ⟨a, ys', rfl, hk⟩, hf⟩ | ⟨e, ⟨a, ys, rfl, hk⟩, rfl⟩)
      · exact ⟨a, ys' ++ zs, rfl, (ih a).mpr (.inl ⟨ys', zs, a', rfl, hk, hf⟩)⟩
      · exact ⟨a, ys, rfl, (ih a).mpr (.inr ⟨e, hk, rfl⟩)⟩

theorem ends_of_ends_bind {ys : List S.Exchange} {a : α} (hp : p.Ends xs (.ok a))
    (h : (p >>= f).Ends (xs ++ ys) r) : (f a).Ends ys r := by
  induction p generalizing xs with
  | done b =>
    obtain ⟨rfl, heq⟩ := hp
    cases heq
    exact h
  | raise e => cases hp.2
  | call o k ih =>
    obtain ⟨answer, zs, rfl, hk⟩ := hp
    obtain ⟨answer', zs', heq, hk'⟩ := h
    obtain ⟨hfirst, hrest⟩ := List.cons.inj heq
    cases hfirst
    rw [← hrest] at hk'
    exact ih answer hk hk'

theorem ends_bind_ok {b : β} : (p >>= f).Ends xs (.ok b) ↔
      ∃ ys zs a, xs = ys ++ zs ∧ p.Ends ys (.ok a) ∧ (f a).Ends zs (.ok b) := by
  rw [ends_bind]
  simp

def exchanges (h : Handler S σ) : Program S α → σ → List S.Exchange
  | done _, _ => []
  | raise _, _ => []
  | call o k, s => ⟨o, (h o s).1⟩ :: (k (h o s).1).exchanges h (h o s).2

theorem ends_exchanges (h : Handler S σ) (p : Program S α) (s : σ) :
    p.Ends (p.exchanges h s) (p.run h s).1 := by
  induction p generalizing s with
  | done | raise => exact ⟨rfl, rfl⟩
  | call o k ih => exact ⟨(h o s).1, _, rfl, ih (h o s).1 (h o s).2⟩

theorem exists_ends_run (h : Handler S σ) (p : Program S α) (s : σ) :
    ∃ xs, p.Ends xs (p.run h s).1 := ⟨_, ends_exchanges h p s⟩

/-- A check of what a program returns when it runs alone is a check of one of
its ends. -/
theorem exists_ends_of_run {h : Handler S σ} {s : σ} {check : α → Bool}
    (hcheck : (p.run h s).1.toOption.any check = true) :
    ∃ xs a, p.Ends xs (.ok a) ∧ check a = true := by
  obtain ⟨xs, hends⟩ := exists_ends_run h p s
  cases hresult : (p.run h s).1 with
  | error e => simp [hresult, Except.toOption] at hcheck
  | ok a =>
    rw [hresult] at hends
    exact ⟨xs, a, hends, by simpa [hresult, Except.toOption] using hcheck⟩

/-- The program returns `a` if it is given suitable answers. -/
def Returns (p : Program S α) (a : α) : Prop := ∃ xs, p.Ends xs (.ok a)

theorem Ends.returns {a : α} (h : p.Ends xs (.ok a)) : p.Returns a := ⟨xs, h⟩

@[simp] theorem returns_done (a b : α) : (done a : Program S α).Returns b ↔ b = a := by
  simp [Returns]

@[simp] theorem returns_raise (e : String) (a : α) : ¬(raise e : Program S α).Returns a := by
  simp [Returns]

@[simp] theorem returns_bind {b : β} :
    (p >>= f).Returns b ↔ ∃ a, p.Returns a ∧ (f a).Returns b := by
  constructor
  · rintro ⟨xs, h⟩
    obtain ⟨ys, zs, a, -, hp, hf⟩ := ends_bind_ok.mp h
    exact ⟨a, ⟨ys, hp⟩, zs, hf⟩
  · rintro ⟨a, ⟨ys, hp⟩, zs, hf⟩
    exact ⟨ys ++ zs, ends_bind_ok.mpr ⟨ys, zs, a, rfl, hp, hf⟩⟩

@[simp] theorem returns_perform (o : S.Op) (a : S.Answer o) : (perform o).Returns a :=
  ⟨[⟨o, a⟩], a, [], rfl, rfl, rfl⟩

/-- Every operation the program may perform, whatever it is answered, is in `A`. -/
def Issues (A : S.Op → Prop) : Program S α → Prop
  | done _ => True
  | raise _ => True
  | call o k => A o ∧ ∀ a, (k a).Issues A

theorem Issues.bind (hp : p.Issues A) (hf : ∀ a, (f a).Issues A) : (p >>= f).Issues A := by
  induction p with
  | done a => exact hf a
  | raise e => trivial
  | call o k ih => exact ⟨hp.1, fun a => ih a (hp.2 a)⟩

theorem Issues.mono {B : S.Op → Prop} (hp : p.Issues A) (hAB : ∀ o, A o → B o) : p.Issues B := by
  induction p with
  | done | raise => trivial
  | call o k ih => exact ⟨hAB o hp.1, fun a => ih a (hp.2 a)⟩

theorem Issues.of_mem (hp : p.Issues A) {r : Except String α} (h : p.Ends xs r) (hx : x ∈ xs) :
    A x.1 := by
  induction p generalizing xs with
  | done | raise => simp [h.1] at hx
  | call o k ih =>
    obtain ⟨a, ys, rfl, hk⟩ := h
    rcases mem_cons.mp hx with rfl | hx
    · exact hp.1
    · exact ih a (hp.2 a) hk hx

/-- An exchange that the first part of a sequence cannot have belongs to the
second. -/
theorem Issues.ends_bind (hp : p.Issues A) {l l' : List S.Exchange} (hx : ¬A x.1)
    (h : (p >>= f).Ends (l ++ x :: l') r) :
    ∃ ys zs a, l = ys ++ zs ∧ p.Ends ys (.ok a) ∧ (f a).Ends (zs ++ x :: l') r := by
  rcases Program.ends_bind.mp h with ⟨ys, zs, a, hsplit, hys, hzs⟩ | ⟨e, hys, -⟩
  · have hnot : x ∉ ys := fun hmem => hx (hp.of_mem hys hmem)
    rcases append_eq_append_iff.mp hsplit with ⟨m, rfl, hm⟩ | ⟨m, rfl, rfl⟩
    · cases m with
      | nil => exact ⟨l, [], a, by simp, by simpa using hys, by rw [hm]; simpa using hzs⟩
      | cons y m =>
        obtain ⟨rfl, -⟩ := List.cons.inj hm
        simp at hnot
    · exact ⟨ys, m, a, rfl, hys, hzs⟩
  · exact absurd (hp.of_mem hys (by simp)) hx

theorem Issues.mem_of_bind (hp : p.Issues A) (hx : ¬A x.1) (h : (p >>= f).Ends xs r)
    (hmem : x ∈ xs) : ∃ ys zs a, xs = ys ++ zs ∧ p.Ends ys (.ok a) ∧ (f a).Ends zs r ∧ x ∈ zs := by
  obtain ⟨l, l', rfl⟩ := append_of_mem hmem
  obtain ⟨ys, zs, a, rfl, hys, hzs⟩ := hp.ends_bind hx h
  exact ⟨ys, zs ++ x :: l', a, append_assoc .., hys, hzs, by simp⟩

theorem Issues.ends_bind_left (hf : ∀ a, (f a).Issues A) {l l' : List S.Exchange} (hx : ¬A x.1)
    (h : (p >>= f).Ends (l ++ x :: l') r) :
    (∃ ys zs a, l' = ys ++ zs ∧ p.Ends (l ++ x :: ys) (.ok a) ∧ (f a).Ends zs r) ∨
      ∃ e, p.Ends (l ++ x :: l') (.error e) ∧ r = .error e := by
  rcases Program.ends_bind.mp h with ⟨ys, zs, a, hsplit, hys, hzs⟩ | herror
  · left
    have hnot : x ∉ zs := fun hmem => hx ((hf a).of_mem hzs hmem)
    rcases append_eq_append_iff.mp hsplit with ⟨m, rfl, hm⟩ | ⟨m, rfl, rfl⟩
    · cases m with
      | nil =>
        rw [nil_append] at hm
        simp [← hm] at hnot
      | cons y m =>
        obtain ⟨rfl, rfl⟩ := List.cons.inj hm
        exact ⟨m, zs, a, rfl, hys, hzs⟩
    · simp at hnot
  · exact .inr herror

/-- Every operation the program may perform is in `A`, and every result it may
end with is in `Q`. -/
def Ensures (A : S.Op → Prop) (Q : Except String α → Prop) : Program S α → Prop
  | done a => Q (.ok a)
  | raise e => Q (.error e)
  | call o k => A o ∧ ∀ a, (k a).Ensures A Q

variable {A : S.Op → Prop} {Q : Except String α → Prop} {p : Program S α} {xs : List S.Exchange}
  {r : Except String α}

theorem Ensures.bind {Q' : Except String β → Prop} {f : α → Program S β} (hp : p.Ensures A Q)
    (hf : ∀ a, Q (.ok a) → (f a).Ensures A Q') (he : ∀ e, Q (.error e) → Q' (.error e)) :
    (p >>= f).Ensures A Q' := by
  induction p with
  | done a => exact hf a hp
  | raise e => exact he e hp
  | call o k ih => exact ⟨hp.1, fun a => ih a (hp.2 a)⟩

theorem Ensures.of_ends (hp : p.Ensures A Q) (h : p.Ends xs r) : Q r ∧ ∀ x ∈ xs, A x.1 := by
  induction p generalizing xs with
  | done a =>
    obtain ⟨rfl, rfl⟩ := h
    exact ⟨hp, by simp⟩
  | raise e =>
    obtain ⟨rfl, rfl⟩ := h
    exact ⟨hp, by simp⟩
  | call o k ih =>
    obtain ⟨a, ys, rfl, hk⟩ := h
    obtain ⟨hQ, hA⟩ := ih a (hp.2 a) hk
    refine ⟨hQ, fun x hx => ?_⟩
    rcases mem_cons.mp hx with rfl | hx
    · exact hp.1
    · exact hA x hx

theorem Ensures.issues (hp : p.Ensures A Q) : p.Issues A := by
  induction p with
  | done | raise => trivial
  | call o k ih => exact ⟨hp.1, fun a => ih a (hp.2 a)⟩

/-- Every operation the program may perform, whatever it is answered, is one
that `J` allows after the exchanges `xs` and those of the program before it. -/
def Traced (J : List S.Exchange → S.Op → Prop) : Program S α → List S.Exchange → Prop
  | done _, _ => True
  | raise _, _ => True
  | call o k, xs => J xs o ∧ ∀ a, (k a).Traced J (xs ++ [⟨o, a⟩])

variable {J : List S.Exchange → S.Op → Prop}

theorem Traced.mono {J' : List S.Exchange → S.Op → Prop} (hp : p.Traced J xs)
    (hJ : ∀ xs o, J xs o → J' xs o) : p.Traced J' xs := by
  induction p generalizing xs with
  | done | raise => trivial
  | call o k ih => exact ⟨hJ xs o hp.1, fun a => ih a (hp.2 a)⟩

theorem Traced.bind {f : α → Program S β} (hp : p.Traced J xs)
    (hf : ∀ ys a, p.Ends ys (.ok a) → (f a).Traced J (xs ++ ys)) : (p >>= f).Traced J xs := by
  induction p generalizing xs with
  | done a =>
    have hdone := hf [] a ⟨rfl, rfl⟩
    rwa [append_nil] at hdone
  | raise e => trivial
  | call o k ih =>
    refine ⟨hp.1, fun a => ih a (hp.2 a) fun ys b hends => ?_⟩
    have hcall := hf (⟨o, a⟩ :: ys) b ⟨a, ys, rfl, hends⟩
    rwa [append_assoc, singleton_append]

theorem Traced.perform_bind {o : S.Op} {f : S.Answer o → Program S β} (ho : J xs o)
    (hf : ∀ a, (f a).Traced J (xs ++ [⟨o, a⟩])) :
    (perform o >>= f).Traced J xs := ⟨ho, hf⟩

theorem Traced.of_ends {ys zs : List S.Exchange} {x : S.Exchange} (hp : p.Traced J xs)
    (h : p.Ends (ys ++ x :: zs) r) : J (xs ++ ys) x.1 := by
  induction p generalizing xs ys with
  | done | raise => simp at h
  | call o k ih =>
    obtain ⟨a, ws, hws, hends⟩ := h
    cases ys with
    | nil =>
      obtain ⟨rfl, rfl⟩ := List.cons.inj hws
      rw [append_nil]
      exact hp.1
    | cons y ys =>
      obtain ⟨rfl, rfl⟩ := List.cons.inj hws
      have hrest := ih a (hp.2 a) hends
      rwa [append_assoc, singleton_append] at hrest

/-- A program that only issues operations of `A`, each of which keeps a
condition on the history under which it is allowed. -/
theorem Issues.traced {I : List S.Exchange → Prop} (hp : p.Issues A)
    (hJ : ∀ xs o, I xs → A o → J xs o) (hI : ∀ xs o a, I xs → A o → I (xs ++ [⟨o, a⟩]))
    (hxs : I xs) : p.Traced J xs := by
  induction p generalizing xs with
  | done | raise => trivial
  | call o k ih =>
    exact ⟨hJ xs o hxs hp.1, fun a => ih a (hp.2 a) (hI xs o a hxs hp.1)⟩

theorem Issues.history {I : List S.Exchange → Prop} (hp : p.Issues A)
    (hI : ∀ xs o a, I xs → A o → I (xs ++ [⟨o, a⟩])) {ys : List S.Exchange} (h : p.Ends ys r)
    (hxs : I xs) : I (xs ++ ys) := by
  induction p generalizing xs ys with
  | done a =>
    obtain ⟨rfl, -⟩ := h
    rwa [append_nil]
  | raise e =>
    obtain ⟨rfl, -⟩ := h
    rwa [append_nil]
  | call o k ih =>
    obtain ⟨a, zs, rfl, hends⟩ := h
    have hrest := ih a (hp.2 a) hends (hI xs o a hxs hp.1)
    rwa [append_assoc, singleton_append] at hrest

end Program

/-- Programs that run side by side on one state. -/
structure Pool (S : Signature) (σ : Type) {ι : Type} (β : ι → Type) where
  /-- What each party still has to do. -/
  threads : (i : ι) → Program S (β i)
  state : σ

namespace Pool

variable {S : Signature} {σ ι : Type} [DecidableEq ι] {β : ι → Type}

/-- Let party `i`, which is about to perform `o`, perform it. -/
def advance (h : Handler S σ) (c : Pool S σ β) (i : ι) (o : S.Op)
    (k : S.Answer o → Program S (β i)) : Pool S σ β :=
  ⟨Function.update c.threads i (k (h o c.state).1), (h o c.state).2⟩

@[simp] theorem advance_state (h : Handler S σ) (c : Pool S σ β) (i : ι) (o : S.Op)
    (k : S.Answer o → Program S (β i)) : (c.advance h i o k).state = (h o c.state).2 := rfl

@[simp] theorem advance_threads_self (h : Handler S σ) (c : Pool S σ β) (i : ι) (o : S.Op)
    (k : S.Answer o → Program S (β i)) :
    (c.advance h i o k).threads i = k (h o c.state).1 := by
  simp [advance]

theorem advance_threads_of_ne (h : Handler S σ) (c : Pool S σ β) {i j : ι} (o : S.Op)
    (k : S.Answer o → Program S (β i)) (hij : j ≠ i) :
    (c.advance h i o k).threads j = c.threads j := by
  simp [advance, hij]

/-- `Runs h c tr c'`: from `c`, the operations in `tr`, each tagged with the
party that performs it, lead to `c'`. -/
inductive Runs (h : Handler S σ) : Pool S σ β → List (ι × S.Exchange) → Pool S σ β → Prop
  | nil (c : Pool S σ β) : Runs h c [] c
  | cons {c c' : Pool S σ β} {tr : List (ι × S.Exchange)} (i : ι) (o : S.Op)
      (k : S.Answer o → Program S (β i)) (hi : c.threads i = .call o k)
      (hrest : Runs h (c.advance h i o k) tr c') :
      Runs h c ((i, ⟨o, (h o c.state).1⟩) :: tr) c'

variable {h : Handler S σ} {c c' : Pool S σ β} {tr : List (ι × S.Exchange)}

variable {tr₁ tr₂ : List (ι × S.Exchange)}

theorem Runs.split (hr : Runs h c (tr₁ ++ tr₂) c') : ∃ m, Runs h c tr₁ m ∧ Runs h m tr₂ c' := by
  induction tr₁ generalizing c with
  | nil => exact ⟨c, .nil c, hr⟩
  | cons x tr₁ ih =>
    cases hr with
    | cons i o k hi hrest =>
      obtain ⟨m, h₁, h₂⟩ := ih hrest
      exact ⟨m, .cons i o k hi h₁, h₂⟩

theorem Runs.append {c'' : Pool S σ β} (h₁ : Runs h c tr₁ c') (h₂ : Runs h c' tr₂ c'') :
    Runs h c (tr₁ ++ tr₂) c'' := by
  induction h₁ with
  | nil c => exact h₂
  | cons i o k hi _ ih => exact .cons i o k hi (ih h₂)

/-- Let the parties move in a given order; a party that has ended does not move. -/
def play (h : Handler S σ) : List ι → Pool S σ β → Pool S σ β
  | [], c => c
  | i :: order, c =>
    match c.threads i with
    | .call o k => play h order (c.advance h i o k)
    | _ => play h order c

/-- The operations performed when the parties move in a given order. -/
def trace (h : Handler S σ) : List ι → Pool S σ β → List (ι × S.Exchange)
  | [], _ => []
  | i :: order, c =>
    match c.threads i with
    | .call o k => (i, ⟨o, (h o c.state).1⟩) :: trace h order (c.advance h i o k)
    | _ => trace h order c

theorem runs_play (h : Handler S σ) (order : List ι) (c : Pool S σ β) :
    Runs h c (c.trace h order) (c.play h order) := by
  induction order generalizing c with
  | nil => exact .nil c
  | cons i order ih =>
    rw [play, trace]
    split
    · rename_i o k hi
      exact .cons i o k hi (ih (c.advance h i o k))
    · exact ih c

theorem trace_append (h : Handler S σ) (order order' : List ι) (c : Pool S σ β) :
    c.trace h (order ++ order') = c.trace h order ++ (c.play h order).trace h order' := by
  induction order generalizing c with
  | nil => rfl
  | cons i order ih =>
    simp only [cons_append, trace, play]
    split
    · rw [ih, cons_append]
    · exact ih c

theorem mem_order_of_mem_trace {order : List ι} {c : Pool S σ β} {x : ι × S.Exchange}
    (hx : x ∈ c.trace h order) : x.1 ∈ order := by
  induction order generalizing c with
  | nil => cases hx
  | cons i order ih =>
    rw [trace] at hx
    split at hx
    · rcases mem_cons.mp hx with rfl | hx
      · exact mem_cons_self
      · exact mem_cons_of_mem _ (ih hx)
    · exact mem_cons_of_mem _ (ih hx)

/-- The move of a party that is about to perform an operation. -/
theorem trace_cons {i : ι} {o : S.Op} {k : S.Answer o → Program S (β i)}
    (hi : c.threads i = .call o k) (order : List ι) :
    c.trace h (i :: order) = (i, ⟨o, (h o c.state).1⟩) :: (c.play h [i]).trace h order := by
  simp only [trace, play, hi]

/-- What a party has returned, if it has. -/
def result? (c : Pool S σ β) (i : ι) : Option (β i) :=
  match c.threads i with
  | .done a => some a
  | _ => none

omit [DecidableEq ι] in
theorem threads_of_result? {i : ι} {a : β i} (h : c.result? i = some a) :
    c.threads i = .done a := by
  rw [result?] at h
  split at h
  · rename_i b hb
    rw [hb, Option.some.inj h]
  · cases h

def exchanges (i : ι) (tr : List (ι × S.Exchange)) : List S.Exchange :=
  (tr.filter fun x => x.1 = i).map Prod.snd

theorem exchanges_append (i : ι) (tr₁ tr₂ : List (ι × S.Exchange)) :
    exchanges i (tr₁ ++ tr₂) = exchanges i tr₁ ++ exchanges i tr₂ := by
  simp [exchanges]

@[simp] theorem exchanges_cons_self (i : ι) (x : S.Exchange) (tr : List (ι × S.Exchange)) :
    exchanges i ((i, x) :: tr) = x :: exchanges i tr := by
  simp [exchanges]

theorem mem_exchanges {i : ι} {x : S.Exchange} {tr : List (ι × S.Exchange)} :
    x ∈ exchanges i tr ↔ (i, x) ∈ tr := by
  simp [exchanges]

theorem Runs.ends (hr : Runs h c tr c') {i : ι} {ys : List S.Exchange}
    {r : Except String (β i)} (hi : (c'.threads i).Ends ys r) :
    (c.threads i).Ends (exchanges i tr ++ ys) r := by
  induction hr with
  | nil c => exact hi
  | @cons c c' tr j o k hj hrest ih =>
    have hrest' := ih hi
    by_cases hij : i = j
    · subst hij
      rw [advance_threads_self] at hrest'
      rw [hj]
      refine ⟨_, _, ?_, hrest'⟩
      simp [exchanges]
    · rw [advance_threads_of_ne _ _ _ _ hij] at hrest'
      simpa [exchanges, Ne.symm hij] using hrest'

theorem Runs.state_eq (hr : Runs h c tr c') :
    c'.state = tr.foldl (fun s x => (h x.2.1 s).2) c.state := by
  induction hr with
  | nil c => rfl
  | cons i o k hi hrest ih => exact ih

theorem Runs.answer_eq {i : ι} {o : S.Op} {a : S.Answer o}
    (hr : Runs h c (tr₁ ++ (i, ⟨o, a⟩) :: tr₂) c') :
    a = (h o (tr₁.foldl (fun s x => (h x.2.1 s).2) c.state)).1 := by
  obtain ⟨m, h₁, h₂⟩ := hr.split
  rw [← h₁.state_eq]
  cases h₂
  rfl

theorem Runs.exists_ends (hr : Runs h c tr c') (i : ι) :
    ∃ ys r, (c'.threads i).Ends ys r ∧ (c.threads i).Ends (exchanges i tr ++ ys) r := by
  obtain ⟨ys, hys⟩ := Program.exists_ends_run h (c'.threads i) c'.state
  exact ⟨ys, _, hys, hr.ends hys⟩

end Pool

end AIpinho.Lib
