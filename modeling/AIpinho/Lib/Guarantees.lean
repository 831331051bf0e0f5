import AIpinho.Lib.Program

/-!
# Guarantees

A condition on the state that every party keeps, whatever the others do between its operations,
holds after every interleaving.
-/

namespace AIpinho.Lib

variable {S : Signature} {σ α β : Type}

/-- Whatever others do between its operations, as long as they keep a condition on the state, the
program keeps it, and returns what is in `Q`. -/
inductive Program.Respects (h : Handler S σ) (P : σ → Prop) (Q : α → Prop) : Program S α → Prop
  | done {a : α} (ha : Q a) : Respects h P Q (.done a)
  | raise (e : String) : Respects h P Q (.raise e)
  | call {o : S.Op} {k : S.Answer o → Program S α} (hkeeps : ∀ s, P s → P (h o s).2)
      (hnext : ∀ s, P s → Respects h P Q (k (h o s).1)) : Respects h P Q (.call o k)

variable {h : Handler S σ} {P : σ → Prop} {Q : α → Prop} {p : Program S α}

theorem Program.Respects.bind {Q' : β → Prop} {f : α → Program S β} (hp : p.Respects h P Q)
    (hf : ∀ a, Q a → (f a).Respects h P Q') : (p >>= f).Respects h P Q' := by
  induction hp with
  | done ha => exact hf _ ha
  | raise e => exact .raise e
  | call hkeeps _ ih => exact .call hkeeps ih

/-- Parties that all keep a condition whatever the others do keep it in every interleaving. -/
theorem Pool.Runs.keeps {ι : Type} [DecidableEq ι] {β : ι → Type} {c c' : Pool S σ β}
    {tr : List (ι × S.Exchange)} (hr : Runs h c tr c')
    (hthreads : ∀ i, (c.threads i).Respects h P fun _ => True) (hs : P c.state) : P c'.state := by
  induction hr with
  | nil => exact hs
  | cons i o k hi _ ih =>
    obtain ⟨hkeeps, hnext⟩ : (∀ s, P s → P (h o s).2) ∧
        ∀ s, P s → (k (h o s).1).Respects h P fun _ => True := by
      have hi' := hthreads i
      rw [hi] at hi'
      cases hi' with
      | call hkeeps hnext => exact ⟨hkeeps, hnext⟩
    refine ih (fun j => ?_) (hkeeps _ hs)
    by_cases hij : j = i
    · subst hij
      rw [advance_threads_self]
      exact hnext _ hs
    · rw [advance_threads_of_ne _ _ _ _ hij]
      exact hthreads j

end AIpinho.Lib
