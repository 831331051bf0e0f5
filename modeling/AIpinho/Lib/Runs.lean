import Mathlib.Algebra.GroupWithZero.Nat
import Mathlib.Data.List.Basic

/-!
# Runs

A run of a deterministic system takes the operations of a list. A property that each step keeps
under a condition holds after every run whose steps all meet the condition.
-/

namespace AIpinho.Lib

variable {σ ω : Type}

def run (step : σ → ω → σ) (s : σ) (ops : List ω) : σ := ops.foldl step s

/-- Each operation of a run is taken in a state that meets the condition. -/
def Along (step : σ → ω → σ) (cond : σ → ω → Prop) : σ → List ω → Prop
  | _, [] => True
  | s, op :: ops => cond s op ∧ Along step cond (step s op) ops

instance decidableAlong {step : σ → ω → σ} {cond : σ → ω → Prop}
    [∀ s op, Decidable (cond s op)] : ∀ s ops, Decidable (Along step cond s ops)
  | _, [] => inferInstanceAs (Decidable True)
  | s, op :: ops => @instDecidableAnd _ _ _ (decidableAlong (step s op) ops)

theorem run_append (step : σ → ω → σ) (s : σ) (ops ops' : List ω) :
    run step s (ops ++ ops') = run step (run step s ops) ops' := List.foldl_append

variable {step : σ → ω → σ}

theorem Along.of_append {cond : σ → ω → Prop} {s : σ} {ops : List ω} {op : ω} {ops' : List ω}
    (h : Along step cond s (ops ++ op :: ops')) : cond (run step s ops) op := by
  induction ops generalizing s with
  | nil => exact h.1
  | cons first ops ih => exact ih h.2

theorem Along.of_append_left {cond : σ → ω → Prop} {s : σ} {ops ops' : List ω}
    (h : Along step cond s (ops ++ ops')) : Along step cond s ops := by
  induction ops generalizing s with
  | nil => trivial
  | cons first ops ih => exact ⟨h.1, ih h.2⟩

theorem Along.of_append_right {cond : σ → ω → Prop} {s : σ} {ops ops' : List ω}
    (h : Along step cond s (ops ++ ops')) : Along step cond (run step s ops) ops' := by
  induction ops generalizing s with
  | nil => exact h
  | cons first ops ih => exact ih h.2

theorem along_and {cond cond' : σ → ω → Prop} {s : σ} {ops : List ω} :
    Along step (fun s op => cond s op ∧ cond' s op) s ops ↔
      Along step cond s ops ∧ Along step cond' s ops := by
  induction ops generalizing s with
  | nil => simp [Along]
  | cons op ops ih =>
    simp only [Along, ih]
    tauto

theorem run_invariant {cond : σ → ω → Prop} {P : σ → Prop}
    (hstep : ∀ s op, P s → cond s op → P (step s op)) {s : σ} {ops : List ω} (hs : P s)
    (hops : Along step cond s ops) : P (run step s ops) := by
  induction ops generalizing s with
  | nil => exact hs
  | cons op ops ih => exact ih (hstep s op hs hops.1) hops.2

/-- What each step is good for, as long as an invariant holds that the condition keeps, is met
along a run. -/
theorem Along.of_invariant {cond good : σ → ω → Prop} {P : σ → Prop}
    (hgood : ∀ s op, P s → cond s op → good s op)
    (hstep : ∀ s op, P s → cond s op → P (step s op)) {s : σ} (hs : P s) {ops : List ω}
    (hops : Along step cond s ops) : Along step good s ops := by
  induction ops generalizing s with
  | nil => trivial
  | cons op ops ih => exact ⟨hgood s op hs hops.1, ih (hstep s op hs hops.1) hops.2⟩

theorem run_always {P : σ → Prop} (hstep : ∀ s op, P s → P (step s op)) {s : σ} (hs : P s)
    (ops : List ω) : P (run step s ops) := by
  induction ops generalizing s with
  | nil => exact hs
  | cons op ops ih => exact ih (hstep s op hs)

theorem run_of_forall {A : ω → Prop} {P : σ → Prop}
    (hstep : ∀ s op, P s → A op → P (step s op)) {s : σ} {ops : List ω} (hs : P s)
    (hops : ∀ op ∈ ops, A op) : P (run step s ops) := by
  induction ops generalizing s with
  | nil => exact hs
  | cons op ops ih =>
    rw [List.forall_mem_cons] at hops
    exact ih (hstep s op hs hops.1) hops.2

/-- A measure that every step lowers by its cost counts the costs along a run. -/
theorem Along.measured {cond : σ → ω → Prop} {P : σ → Prop} {measure : σ → ℕ} {cost : ω → ℕ}
    (hstep : ∀ s op, P s → cond s op → P (step s op) ∧ measure (step s op) + cost op = measure s)
    {s : σ} {ops : List ω} (hops : Along step cond s ops) (hs : P s) :
    P (run step s ops) ∧ measure (run step s ops) + (ops.map cost).sum = measure s := by
  induction ops generalizing s with
  | nil => exact ⟨hs, rfl⟩
  | cons op ops ih =>
    obtain ⟨hnext, hcost⟩ := hstep s op hs hops.1
    obtain ⟨hend, hcosts⟩ := ih hops.2 hnext
    have hrun : run step s (op :: ops) = run step (step s op) ops := rfl
    rw [List.map_cons, List.sum_cons, hrun]
    exact ⟨hend, by omega⟩

theorem along_congr {cond cond' : σ → ω → Prop} {P : σ → Prop}
    (hcond : ∀ s op, P s → (cond s op ↔ cond' s op))
    (hstep : ∀ s op, P s → cond s op → P (step s op)) {s : σ} (hs : P s) (ops : List ω) :
    Along step cond s ops ↔ Along step cond' s ops := by
  induction ops generalizing s with
  | nil => exact Iff.rfl
  | cons op ops ih =>
    constructor
    · rintro ⟨hop, hops⟩
      exact ⟨(hcond s op hs).mp hop, (ih (hstep s op hs hop)).mp hops⟩
    · rintro ⟨hop, hops⟩
      have hop' := (hcond s op hs).mpr hop
      exact ⟨hop', (ih (hstep s op hs hop')).mpr hops⟩

end AIpinho.Lib
