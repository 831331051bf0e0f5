import Mathlib.Logic.Function.Basic
import Mathlib.Data.List.Basic

/-!
# Sequences of changes to a map

A list of changes, each a key with its new value, is applied to a map from left
to right. What is left at a key is its last change, or its old value if it has
none.
-/

namespace AIpinho.Lib

variable {α β : Type} [DecidableEq α]

variable (f : α → β)

def overlay (changes : List (α × β)) : α → β :=
  changes.foldl (fun f c => Function.update f c.1 c.2) f

def lastChange : List (α × β) → α → Option β
  | [], _ => none
  | c :: changes, a => (lastChange changes a).or (if c.1 = a then some c.2 else none)

@[simp] theorem overlay_nil : overlay f [] = f := rfl

@[simp] theorem overlay_cons (c : α × β) (changes : List (α × β)) :
    overlay f (c :: changes) = overlay (Function.update f c.1 c.2) changes := rfl

theorem overlay_apply (changes : List (α × β)) (a : α) :
    overlay f changes a = (lastChange changes a).getD (f a) := by
  induction changes generalizing f with
  | nil => rfl
  | cons c changes ih =>
    rw [overlay_cons, ih, lastChange]
    cases lastChange changes a with
    | some b => rfl
    | none =>
      by_cases hc : c.1 = a
      · simp [hc]
      · simp [hc, Function.update_of_ne (Ne.symm hc)]

theorem mem_of_lastChange {changes : List (α × β)} {a : α} {b : β}
    (h : lastChange changes a = some b) : (a, b) ∈ changes := by
  induction changes with
  | nil => cases h
  | cons c changes ih =>
    rw [lastChange] at h
    rcases Option.or_eq_some_iff.mp h with h | ⟨-, h⟩
    · exact List.mem_cons_of_mem _ (ih h)
    · split at h
      · cases h
        subst a
        exact List.mem_cons_self
      · cases h

end AIpinho.Lib
