import Mathlib.Data.List.Basic
import Mathlib.Data.List.Nodup

/-!
# Forests that grow

A list of nodes, each with a label and the index of its parent. Where every parent comes before
its children, the path from a node to its root is finite, and growth at the end keeps the paths.
-/

namespace AIpinho.Lib

variable {α : Type}

def rootPath (nodes : List (α × Option ℕ)) : ℕ → ℕ → List α
  | 0, _ => []
  | fuel + 1, i =>
    match nodes[i]? with
    | none => []
    | some (label, parent) =>
      label :: match parent with
        | none => []
        | some p => rootPath nodes fuel p

def ParentsFirst (nodes : List (α × Option ℕ)) : Prop :=
  ∀ (i : ℕ) (label : α) (p : ℕ), nodes[i]? = some (label, some p) → p < i

variable {nodes : List (α × Option ℕ)}

theorem rootPath_root {i : ℕ} {label : α} (h : nodes[i]? = some (label, none)) {fuel : ℕ}
    (hfuel : 0 < fuel) : rootPath nodes fuel i = [label] := by
  obtain ⟨n, rfl⟩ : ∃ n, fuel = n + 1 := ⟨fuel - 1, by omega⟩
  rw [rootPath, h]

theorem rootPath_fuel (h : ParentsFirst nodes) {i fuel fuel' : ℕ} (hfuel : i < fuel)
    (hfuel' : i < fuel') : rootPath nodes fuel i = rootPath nodes fuel' i := by
  induction i using Nat.strongRecOn generalizing fuel fuel' with
  | ind i ih =>
    obtain ⟨n, rfl⟩ : ∃ n, fuel = n + 1 := ⟨fuel - 1, by omega⟩
    obtain ⟨m, rfl⟩ : ∃ m, fuel' = m + 1 := ⟨fuel' - 1, by omega⟩
    rw [rootPath, rootPath]
    cases hnode : nodes[i]? with
    | none => rfl
    | some node =>
      obtain ⟨label, parent⟩ := node
      cases parent with
      | none => rfl
      | some p =>
        have hp := h i label p hnode
        have htail : rootPath nodes n p = rootPath nodes m p := ih p hp (by omega) (by omega)
        dsimp only
        rw [htail]

theorem rootPath_append (h : ParentsFirst nodes) (node : α × Option ℕ) {i fuel : ℕ}
    (hi : i < nodes.length) : rootPath (nodes ++ [node]) fuel i = rootPath nodes fuel i := by
  induction fuel generalizing i with
  | zero => rfl
  | succ fuel ih =>
    rw [rootPath, rootPath, List.getElem?_append_left hi]
    cases hnode : nodes[i]? with
    | none => rfl
    | some found =>
      obtain ⟨label, parent⟩ := found
      cases parent with
      | none => rfl
      | some p =>
        have hp := h i label p hnode
        dsimp only
        rw [ih (by omega)]

theorem rootPath_last (h : ParentsFirst nodes) (label : α) {p : ℕ} (hp : p < nodes.length)
    {fuel fuel' : ℕ} (hfuel : nodes.length < fuel) (hfuel' : p < fuel') :
    rootPath (nodes ++ [(label, some p)]) fuel nodes.length = label :: rootPath nodes fuel' p := by
  obtain ⟨n, rfl⟩ : ∃ n, fuel = n + 1 := ⟨fuel - 1, by omega⟩
  have hlast : (nodes ++ [(label, some p)])[nodes.length]? = some (label, some p) := by
    rw [List.getElem?_append_right (Nat.le_refl _), Nat.sub_self]
    rfl
  rw [rootPath, hlast]
  dsimp only
  rw [rootPath_append h _ hp, rootPath_fuel h (by omega) hfuel']

theorem ParentsFirst.append (h : ParentsFirst nodes) {label : α} {parent : Option ℕ}
    (hparent : ∀ p, parent = some p → p < nodes.length) :
    ParentsFirst (nodes ++ [(label, parent)]) := by
  intro i label' p hnode
  by_cases hi : i < nodes.length
  · rw [List.getElem?_append_left hi] at hnode
    exact h i label' p hnode
  · rw [List.getElem?_append_right (by omega)] at hnode
    have hmem := List.mem_of_getElem? hnode
    obtain ⟨-, hsame⟩ := Prod.mk.injEq .. ▸ List.mem_singleton.mp hmem
    have hp := hparent p hsame.symm
    omega

end AIpinho.Lib
