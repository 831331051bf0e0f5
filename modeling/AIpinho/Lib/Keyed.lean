import Mathlib.Data.List.Nodup

/-!
# Rows with keys

A store keeps rows with distinct keys. To save a row is to drop the row with the same key and to
add the new one at the end.
-/

namespace AIpinho.Lib

open List

variable {α κ : Type} [DecidableEq κ]

def saveRow (key : α → κ) (row : α) (rows : List α) : List α :=
  rows.filter (fun other => key other ≠ key row) ++ [row]

variable {key : α → κ} {row other : α} {rows : List α}

theorem mem_saveRow_iff :
    other ∈ saveRow key row rows ↔ other ∈ rows ∧ key other ≠ key row ∨ other = row := by
  simp [saveRow, mem_filter]

theorem nodup_map_saveRow (h : (rows.map key).Nodup) : ((saveRow key row rows).map key).Nodup := by
  rw [saveRow, map_append, List.nodup_append]
  refine ⟨h.sublist (List.filter_sublist.map key), nodup_singleton _, ?_⟩
  rintro k hk l hl rfl
  obtain ⟨kept, hkept, rfl⟩ := mem_map.mp hk
  have hne : key kept ≠ key row := by simpa using (mem_filter.mp hkept).2
  exact hne (mem_singleton.mp hl)

theorem saveRow_of_new (h : ∀ other ∈ rows, key other ≠ key row) :
    saveRow key row rows = rows ++ [row] := by
  have hall : rows.filter (fun other => key other ≠ key row) = rows :=
    filter_eq_self.mpr fun other hother => decide_eq_true (h other hother)
  rw [saveRow, hall]

theorem find?_key_eq_some_iff (h : (rows.map key).Nodup) {k : κ} :
    rows.find? (fun other => key other = k) = some row ↔ row ∈ rows ∧ key row = k := by
  constructor
  · intro hfind
    have hkey := find?_some hfind
    exact ⟨mem_of_find?_eq_some hfind, by simpa using hkey⟩
  · rintro ⟨hmem, rfl⟩
    have hsome : (rows.find? fun other => key other = key row).isSome :=
      find?_isSome.mpr ⟨row, hmem, by simp⟩
    obtain ⟨found, hfound⟩ := Option.isSome_iff_exists.mp hsome
    have hkey : key found = key row := by simpa using find?_some hfound
    rw [hfound, inj_on_of_nodup_map h (mem_of_find?_eq_some hfound) hmem hkey]

theorem find?_key_saveRow (row : α) (rows : List α) (k : κ) :
    (saveRow key row rows).find? (fun other => key other = k) =
      if k = key row then some row else rows.find? fun other => key other = k := by
  rw [saveRow, find?_append]
  split
  · rename_i hk
    have hnone : (rows.filter fun other => key other ≠ key row).find?
        (fun other => key other = k) = none := by
      rw [find?_eq_none]
      intro other hother
      have hne : key other ≠ key row := by simpa using (mem_filter.mp hother).2
      simpa only [hk, decide_eq_true_eq] using hne
    rw [hnone]
    simp [hk]
  · rename_i hk
    have hrow : ¬key row = k := fun h => hk h.symm
    have hkept : (rows.filter fun other => key other ≠ key row).find?
        (fun other => key other = k) = rows.find? fun other => key other = k := by
      rw [find?_filter]
      congr 1
      funext other
      by_cases hother : key other = k
      · simp [hother, hk]
      · simp [hother]
    rw [hkept]
    simp [hrow]

end AIpinho.Lib
