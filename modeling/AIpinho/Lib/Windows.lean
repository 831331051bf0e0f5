import Mathlib.Data.List.Basic

/-!
# Windows cut before a filter

A list that is filtered after its first items were taken shows what the whole list shows
exactly as long as enough of the first items pass the filter or none of the others does.
-/

namespace AIpinho.Lib

open List

variable {α : Type} {p : α → Bool} {rows : List α} {n c : ℕ}

theorem take_eq_take_append_iff {first rest : List α} :
    first.take c = (first ++ rest).take c ↔ c ≤ first.length ∨ rest = [] := by
  rw [take_append, self_eq_append_right, take_eq_nil_iff, Nat.sub_eq_zero_iff_le]

theorem take_filter_take_eq_iff : ((rows.take n).filter p).take c = (rows.filter p).take c ↔
      c ≤ ((rows.take n).filter p).length ∨ ∀ row ∈ rows.drop n, p row = false := by
  have hsplit : rows.filter p = (rows.take n).filter p ++ (rows.drop n).filter p := by
    rw [← filter_append, take_append_drop]
  rw [hsplit, take_eq_take_append_iff, filter_eq_nil_iff]
  simp only [Bool.not_eq_true]

theorem le_length_filter_take_iff :
    (n ≤ ((rows.take n).filter p).length ∨ ∀ row ∈ rows.drop n, p row = false) ↔
      (∀ row ∈ rows.take n, p row = true) ∨ ∀ row ∈ rows.drop n, p row = false := by
  have hlength := length_filter_le p (rows.take n)
  have htake := length_take_le n rows
  constructor
  · rintro (hn | hrest)
    · exact .inl (length_filter_eq_length_iff.mp (by omega))
    · exact .inr hrest
  · rintro (hall | hrest)
    · by_cases hn : n ≤ rows.length
      · left
        rw [length_filter_eq_length_iff.mpr hall, length_take]
        omega
      · right
        rw [drop_of_length_le (by omega)]
        exact fun row hrow => absurd hrow not_mem_nil
    · exact .inr hrest

theorem forall_split_cons {P : List α → α → Prop} {first : α} :
    (∀ before row after, first :: rows = before ++ row :: after → P before row) ↔
      P [] first ∧ ∀ before row after, rows = before ++ row :: after → P (first :: before) row := by
  constructor
  · intro h
    exact ⟨h [] first rows rfl, fun before row after hrows =>
      h (first :: before) row after (by rw [hrows, cons_append])⟩
  · rintro ⟨hfirst, hrest⟩ before row after hrows
    cases before with
    | nil =>
      obtain ⟨rfl, -⟩ := List.cons.inj hrows
      exact hfirst
    | cons other before =>
      obtain ⟨rfl, hrest'⟩ := List.cons.inj hrows
      exact hrest before row after hrest'

theorem filter_window_eq_iff {q s : α → Bool} :
    (((rows.take n).filter q).take c).filter s = rows.filter (fun row => q row && s row) ↔
      ∀ before row after, rows = before ++ row :: after → q row = true → s row = true →
        before.length < n ∧ (before.filter q).length < c := by
  -- without a place in the window, nothing may pass both filters
  have hnone : ∀ rows : List α, [] = rows.filter (fun row => q row && s row) ↔
      ∀ before row after, rows = before ++ row :: after → q row = true → s row = true → False := by
    intro rows
    rw [eq_comm, filter_eq_nil_iff]
    constructor
    · rintro h before row after rfl hq hs
      exact h row (mem_append_right _ mem_cons_self) (by simp [hq, hs])
    · intro h row hrow hpass
      obtain ⟨before, after, hrows⟩ := append_of_mem hrow
      rw [Bool.and_eq_true] at hpass
      exact h before row after hrows hpass.1 hpass.2
  induction rows generalizing n c with
  | nil => simp
  | cons first rows ih =>
    cases n with
    | zero => simpa using hnone (first :: rows)
    | succ n =>
      cases c with
      | zero => simpa using hnone (first :: rows)
      | succ c =>
        rw [forall_split_cons (P := fun before row => q row = true → s row = true →
          before.length < n + 1 ∧ (before.filter q).length < c + 1), take_succ_cons]
        cases hq : q first with
        | false => simp [hq, ih]
        | true => cases hs : s first <;> simp [hq, hs, ih]

theorem key_notMem_of_mem_drop {κ : Type} {key : α → κ} (hnodup : (rows.map key).Nodup) {row : α}
    (h : row ∈ rows.drop n) : key row ∉ (rows.take n).map key := by
  rw [← take_append_drop n rows, map_append, List.nodup_append] at hnodup
  intro hmem
  exact hnodup.2.2 _ hmem _ (mem_map.mpr ⟨row, h, rfl⟩) rfl

end AIpinho.Lib
