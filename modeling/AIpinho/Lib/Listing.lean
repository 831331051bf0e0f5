import Mathlib.Data.List.DropRight
import Mathlib.Data.List.Sort
import Mathlib.Data.Int.Basic

/-!
# Slices and sorted lists

A slice `rows[i:]` counts from the end when `i` is negative, and its bounds are clamped to the
list; for `n = 0` the slice `rows[-n:]` is the whole list. Sorting by a key is stable, so
dropping elements and sorting commute.
-/

namespace AIpinho.Lib

open List

variable {α : Type*}

/-- `rows[i:]`. -/
def sliceFrom (rows : List α) (i : ℤ) : List α :=
  if i < 0 then rows.drop (rows.length - i.natAbs) else rows.drop i.toNat

theorem sliceFrom_neg (rows : List α) {n : ℕ} (hn : 0 < n) :
    sliceFrom rows (-(n : ℤ)) = rows.rtake n := by
  have hneg : -(n : ℤ) < 0 := by omega
  rw [sliceFrom, if_pos hneg, Int.natAbs_neg, Int.natAbs_natCast, List.rtake]

variable {rows : List α} {κ : Type*}

theorem rtake_of_length_le {n : ℕ} (h : rows.length ≤ n) : rows.rtake n = rows := by
  have hzero : rows.length - n = 0 := by omega
  rw [List.rtake, hzero, drop_zero]

theorem length_rtake (rows : List α) (n : ℕ) : (rows.rtake n).length = min n rows.length := by
  rw [List.rtake, length_drop]
  omega

theorem rtake_drop (rows : List α) (start n : ℕ) :
    (rows.drop start).rtake n = rows.drop (max start (rows.length - n)) := by
  rw [List.rtake, drop_drop, length_drop]
  rcases le_or_gt start rows.length with h | h
  · congr 1
    omega
  · rw [drop_eq_nil_of_le (by omega), drop_eq_nil_of_le (by omega)]

theorem insertionSort_eq_of_perm [LinearOrder κ] (key : α → κ) {sorted : List α}
    (hperm : rows.Perm sorted)
    (hsorted : sorted.Pairwise fun first second => key first < key second) :
    rows.insertionSort (fun first second => key first ≤ key second) = sorted := by
  let r : α → α → Prop := fun first second => key first ≤ key second
  have : Std.Total r := ⟨fun first second => le_total (key first) (key second)⟩
  have : IsTrans α r := ⟨fun _ _ _ => le_trans⟩
  have hkeys : (sorted.map key).Nodup := pairwise_map.mpr (hsorted.imp ne_of_lt)
  have hantisymm : ∀ first second, first ∈ rows.insertionSort r → second ∈ sorted →
      r first second → r second first → first = second := by
    intro first second hfirst hsecond hle hge
    have hmem : first ∈ sorted := hperm.subset ((perm_insertionSort r rows).subset hfirst)
    exact inj_on_of_nodup_map hkeys hmem hsecond (le_antisymm hle hge)
  exact List.Perm.eq_of_pairwise hantisymm (pairwise_insertionSort r rows)
    (hsorted.imp fun hlt => le_of_lt hlt) ((perm_insertionSort r rows).trans hperm)

theorem insertionSort_congr_of_perm {r : α → α → Prop} [DecidableRel r] [Std.Total r]
    [IsTrans α r] {rows' : List α} (hperm : rows.Perm rows')
    (hantisymm : ∀ a ∈ rows, ∀ b ∈ rows, r a b → r b a → a = b) :
    rows.insertionSort r = rows'.insertionSort r := by
  refine List.Perm.eq_of_pairwise (fun a b ha hb => ?_) (pairwise_insertionSort r rows)
    (pairwise_insertionSort r rows')
    (((perm_insertionSort r rows).trans hperm).trans (perm_insertionSort r rows').symm)
  exact hantisymm a ((mem_insertionSort r).mp ha) b
    (hperm.symm.subset ((mem_insertionSort r).mp hb))

theorem lt_of_mem_take_sorted [LinearOrder κ] (key : α → κ) (k : κ) (n : ℕ)
    (hn : n ≤ (rows.filter fun row => k < key row).length) :
    ∀ row ∈ (rows.insertionSort fun a b => key b ≤ key a).take n, k < key row := by
  let r : α → α → Prop := fun a b => key b ≤ key a
  have : Std.Total r := ⟨fun a b => le_total (key b) (key a)⟩
  have : IsTrans α r := ⟨fun _ _ _ hab hbc => le_trans hbc hab⟩
  have hsorted : (rows.insertionSort r).Pairwise r := pairwise_insertionSort r rows
  have hcount : ((rows.insertionSort r).filter fun row => k < key row).length =
      (rows.filter fun row => k < key row).length :=
    ((perm_insertionSort r rows).filter _).length_eq
  rw [← hcount] at hn
  change ∀ row ∈ (rows.insertionSort r).take n, k < key row
  generalize rows.insertionSort r = sorted at hsorted hn
  clear hcount
  induction sorted generalizing n with
  | nil =>
    intro row hrow
    rw [take_nil] at hrow
    cases hrow
  | cons first sorted ih =>
    rw [pairwise_cons] at hsorted
    cases n with
    | zero =>
      intro row hrow
      cases hrow
    | succ n =>
      have hfirst : k < key first := by
        by_contra hle
        have hnone : (first :: sorted).filter (fun row => k < key row) = [] := by
          rw [filter_eq_nil_iff]
          intro row hrow
          rcases mem_cons.mp hrow with rfl | hrow
          · simpa using hle
          · have hbelow : key row ≤ key first := hsorted.1 row hrow
            simpa using le_trans hbelow (not_lt.mp hle)
        rw [hnone] at hn
        simp at hn
      rw [filter_cons_of_pos (by simpa using hfirst), length_cons] at hn
      rw [take_succ_cons, forall_mem_cons]
      exact ⟨hfirst, ih n hsorted.2 (by omega)⟩

section Partial

variable {β : Type*} {r : α → α → Prop} [DecidableRel r] {s : β → β → Prop} [DecidableRel s]
  {f : α → Option β}

theorem filterMap_orderedInsert [IsTrans α r] {a : α} {rows : List α} (hsorted : rows.Pairwise r)
    (hf : ∀ b ∈ rows, ∀ a' b', f a = some a' → f b = some b' → (r a b ↔ s a' b')) :
    (rows.orderedInsert r a).filterMap f =
      (f a).elim (rows.filterMap f) fun a' => (rows.filterMap f).orderedInsert s a' := by
  induction rows with
  | nil => cases h : f a <;> simp [h]
  | cons b rows ih =>
    rw [pairwise_cons] at hsorted
    rw [forall_mem_cons] at hf
    cases ha : f a with
    | none =>
      rw [orderedInsert_cons]
      split
      · simp [filterMap_cons, ha]
      · rw [filterMap_cons, ih hsorted.2 hf.2, ha, filterMap_cons]
        rfl
    | some a' =>
      rw [orderedInsert_cons]
      split
      · rename_i hab
        have hfirst : ∀ b' ∈ (b :: rows).filterMap f, s a' b' := by
          intro b' hb'
          obtain ⟨c, hc, hfc⟩ := mem_filterMap.mp hb'
          rcases mem_cons.mp hc with rfl | hc
          · exact (hf.1 a' b' ha hfc).mp hab
          · exact (hf.2 c hc a' b' ha hfc).mp (IsTrans.trans _ _ _ hab (hsorted.1 c hc))
        rw [filterMap_cons, ha]
        cases hrest : (b :: rows).filterMap f with
        | nil => rfl
        | cons b' rest =>
          have hab' : s a' b' := hfirst b' (by rw [hrest]; exact mem_cons_self)
          exact (orderedInsert_cons_of_le s rest hab').symm
      · rename_i hab
        rw [filterMap_cons, filterMap_cons, ih hsorted.2 hf.2, ha]
        cases hb : f b with
        | none => rfl
        | some b' =>
          have hab' : ¬s a' b' := fun h => hab ((hf.1 a' b' ha hb).mpr h)
          exact (orderedInsert_of_not_le s _ hab').symm

theorem filterMap_insertionSort [IsTrans α r] [Std.Total r] {rows : List α}
    (hf : ∀ a ∈ rows, ∀ b ∈ rows, ∀ a' b', f a = some a' → f b = some b' → (r a b ↔ s a' b')) :
    (rows.insertionSort r).filterMap f = (rows.filterMap f).insertionSort s := by
  induction rows with
  | nil => rfl
  | cons a rows ih =>
    have hrest := ih fun b hb c hc => hf b (mem_cons_of_mem a hb) c (mem_cons_of_mem a hc)
    rw [insertionSort_cons, filterMap_orderedInsert (s := s) (pairwise_insertionSort r rows), hrest,
      filterMap_cons]
    · cases f a <;> rfl
    · intro b hb
      exact hf a mem_cons_self b (mem_cons_of_mem a ((mem_insertionSort r).mp hb))

end Partial

theorem insertionSort_eq_iff_perm [LinearOrder κ] {rows rows' : List κ} :
    rows.insertionSort (· ≤ ·) = rows'.insertionSort (· ≤ ·) ↔ rows.Perm rows' := by
  constructor
  · intro h
    exact (perm_insertionSort _ rows).symm.trans (h ▸ perm_insertionSort _ rows')
  · intro h
    have hperm : (rows.insertionSort (· ≤ ·)).Perm (rows'.insertionSort (· ≤ ·)) :=
      ((perm_insertionSort _ rows).trans h).trans (perm_insertionSort _ rows').symm
    exact hperm.eq_of_pairwise' (pairwise_insertionSort _ rows) (pairwise_insertionSort _ rows')

theorem find?_reverse_eq_some_iff [DecidableEq κ] {key : α → κ} {p : α → Bool}
    (hkeys : (rows.map key).Nodup) (hp : ∀ row ∈ rows, p row = true) {k : κ} {row : α} :
    rows.reverse.find? (fun row => key row = k && p row) = some row ↔ row ∈ rows ∧ key row = k := by
  constructor
  · intro h
    have hmem := mem_reverse.mp (mem_of_find?_eq_some h)
    have hrow := find?_some h
    rw [Bool.and_eq_true, decide_eq_true_eq] at hrow
    exact ⟨hmem, hrow.1⟩
  · rintro ⟨hmem, hkey⟩
    cases hfind : rows.reverse.find? (fun row => key row = k && p row) with
    | none =>
      have hnot := find?_eq_none.mp hfind row (mem_reverse.mpr hmem)
      simp [hkey, hp row hmem] at hnot
    | some other =>
      have hother := find?_some hfind
      rw [Bool.and_eq_true, decide_eq_true_eq] at hother
      rw [inj_on_of_nodup_map hkeys (mem_reverse.mp (mem_of_find?_eq_some hfind))
        hmem (hother.1.trans hkey.symm)]

theorem length_filter_keys [DecidableEq κ] {key : α → κ} {keys : List κ}
    (hrows : (rows.map key).Nodup) (hkeys : keys.Nodup) (hsubset : keys ⊆ rows.map key) :
    (rows.filter fun row => !keys.contains (key row)).length + keys.length = rows.length := by
  have hperm : ((rows.filter fun row => keys.contains (key row)).map key).Perm keys := by
    refine (perm_ext_iff_of_nodup (hrows.sublist (List.filter_sublist.map key)) hkeys).mpr ?_
    intro k
    constructor
    · intro hk
      obtain ⟨row, hrow, rfl⟩ := mem_map.mp hk
      exact contains_iff_mem.mp (mem_filter.mp hrow).2
    · intro hk
      obtain ⟨row, hrow, rfl⟩ := mem_map.mp (hsubset hk)
      exact mem_map.mpr ⟨row, mem_filter.mpr ⟨hrow, contains_iff_mem.mpr hk⟩, rfl⟩
  have hlength := hperm.length_eq
  rw [length_map] at hlength
  have hsplit := length_eq_length_filter_add (fun row => keys.contains (key row)) (l := rows)
  omega

theorem nodup_concat_iff {a : α} : (rows ++ [a]).Nodup ↔ a ∉ rows ∧ rows.Nodup := by
  rw [nodup_append_comm, singleton_append, nodup_cons]

theorem eraseDups_nodup [BEq α] [LawfulBEq α] (rows : List α) : rows.eraseDups.Nodup := by
  cases rows with
  | nil => exact nodup_nil
  | cons a rows =>
    have hlength : (rows.filter fun b => !b == a).length < rows.length + 1 :=
      Nat.lt_add_one_of_le (length_filter_le _ rows)
    rw [eraseDups_cons, nodup_cons, mem_eraseDups, mem_filter]
    exact ⟨by simp, eraseDups_nodup _⟩
termination_by rows.length

end AIpinho.Lib
