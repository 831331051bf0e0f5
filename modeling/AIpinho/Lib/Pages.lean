import Mathlib.Data.List.Pairwise
import Mathlib.Data.List.GetD
import Mathlib.Algebra.Order.Ring.Int
import Mathlib.Tactic.Ring
import Mathlib.Tactic.Linarith

/-!
# Pages

A client fetches a list page by page. Each page comes with a flag that promises more, and the
next page is asked for after the key of the last row. This file says when the pages are complete
and the flags right.
-/

namespace AIpinho.Lib

open List Option

section

variable {α : Type} (fetch : ℤ → List α × Bool) (key : α → ℤ)

def nextAfter (after : ℤ) (rows : List α) : ℤ := (rows.getLast?.map key).getD after

def collect : ℕ → ℤ → Option (List (List α × Bool))
  | 0, _ => none
  | fuel + 1, after =>
    let page := fetch after
    if page.2 then (collect fuel (nextAfter key after page.1)).map (page :: ·) else some [page]

def FlagsRight (pages : List (List α × Bool)) (target : List α) : Prop :=
  ∀ pre page post, pages = pre ++ page :: post →
    (page.2 = true ↔ ((pre ++ [page]).flatMap Prod.fst).length < target.length)

/-- Fetching ends, the pages hold the rows of the target once and in order, and the flag
of each page is right. -/
def Completes (after : ℤ) (target : List α) : Prop :=
  ∃ fuel pages, collect fetch key fuel after = some pages ∧
    pages.flatMap Prod.fst = target ∧ FlagsRight pages target

variable {fetch key} {after : ℤ} {target : List α}

theorem not_completes_of_always_more (h : ∀ after, (fetch after).2 = true) :
    ¬Completes fetch key after target := by
  rintro ⟨fuel, pages, hpages, -⟩
  induction fuel generalizing after pages with
  | zero => cases hpages
  | succ fuel ih =>
    rw [collect, if_pos (h after), map_eq_some_iff] at hpages
    obtain ⟨rest, hrest, -⟩ := hpages
    exact ih rest hrest

theorem completes_of_last (h : (fetch after).2 = false) :
    Completes fetch key after target ↔ (fetch after).1 = target := by
  constructor
  · rintro ⟨fuel, pages, hpages, hflat, -⟩
    cases fuel with
    | zero => cases hpages
    | succ fuel =>
      simp only [collect, h, Bool.false_eq_true, if_false, Option.some.injEq] at hpages
      subst hpages
      simpa using hflat
  · intro htarget
    refine ⟨1, [fetch after], ?_, by simpa using htarget, ?_⟩
    · simp only [collect, h, Bool.false_eq_true, if_false]
    · intro pre page post hsplit
      obtain ⟨rfl, rfl, rfl⟩ : pre = [] ∧ page = fetch after ∧ post = [] := by
        cases pre with
        | nil => simpa [eq_comm] using hsplit
        | cons first pre => simp at hsplit
      simp [h, htarget]

theorem flagsRight_cons {page : List α × Bool} {pages : List (List α × Bool)} {rest : List α}
    (hmore : page.2 = true) :
    FlagsRight (page :: pages) (page.1 ++ rest) ↔ rest ≠ [] ∧ FlagsRight pages rest := by
  constructor
  · intro h
    refine ⟨?_, ?_⟩
    · have hfirst := (h [] page pages rfl).mp hmore
      rintro rfl
      simp at hfirst
    · intro pre next post hsplit
      have hnext := h (page :: pre) next post (by rw [hsplit]; rfl)
      rw [hnext]
      simp
  · rintro ⟨hne, h⟩ pre next post hsplit
    cases pre with
    | nil =>
      simp only [nil_append, List.cons.injEq] at hsplit
      obtain ⟨rfl, rfl⟩ := hsplit
      have hpos := length_pos_iff.mpr hne
      simp [hmore, hpos]
    | cons first pre =>
      simp only [cons_append, List.cons.injEq] at hsplit
      obtain ⟨rfl, rfl⟩ := hsplit
      rw [h pre next post rfl]
      simp

theorem completes_of_more (h : (fetch after).2 = true) : Completes fetch key after target ↔
      ∃ rest, target = (fetch after).1 ++ rest ∧ rest ≠ [] ∧
        Completes fetch key (nextAfter key after (fetch after).1) rest := by
  constructor
  · rintro ⟨fuel, pages, hpages, hflat, hflags⟩
    cases fuel with
    | zero => cases hpages
    | succ fuel =>
      rw [collect, if_pos h, map_eq_some_iff] at hpages
      obtain ⟨rest, hrest, rfl⟩ := hpages
      rw [flatMap_cons] at hflat
      subst hflat
      obtain ⟨hne, hright⟩ := (flagsRight_cons h).mp hflags
      exact ⟨_, rfl, hne, fuel, rest, hrest, rfl, hright⟩
  · rintro ⟨rest, rfl, hne, fuel, pages, hpages, hflat, hflags⟩
    refine ⟨fuel + 1, fetch after :: pages, ?_, ?_, (flagsRight_cons h).mpr ⟨hne, hflags⟩⟩
    · rw [collect, if_pos h, hpages, map_some]
    · rw [flatMap_cons, hflat]

end

section

variable {α : Type} (rows : List α) (key : α → ℤ) (size : ℕ)

def fetchSorted (after : ℤ) : List α × Bool :=
  let page := (rows.filter fun row => key row > after).take size
  (page, decide (size ≤ page.length))

def StrictAt (position : ℕ) : Prop :=
  ∀ first second, rows[position - 1]? = some first → rows[position]? = some second →
    key first < key second

variable {rows key size} {after : ℤ} {target : List α}

theorem Completes.mem (h : Completes (fetchSorted rows key size) key after target) :
    ∀ row ∈ target, row ∈ rows ∧ after < key row := by
  obtain ⟨fuel, pages, hpages, rfl, -⟩ := h
  induction fuel generalizing after pages with
  | zero => cases hpages
  | succ fuel ih =>
    have hpage : ∀ row ∈ (fetchSorted rows key size after).1, row ∈ rows ∧ after < key row := by
      intro row hrow
      have hmem := mem_filter.mp (mem_of_mem_take hrow)
      exact ⟨hmem.1, by simpa using hmem.2⟩
    rw [collect] at hpages
    split at hpages
    · rw [map_eq_some_iff] at hpages
      obtain ⟨rest, hrest, rfl⟩ := hpages
      have hnext : after ≤ nextAfter key after (fetchSorted rows key size after).1 := by
        unfold nextAfter
        cases hlast : (fetchSorted rows key size after).1.getLast? with
        | none => exact le_refl _
        | some row => exact le_of_lt (hpage row (mem_of_getLast? hlast)).2
      intro row hrow
      rw [flatMap_cons, mem_append] at hrow
      rcases hrow with hrow | hrow
      · exact hpage row hrow
      · obtain ⟨hmem, hlt⟩ := ih rest hrest row hrow
        exact ⟨hmem, lt_of_le_of_lt hnext hlt⟩
    · cases hpages
      intro row hrow
      exact hpage row (by simpa using hrow)

theorem filter_key_of_strictAt (hsorted : rows.Pairwise fun first second => key first ≤ key second)
    {position : ℕ} (hpos : 0 < position) (hlt : position < rows.length)
    (hstrict : StrictAt rows key position) {last : α} (hlast : rows[position - 1]? = some last) :
    (rows.filter fun row => key row > key last) = rows.drop position := by
  have hsplit := take_append_drop position rows
  have hbefore : ∀ row ∈ rows.take position, key row ≤ key last := by
    intro row hrow
    obtain ⟨index, hindex, rfl⟩ := mem_iff_getElem.mp hrow
    rw [length_take] at hindex
    rw [getElem_take]
    obtain ⟨hbound, rfl⟩ := List.getElem?_eq_some_iff.mp hlast
    rcases eq_or_lt_of_le (by omega : index ≤ position - 1) with heq | hlt'
    · subst heq
      exact le_refl _
    · exact pairwise_iff_getElem.mp hsorted _ _ (by omega) (by omega) hlt'
  have hafter : ∀ row ∈ rows.drop position, key last < key row := by
    intro row hrow
    obtain ⟨index, hindex, rfl⟩ := mem_iff_getElem.mp hrow
    rw [length_drop] at hindex
    rw [getElem_drop]
    have hfirst := hstrict last _ hlast (getElem?_eq_getElem hlt)
    rcases Nat.eq_zero_or_pos index with rfl | hpos'
    · exact hfirst
    · exact lt_of_lt_of_le hfirst
        (pairwise_iff_getElem.mp hsorted _ _ (by omega) (by omega) (by omega))
  calc (rows.filter fun row => key row > key last)
      = ((rows.take position ++ rows.drop position).filter fun row => key row > key last) := by
        rw [hsplit]
    _ = rows.drop position := by
        rw [filter_append, filter_eq_nil_iff.mpr, filter_eq_self.mpr, nil_append]
        · intro row hrow
          simpa using hafter row hrow
        · intro row hrow
          simpa using hbefore row hrow

section

variable {position : ℕ} (hposition : (rows.filter fun row => key row > after) = rows.drop position)
include hposition

variable (size) in
theorem fetchSorted_eq : fetchSorted rows key size after =
    ((rows.drop position).take size, decide (size ≤ rows.length - position)) := by
  rw [fetchSorted, hposition]
  simp only [length_take, length_drop, Prod.mk.injEq, true_and, decide_eq_decide]
  omega

theorem completes_of_short (hshort : rows.length - position < size) :
    Completes (fetchSorted rows key size) key after (rows.drop position) := by
  have hpage := fetchSorted_eq size hposition
  have hlast : (fetchSorted rows key size after).2 = false := by
    rw [hpage, decide_eq_false_iff_not]
    omega
  rw [completes_of_last hlast, hpage]
  exact take_of_length_le (by rw [length_drop]; omega)

theorem completes_of_full (hfull : size ≤ rows.length - position) :
    Completes (fetchSorted rows key size) key after (rows.drop position) ↔
      rows.drop (position + size) ≠ [] ∧ Completes (fetchSorted rows key size) key
        (nextAfter key after ((rows.drop position).take size)) (rows.drop (position + size)) := by
  have hpage := fetchSorted_eq size hposition
  have hmore : (fetchSorted rows key size after).2 = true := by
    rw [hpage, decide_eq_true_eq]
    exact hfull
  have hrest : (rows.drop position).take size ++ rows.drop (position + size) =
      rows.drop position := by
    rw [← drop_drop, take_append_drop]
  rw [completes_of_more hmore, hpage]
  constructor
  · rintro ⟨rest, heq, hne, hcompletes⟩
    have hsame := append_cancel_left (hrest.trans heq)
    rw [← hsame] at hne hcompletes
    exact ⟨hne, hcompletes⟩
  · rintro ⟨hne, hcompletes⟩
    exact ⟨_, hrest.symm, hne, hcompletes⟩

end

theorem nextAfter_page {position : ℕ} (hsize : 0 < size) (hbound : position + size ≤ rows.length)
    {last : α} (hlast : rows[position + size - 1]? = some last) :
    nextAfter key after ((rows.drop position).take size) = key last := by
  have hgetLast : ((rows.drop position).take size).getLast? = some last := by
    rw [List.getLast?_eq_getElem?, length_take, length_drop,
      getElem?_take_of_lt (by omega), getElem?_drop, ← hlast]
    congr 1
    omega
  rw [nextAfter, hgetLast, map_some, getD_some]

theorem not_completes_of_not_strictAt {position : ℕ} {last : α}
    (hlast : rows[position - 1]? = some last) (hstrict : ¬StrictAt rows key position) :
    ¬Completes (fetchSorted rows key size) key (key last) (rows.drop position) := by
  intro hcompletes
  apply hstrict
  intro first second hfirst hsecond
  rw [hlast] at hfirst
  cases hfirst
  have hmem : second ∈ rows.drop position := by
    obtain ⟨hlt, rfl⟩ := List.getElem?_eq_some_iff.mp hsecond
    rw [drop_eq_getElem_cons hlt]
    exact mem_cons_self
  exact (hcompletes.mem second hmem).2

theorem strictAt_boundaries {position : ℕ} (hbound : position + size < rows.length) :
    (∀ k, 0 < k → position + k * size < rows.length → StrictAt rows key (position + k * size)) ↔
      StrictAt rows key (position + size) ∧ ∀ k, 0 < k → position + size + k * size < rows.length →
        StrictAt rows key (position + size + k * size) := by
  have hshift : ∀ k, position + (k + 1) * size = position + size + k * size := by
    intro k
    ring
  constructor
  · intro h
    refine ⟨?_, fun k _ hlt => ?_⟩
    · have hone := h 1 (by omega) (by omega)
      rwa [Nat.one_mul] at hone
    · rw [← hshift] at hlt ⊢
      exact h (k + 1) (by omega) hlt
  · rintro ⟨hfirst, h⟩ k hk hlt
    obtain ⟨j, rfl⟩ : ∃ j, k = j + 1 := ⟨k - 1, by omega⟩
    rw [hshift] at hlt ⊢
    rcases Nat.eq_zero_or_pos j with rfl | hj
    · simpa using hfirst
    · exact h j hj hlt

theorem completes_fetchSorted_from
    (hsorted : rows.Pairwise fun first second => key first ≤ key second) (hsize : 0 < size)
    {position : ℕ} (hposition : (rows.filter fun row => key row > after) = rows.drop position) :
    Completes (fetchSorted rows key size) key after (rows.drop position) ↔
      (rows.length - position = 0 ∨ ¬size ∣ rows.length - position) ∧
        ∀ k, 0 < k → position + k * size < rows.length →
          StrictAt rows key (position + k * size) := by
  -- The induction is on the number of rows that are left.
  induction hleft : rows.length - position using Nat.strong_induction_on generalizing
    position after with
  | _ left ih =>
    rcases lt_trichotomy left size with hshort | hfull | hlong
    · -- The last page is not full.
      refine iff_of_true (completes_of_short hposition (by omega)) ⟨?_, ?_⟩
      · rcases Nat.eq_zero_or_pos left with hzero | hpos
        · exact Or.inl hzero
        · exact Or.inr fun hdvd => absurd (Nat.le_of_dvd hpos hdvd) (by omega)
      · intro k hk hlt
        have hmul : size ≤ k * size := Nat.le_mul_of_pos_left size hk
        omega
    · -- The last page is full, and promises more.
      rw [completes_of_full hposition (by omega)]
      refine iff_of_false ?_ ?_
      · rintro ⟨hne, -⟩
        exact hne (drop_eq_nil_of_le (by omega))
      · rintro ⟨hzero | hdvd, -⟩
        · omega
        · exact hdvd (hfull ▸ Nat.dvd_refl left)
    have hbound : position + size < rows.length := by omega
    have hne : rows.drop (position + size) ≠ [] := by
      rw [Ne, drop_eq_nil_iff]
      omega
    obtain ⟨last, hlast⟩ : ∃ last, rows[position + size - 1]? = some last :=
      ⟨_, getElem?_eq_getElem (by omega)⟩
    rw [completes_of_full hposition (by omega), nextAfter_page hsize (le_of_lt hbound) hlast,
      and_iff_right hne, strictAt_boundaries hbound]
    by_cases hstrict : StrictAt rows key (position + size)
    · have hfilter := filter_key_of_strictAt hsorted (by omega) hbound hstrict hlast
      have hdvd : size ∣ left ↔ size ∣ left - size :=
        (Nat.dvd_sub_iff_left (le_of_lt hlong) (Nat.dvd_refl size)).symm
      rw [ih (left - size) (by omega) hfilter (by omega), ← hdvd, and_iff_right hstrict]
      refine and_congr_left fun _ => or_congr_left ?_
      omega
    · refine iff_of_false (not_completes_of_not_strictAt hlast hstrict) ?_
      rintro ⟨-, h, -⟩
      exact hstrict h

theorem completes_fetchSorted_iff
    (hsorted : rows.Pairwise fun first second => key first ≤ key second) (hsize : 0 < size)
    (hafter : ∀ row ∈ rows, after < key row) :
    Completes (fetchSorted rows key size) key after rows ↔ (rows.length = 0 ∨ ¬size ∣ rows.length) ∧
        ∀ k, 0 < k → k * size < rows.length → StrictAt rows key (k * size) := by
  have hall : (rows.filter fun row => key row > after) = rows.drop 0 := by
    rw [drop_zero, filter_eq_self]
    intro row hrow
    simpa using hafter row hrow
  have h := completes_fetchSorted_from hsorted hsize hall
  simpa only [drop_zero, Nat.sub_zero, Nat.zero_add] using h

end

end AIpinho.Lib
