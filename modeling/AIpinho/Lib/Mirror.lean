import Mathlib.Data.List.Basic

/-!
# Lists kept in step with a history

A service that works through a plan keeps several lists with one item for each position, and
changes the item at the position it has reached. `view` says how an item looks after the event
at its position, or before there is one.
-/

namespace AIpinho.Lib

open List

variable {α ε κ : Type}

/-- Change the first element that meets a condition. -/
def updateFirst (p : α → Bool) (f : α → α) : List α → List α
  | [] => []
  | a :: as => if p a then f a :: as else a :: updateFirst p f as

variable {f : α → α} {as : List α}

variable {key : α → κ}

theorem updateFirst_eq_modify [DecidableEq κ] {k : κ} {i : ℕ} (hnodup : (as.map key).Nodup)
    (hi : (as.map key)[i]? = some k) : updateFirst (fun a => key a = k) f as = as.modify i f := by
  induction as generalizing i with
  | nil => simp at hi
  | cons a as ih =>
    rw [map_cons, nodup_cons] at hnodup
    cases i with
    | zero =>
      have ha : key a = k := by simpa using hi
      simp [updateFirst, ha]
    | succ i =>
      have htail : (as.map key)[i]? = some k := by simpa using hi
      have hne : key a ≠ k := by
        rintro rfl
        exact hnodup.1 (mem_of_getElem? htail)
      simp [updateFirst, hne, ih hnodup.2 htail]

theorem updateFirst_eq_map [DecidableEq κ] {k : κ} (hnodup : (as.map key).Nodup) :
    updateFirst (fun a => key a = k) f as = as.map fun a => if key a = k then f a else a := by
  induction as with
  | nil => rfl
  | cons a as ih =>
    rw [map_cons, nodup_cons] at hnodup
    by_cases ha : key a = k
    · have hrest : (as.map fun b => if key b = k then f b else b) = as := by
        rw [map_congr_left (g := id), map_id]
        intro b hb
        have hne : key b ≠ k := by
          rintro hbk
          exact hnodup.1 (mem_map.mpr ⟨b, hb, hbk.trans ha.symm⟩)
        simp [hne]
      simp [updateFirst, ha, hrest]
    · simp [updateFirst, ha, ih hnodup.2]

theorem map_updateFirst {p : α → Bool} (hf : ∀ a, key (f a) = key a) (as : List α) :
    (updateFirst p f as).map key = as.map key := by
  induction as with
  | nil => rfl
  | cons a as ih =>
    by_cases ha : p a = true
    · simp [updateFirst, ha, hf]
    · simp [updateFirst, ha, ih]

theorem map_updateFirst_of_view {β : Type} {view : α → β} {p : α → Bool} {q : β → Bool}
    {g : β → β} (hp : ∀ a, p a = q (view a)) (hf : ∀ a, view (f a) = g (view a)) (as : List α) :
    (updateFirst p f as).map view = updateFirst q g (as.map view) := by
  induction as with
  | nil => rfl
  | cons a as ih =>
    by_cases ha : p a = true
    · have hq : q (view a) = true := by rw [← hp, ha]
      simp [updateFirst, ha, hq, hf]
    · have hq : ¬q (view a) = true := by rw [← hp]; exact ha
      simp [updateFirst, ha, hq, ih]

theorem mem_updateFirst {p : α → Bool} {b : α} (h : b ∈ updateFirst p f as) :
    b ∈ as ∨ ∃ a ∈ as, b = f a := by
  induction as with
  | nil => simp [updateFirst] at h
  | cons a as ih =>
    by_cases ha : p a = true
    · simp only [updateFirst, ha, if_true, mem_cons] at h
      rcases h with rfl | h
      · exact .inr ⟨a, mem_cons_self, rfl⟩
      · exact .inl (mem_cons_of_mem _ h)
    · simp only [updateFirst, ha, Bool.false_eq_true, if_false, mem_cons] at h
      rcases h with rfl | h
      · exact .inl mem_cons_self
      · rcases ih h with h | ⟨c, hc, rfl⟩
        · exact .inl (mem_cons_of_mem _ h)
        · exact .inr ⟨c, mem_cons_of_mem _ hc, rfl⟩

theorem find?_eq_getElem? [DecidableEq κ] {k : κ} {i : ℕ} (hnodup : (as.map key).Nodup)
    (hi : (as.map key)[i]? = some k) : as.find? (fun a => key a = k) = as[i]? := by
  induction as generalizing i with
  | nil => simp at hi
  | cons a as ih =>
    rw [map_cons, nodup_cons] at hnodup
    cases i with
    | zero =>
      have ha : key a = k := by simpa using hi
      simp [ha]
    | succ i =>
      have htail : (as.map key)[i]? = some k := by simpa using hi
      have hne : key a ≠ k := by
        rintro rfl
        exact hnodup.1 (mem_of_getElem? htail)
      simp [hne, ih hnodup.2 htail]

theorem any_key_of_getElem? [DecidableEq κ] {k : κ} {i : ℕ} (hi : (as.map key)[i]? = some k) :
    as.any (fun a => key a = k) = true := by
  obtain ⟨a, ha, rfl⟩ := mem_map.mp (mem_of_getElem? hi)
  exact any_eq_true.mpr ⟨a, ha, by simp⟩

theorem getElem?_and_drop_of_drop_eq_cons {rest : List α} {a : α} {i : ℕ}
    (h : as.drop i = a :: rest) : as[i]? = some a ∧ as.drop (i + 1) = rest := by
  constructor
  · have hhead := congrArg (·[0]?) h
    simpa using hhead
  · rw [← tail_drop, h, tail_cons]

/-- Each item shows the event at its position. -/
def Mirrors (view : Option ε → α → Prop) (history : List ε) (items : List α) : Prop :=
  ∀ (i : ℕ) (a : α), items[i]? = some a → view history[i]? a

namespace Mirrors

variable {view : Option ε → α → Prop} {history : List ε} {items : List α}

theorem modify (h : Mirrors view history items) {e : ε} {f : α → α}
    (hf : ∀ a, items[history.length]? = some a → view none a → view (some e) (f a)) :
    Mirrors view (history ++ [e]) (items.modify history.length f) := by
  intro i a ha
  rw [getElem?_modify] at ha
  by_cases hi : history.length = i
  · subst hi
    obtain ⟨b, hb, rfl⟩ := Option.map_eq_some_iff.mp ha
    have hview := h history.length b hb
    rw [getElem?_eq_none (by omega)] at hview
    simpa using hf b hb hview
  · have ha : items[i]? = some a := by simpa [hi] using ha
    have hview := h i a ha
    rcases Nat.lt_or_ge i history.length with hlt | hge
    · rwa [getElem?_append_left hlt]
    · rw [getElem?_eq_none (by omega)] at hview
      rwa [getElem?_eq_none (by simp; omega)]

theorem extend (h : Mirrors view history items) {e : ε}
    (he : ∀ a, view none a → view (some e) a) : Mirrors view (history ++ [e]) items := by
  have hmodify := h.modify (f := id) fun a _ ha => he a ha
  rwa [modify_id] at hmodify

theorem map (h : Mirrors view history items) {f : α → α} (hf : ∀ e a, view e a → view e (f a)) :
    Mirrors view history (items.map f) := by
  intro i a ha
  rw [getElem?_map] at ha
  obtain ⟨b, hb, rfl⟩ := Option.map_eq_some_iff.mp ha
  exact hf _ _ (h i b hb)

end Mirrors

theorem map_modify_of_eq (hf : ∀ a, key (f a) = key a) (i : ℕ) (as : List α) :
    (as.modify i f).map key = as.map key := by
  apply ext_getElem?
  intro j
  simp only [getElem?_map, getElem?_modify]
  by_cases hj : i = j
  · cases as[j]? with
    | none => simp
    | some a => simp [hj, hf]
  · simp [hj]

theorem map_mapIdx_of_eq {β : Type} {key : β → κ} {key' : α → κ} {f : ℕ → α → β}
    (hf : ∀ i a, key (f i a) = key' a) (as : List α) :
    (as.mapIdx f).map key = as.map key' := by
  apply ext_getElem?
  intro i
  cases h : as[i]? with
  | none => simp [h]
  | some a => simp [h, hf]

theorem zip_modify_append {items : List α} {history : List ε} {a : α} {e : ε}
    (ha : items[history.length]? = some a) :
    (items.modify history.length f).zip (history ++ [e]) = items.zip history ++ [(f a, e)] := by
  induction history generalizing items with
  | nil =>
    cases items with
    | nil => simp at ha
    | cons b items =>
      obtain rfl : b = a := by simpa using ha
      simp
  | cons e' history ih =>
    cases items with
    | nil => simp at ha
    | cons b items => simpa using ih (by simpa using ha)

end AIpinho.Lib
