import Mathlib.Data.List.Nodup

/-!
# Cascades of checks

A validator that demands one condition after the other and fails with the error of
the first condition that is not met.
-/

namespace AIpinho.Lib

open List

variable {ε α : Type}

/-- Fail with an error unless a condition is met. -/
def demand (ok : Prop) [Decidable ok] (error : ε) : Except ε Unit :=
  if ok then .ok () else .error error

@[simp]
theorem demand_ok_iff {ok : Prop} [Decidable ok] {error : ε} : demand ok error = .ok () ↔ ok := by
  unfold demand
  split <;> simp_all

@[simp]
theorem demand_bind_ok_iff {ok : Prop} [Decidable ok] {error : ε} {rest : Unit → Except ε α}
    {a : α} : demand ok error >>= rest = .ok a ↔ ok ∧ rest () = .ok a := by
  unfold demand
  split
  · rename_i hok
    simp [hok, bind, Except.bind]
  · rename_i hok
    simp [hok, bind, Except.bind]

theorem checks_bind_ok_iff {checks : Except ε Unit} {rest : Unit → Except ε α} {a : α} :
    checks >>= rest = .ok a ↔ checks = .ok () ∧ rest () = .ok a := by
  cases checks with
  | error | ok => simp [bind, Except.bind]

theorem value_bind_ok_iff {β : Type} {value : Except ε β} {rest : β → Except ε α} {a : α} :
    value >>= rest = .ok a ↔ ∃ b, value = .ok b ∧ rest b = .ok a := by
  cases value with
  | error | ok => simp [bind, Except.bind]

def demandSome (value : Option α) (error : ε) : Except ε α :=
  match value with
  | some a => .ok a
  | none => .error error

@[simp]
theorem demandSome_bind_ok_iff {β : Type} {value : Option β} {error : ε}
    {rest : β → Except ε α} {a : α} :
    demandSome value error >>= rest = .ok a ↔ ∃ b, value = some b ∧ rest b = .ok a := by
  cases value with
  | none | some => simp [demandSome, bind, Except.bind]

def checkEach (check : α → Except ε Unit) : List α → Except ε Unit
  | [] => .ok ()
  | item :: items => do
    check item
    checkEach check items

theorem checkEach_ok_iff {check : α → Except ε Unit} {items : List α} :
    checkEach check items = .ok () ↔ ∀ item ∈ items, check item = .ok () := by
  induction items with
  | nil => simp [checkEach]
  | cons item items ih => rw [checkEach, checks_bind_ok_iff, ih, forall_mem_cons]

def collectEach (check : List α → α → Except ε Unit) : List α → List α → Except ε (List α)
  | seen, [] => .ok seen
  | seen, item :: items => do
    check seen item
    collectEach check (seen ++ [item]) items

/-- Where the checks ask for new keys, a list is collected as it is, and exactly if its
keys are distinct and each item passes what else is asked. -/
theorem collectEach_ok_iff {κ : Type} {check : List α → α → Except ε Unit} {key : α → κ}
    {passes : α → Prop}
    (hcheck : ∀ seen item, check seen item = .ok () ↔ key item ∉ seen.map key ∧ passes item)
    {items result : List α} :
    collectEach check [] items = .ok result ↔
      result = items ∧ (items.map key).Nodup ∧ ∀ item ∈ items, passes item := by
  have hrun : ∀ (items seen : List α), (seen.map key).Nodup →
      (collectEach check seen items = .ok result ↔ result = seen ++ items ∧
        ((seen ++ items).map key).Nodup ∧ ∀ item ∈ items, passes item) := by
    intro items
    induction items with
    | nil =>
      intro seen hseen
      simp [collectEach, hseen, eq_comm]
    | cons item items ih =>
      intro seen hseen
      rw [collectEach, checks_bind_ok_iff, hcheck]
      constructor
      · rintro ⟨⟨hnew, hitem⟩, hrest⟩
        have hseen' : ((seen ++ [item]).map key).Nodup := by
          rw [map_append, map_singleton, nodup_append_comm]
          exact nodup_cons.mpr ⟨hnew, hseen⟩
        obtain ⟨hresult, hnodup, hitems⟩ := (ih _ hseen').mp hrest
        rw [append_assoc, singleton_append] at hresult hnodup
        exact ⟨hresult, hnodup, forall_mem_cons.mpr ⟨hitem, hitems⟩⟩
      · rintro ⟨hresult, hnodup, hitems⟩
        obtain ⟨hitem, hitems⟩ := forall_mem_cons.mp hitems
        rw [← singleton_append, ← append_assoc] at hresult hnodup
        have hseen' : ((seen ++ [item]).map key).Nodup :=
          hnodup.sublist ((sublist_append_left _ _).map key)
        refine ⟨⟨?_, hitem⟩, (ih _ hseen').mpr ⟨hresult, hnodup, hitems⟩⟩
        rw [map_append, map_singleton, nodup_append_comm] at hseen'
        exact (nodup_cons.mp hseen').1
  simpa using hrun items [] nodup_nil

theorem exists_ok_of_toOption_isSome {value : Except ε α} (h : value.toOption.isSome = true) :
    ∃ a, value = .ok a := by
  cases value with
  | ok a => exact ⟨a, rfl⟩
  | error e => cases h

theorem forall₂_of_mapM_ok {β : Type} {f : α → Except ε β} {items : List α} {values : List β}
    (h : items.mapM f = .ok values) :
    List.Forall₂ (fun item value => f item = .ok value) items values := by
  induction items generalizing values with
  | nil =>
    rw [mapM_nil] at h
    obtain rfl : [] = values := by simpa [pure, Except.pure] using h
    exact .nil
  | cons item items ih =>
    rw [mapM_cons, value_bind_ok_iff] at h
    obtain ⟨first, hfirst, h⟩ := h
    rw [value_bind_ok_iff] at h
    obtain ⟨rest, hrest, h⟩ := h
    obtain rfl : first :: rest = values := by simpa [pure, Except.pure] using h
    exact .cons hfirst (ih hrest)

theorem mem_of_mapM_ok {β : Type} {f : α → Except ε β} {items : List α} {values : List β}
    (h : items.mapM f = .ok values) (value : β) :
    value ∈ values ↔ ∃ item ∈ items, f item = .ok value := by
  have hvalues := forall₂_of_mapM_ok h
  clear h
  induction hvalues with
  | nil => simp
  | @cons item first _ _ hfirst _ ih =>
    have hhead : value = first ↔ f item = .ok value := by
      rw [hfirst, Except.ok.injEq, eq_comm]
    simp only [mem_cons, ih, exists_eq_or_imp, hhead]

end AIpinho.Lib
