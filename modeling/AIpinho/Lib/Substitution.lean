import Mathlib.Data.List.Infix
import Mathlib.Data.List.TakeWhile

/-!
# Substitution of matches

A pattern without alternatives is a list of steps, each of which takes one element of a class or
a run of them. Where the class of a run has nothing in common with the next step, a match takes
the longest runs. `sub` replaces the matches by a mark, from left to right. A mark whose ends no
step takes is never part of a match.
-/

namespace AIpinho.Lib

open List Bool

variable {α : Type*}

/-- A step of a pattern. -/
inductive Step (α : Type*)
  /-- One element of a class. -/
  | one (kind : α → Bool)
  /-- The elements of a class that follow, and at least so many. -/
  | run (kind : α → Bool) (least : ℕ)

def Step.kind : Step α → α → Bool
  | .one kind => kind
  | .run kind _ => kind

/-- What follows a match at the start of a text. -/
def dropSteps : List (Step α) → List α → Option (List α)
  | [], items => some items
  | .one _ :: _, [] => none
  | .one kind :: steps, item :: items => if kind item then dropSteps steps items else none
  | .run kind least :: steps, items =>
    if least ≤ (items.takeWhile kind).length then dropSteps steps (items.dropWhile kind) else none

def matchesAt (steps : List (Step α)) (items : List α) : Bool := (dropSteps steps items).isSome

/-- Whether a text has a match, `re.search`. -/
def hasMatch (steps : List (Step α)) (items : List α) : Bool :=
  items.tails.any (matchesAt steps)

/-- Replace the matches after the first `skip` elements. -/
def subFrom (steps : List (Step α)) (mark : List α) : ℕ → List α → List α
  | _, [] => []
  | skip + 1, _ :: items => subFrom steps mark skip items
  | 0, item :: items =>
    match dropSteps steps (item :: items) with
    | some rest => mark ++ subFrom steps mark (items.length - rest.length) items
    | none => item :: subFrom steps mark 0 items

/-- Replace the matches of a text, `re.sub`. -/
def sub (steps : List (Step α)) (mark items : List α) : List α := subFrom steps mark 0 items

def Avoids (fence : α → Prop) (steps : List (Step α)) : Prop :=
  ∀ step ∈ steps, ∀ item, fence item → step.kind item = false

section

variable {steps : List (Step α)} {fence : α → Prop}

theorem matchesAt_append {items : List α} (h : matchesAt steps items = true) (rest : List α) :
    matchesAt steps (items ++ rest) = true := by
  induction steps generalizing items rest with
  | nil => rfl
  | cons step steps ih =>
    cases step with
    | one kind =>
      cases items with
      | nil => cases h
      | cons item items =>
        simp only [matchesAt, dropSteps, cons_append] at h ⊢
        split at h
        · rename_i hkind
          rw [if_pos hkind]
          exact ih h rest
        · cases h
    | run kind least =>
      simp only [matchesAt, dropSteps] at h ⊢
      split at h
      · rename_i hleast
        by_cases hall : ∀ item ∈ items, kind item = true
        · -- The run goes on; what follows it matched nothing.
          rw [takeWhile_append_of_pos hall, length_append, if_pos]
          · rw [dropWhile_append_of_pos hall]
            rw [dropWhile_eq_nil_iff.mpr hall] at h
            exact @ih [] h (rest.dropWhile kind)
          · rw [takeWhile_eq_self_iff.mpr hall] at hleast
            omega
        · have hdrop : items.dropWhile kind ≠ [] := by
            rw [ne_eq, dropWhile_eq_nil_iff]
            exact hall
          have htake : (items ++ rest).takeWhile kind = items.takeWhile kind := by
            rw [takeWhile_append]
            refine if_neg fun hlength => hall ?_
            exact takeWhile_eq_self_iff.mp
              (List.IsPrefix.eq_of_length ( takeWhile_prefix kind) hlength)
          rw [htake, if_pos hleast, dropWhile_append, if_neg (by simpa using hdrop)]
          exact ih h rest
      · cases h

theorem matchesAt_of_fence (havoids : Avoids fence steps) {items rest : List α} {item : α}
    (hfence : fence item) (h : matchesAt steps (items ++ item :: rest) = true) :
    matchesAt steps items = true := by
  induction steps generalizing items with
  | nil => rfl
  | cons step steps ih =>
    have hstep : step.kind item = false := havoids step mem_cons_self item hfence
    have hsteps : Avoids fence steps := fun step hmem => havoids step (mem_cons_of_mem _ hmem)
    cases step with
    | one kind =>
      cases items with
      | nil =>
        simp only [Step.kind] at hstep
        simp [matchesAt, dropSteps, hstep] at h
      | cons first items =>
        simp only [matchesAt, dropSteps, cons_append] at h ⊢
        split at h
        · rename_i hkind
          rw [if_pos hkind]
          exact ih hsteps h
        · cases h
    | run kind least =>
      simp only [Step.kind] at hstep
      have htake : (items ++ item :: rest).takeWhile kind = items.takeWhile kind := by
        rw [takeWhile_append, takeWhile_cons_of_neg (by simp [hstep]), append_nil]
        split
        · rename_i hlength
          exact (List.IsPrefix.eq_of_length ( takeWhile_prefix kind) hlength).symm
        · rfl
      have hdrop : (items ++ item :: rest).dropWhile kind =
          items.dropWhile kind ++ item :: rest := by
        rw [dropWhile_append]
        split
        · rename_i hempty
          rw [List.isEmpty_iff] at hempty
          rw [hempty, dropWhile_cons_of_neg (by simp [hstep])]
          rfl
        · rfl
      simp only [matchesAt, dropSteps, htake, hdrop] at h ⊢
      split at h
      · rename_i hleast
        rw [if_pos hleast]
        exact ih hsteps h
      · cases h

@[simp]
theorem hasMatch_cons {item : α} {items : List α} :
    hasMatch steps (item :: items) = (matchesAt steps (item :: items) || hasMatch steps items) := by
  rw [hasMatch, tails_cons, any_cons]
  rfl

theorem hasMatch_append_left {items rest : List α} (h : hasMatch steps (items ++ rest) = false) :
    hasMatch steps rest = false := by
  induction items with
  | nil => exact h
  | cons item items ih =>
    rw [cons_append, hasMatch_cons, or_eq_false_iff] at h
    exact ih h.2

theorem hasMatch_fence_append (havoids : Avoids fence steps) {items rest : List α} {item : α}
    (hfence : fence item) (hitems : hasMatch steps (items ++ [item]) = false)
    (hrest : hasMatch steps rest = false) : hasMatch steps (items ++ item :: rest) = false := by
  have hnone : ∀ start : List α, matchesAt steps (start ++ [item]) = false →
      matchesAt steps (start ++ item :: rest) = false := by
    intro start h
    by_contra hmatch
    rw [not_eq_false] at hmatch
    have hstart := matchesAt_append (matchesAt_of_fence havoids hfence hmatch) [item]
    rw [h] at hstart
    cases hstart
  induction items with
  | nil =>
    rw [nil_append, hasMatch_cons, or_eq_false_iff] at hitems ⊢
    exact ⟨hnone [] hitems.1, hrest⟩
  | cons first items ih =>
    rw [cons_append, hasMatch_cons, or_eq_false_iff] at hitems ⊢
    exact ⟨hnone (first :: items) hitems.1, ih hitems.2⟩

end

section

variable {steps other : List (Step α)} {mark : List α} {fence : α → Prop}

theorem subFrom_eq (skip : ℕ) (items : List α) :
    subFrom steps mark skip items = sub steps mark (items.drop skip) := by
  induction items generalizing skip with
  | nil => cases skip <;> rfl
  | cons item items ih =>
    cases skip with
    | zero => rfl
    | succ skip => rw [subFrom, drop_succ_cons, ih]

@[simp]
theorem sub_nil : sub steps mark [] = [] := rfl

theorem sub_cons_of_none {item : α} {items : List α}
    (h : dropSteps steps (item :: items) = none) :
    sub steps mark (item :: items) = item :: sub steps mark items := by
  rw [sub, subFrom, h]
  rfl

theorem sub_cons_of_some {item : α} {items rest : List α}
    (h : dropSteps steps (item :: items) = some rest) :
    sub steps mark (item :: items) =
      mark ++ sub steps mark (items.drop (items.length - rest.length)) := by
  rw [sub, subFrom, h]
  simp only [subFrom_eq]

theorem sub_eq_self {items : List α} (h : hasMatch steps items = false) :
    sub steps mark items = items := by
  induction items with
  | nil => rfl
  | cons item items ih =>
    rw [hasMatch_cons, or_eq_false_iff, matchesAt, Option.isSome_eq_false_iff,
      Option.isNone_iff_eq_none] at h
    rw [sub_cons_of_none h.1, ih h.2]

theorem sub_eq_nil_iff (hmark : mark ≠ []) {items : List α} :
    sub steps mark items = [] ↔ items = [] := by
  cases items with
  | nil => simp
  | cons item items =>
    cases h : dropSteps steps (item :: items) with
    | none => simp [sub_cons_of_none h]
    | some rest => simp [sub_cons_of_some h, hmark]

theorem sub_append_of_start (items : List α) : sub steps mark items = items ∨
    ∃ start rest rest', items = start ++ rest ∧ sub steps mark items = start ++ mark ++ rest' := by
  induction items with
  | nil => exact Or.inl rfl
  | cons item items ih =>
    cases h : dropSteps steps (item :: items) with
    | some rest => exact Or.inr ⟨[], _, _, rfl, sub_cons_of_some h⟩
    | none =>
      rw [sub_cons_of_none h]
      rcases ih with hsame | ⟨start, rest, rest', hitems, hsub⟩
      · exact Or.inl (by rw [hsame])
      · exact Or.inr ⟨item :: start, rest, rest', by rw [hitems, cons_append], by rw [hsub]; rfl⟩

/-- A mark in a fence: it begins and ends with elements that no step takes. -/
structure Fenced (fence : α → Prop) (mark : List α) : Prop where
  opens : ∃ item rest, mark = item :: rest ∧ fence item
  closes : ∃ start item, mark = start ++ [item] ∧ fence item

theorem matchesAt_of_sub (havoids : Avoids fence other) (hmark : Fenced fence mark)
    {start items : List α} (h : matchesAt other (start ++ sub steps mark items) = true) :
    matchesAt other (start ++ items) = true := by
  rcases @sub_append_of_start α steps mark items with
    hsame | ⟨middle, rest, rest', hitems, hsub⟩
  · rwa [hsame] at h
  · obtain ⟨item, tail, rfl, hfence⟩ := hmark.opens
    rw [hsub, append_assoc, ← append_assoc, cons_append] at h
    rw [hitems, ← append_assoc]
    exact matchesAt_append (matchesAt_of_fence havoids hfence h) rest

theorem hasMatch_mark_append (havoids : Avoids fence other) (hmark : Fenced fence mark)
    (hclean : hasMatch other mark = false) {rest : List α} (hrest : hasMatch other rest = false) :
    hasMatch other (mark ++ rest) = false := by
  obtain ⟨start, item, rfl, hfence⟩ := hmark.closes
  rw [append_assoc]
  exact hasMatch_fence_append havoids hfence hclean hrest

theorem hasMatch_sub (havoids : Avoids fence steps) (hmark : Fenced fence mark)
    (hclean : hasMatch steps mark = false) (items : List α) :
    hasMatch steps (sub steps mark items) = false := by
  induction h : items.length using Nat.strong_induction_on generalizing items with
  | _ n ih =>
    subst h
    cases items with
    | nil =>
      rw [← append_nil mark] at hclean
      exact hasMatch_append_left hclean
    | cons item items =>
      cases h : dropSteps steps (item :: items) with
      | some rest =>
        rw [sub_cons_of_some h]
        refine hasMatch_mark_append havoids hmark hclean (ih _ ?_ _ rfl)
        rw [length_drop, length_cons]
        omega
      | none =>
        rw [sub_cons_of_none h, hasMatch_cons, ih items.length (by simp) items rfl, Bool.or_false]
        by_contra hmatch
        rw [not_eq_false] at hmatch
        have hitems : matchesAt steps ([item] ++ items) = true :=
          matchesAt_of_sub havoids hmark hmatch
        rw [singleton_append, matchesAt, h] at hitems
        cases hitems

theorem hasMatch_sub_of_clean (havoids : Avoids fence other) (hmark : Fenced fence mark)
    (hclean : hasMatch other mark = false) {items : List α}
    (h : hasMatch other items = false) : hasMatch other (sub steps mark items) = false := by
  induction hlength : items.length using Nat.strong_induction_on generalizing items with
  | _ n ih =>
    subst hlength
    cases items with
    | nil => exact h
    | cons item items =>
      rw [hasMatch_cons, or_eq_false_iff] at h
      cases hsteps : dropSteps steps (item :: items) with
      | some rest =>
        rw [sub_cons_of_some hsteps]
        refine hasMatch_mark_append havoids hmark hclean (ih _ ?_ ?_ rfl)
        · rw [length_drop, length_cons]
          omega
        · have hsplit := take_append_drop (items.length - rest.length) items
          rw [← hsplit] at h
          exact hasMatch_append_left h.2
      | none =>
        rw [sub_cons_of_none hsteps, hasMatch_cons, ih items.length (by simp) h.2 rfl,
          Bool.or_false]
        by_contra hmatch
        rw [not_eq_false] at hmatch
        have hitems : matchesAt other ([item] ++ items) = true :=
          matchesAt_of_sub havoids hmark hmatch
        rw [singleton_append, h.1] at hitems
        cases hitems

def subAll (patterns : List (List (Step α))) (mark items : List α) : List α :=
  patterns.foldl (fun items pattern => sub pattern mark items) items

variable {patterns : List (List (Step α))}

@[simp]
theorem subAll_cons {pattern : List (Step α)} {items : List α} :
    subAll (pattern :: patterns) mark items = subAll patterns mark (sub pattern mark items) := rfl

theorem subAll_eq_self {items : List α}
    (h : ∀ pattern ∈ patterns, hasMatch pattern items = false) :
    subAll patterns mark items = items := by
  induction patterns with
  | nil => rfl
  | cons pattern patterns ih =>
    rw [forall_mem_cons] at h
    rw [subAll_cons, sub_eq_self h.1, ih h.2]

theorem subAll_eq_nil_iff (hmark : mark ≠ []) {items : List α} :
    subAll patterns mark items = [] ↔ items = [] := by
  induction patterns generalizing items with
  | nil => rfl
  | cons pattern patterns ih => rw [subAll_cons, ih, sub_eq_nil_iff hmark]

theorem hasMatch_subAll_of_clean (havoids : Avoids fence other) (hmark : Fenced fence mark)
    (hclean : hasMatch other mark = false) {items : List α}
    (h : hasMatch other items = false) : hasMatch other (subAll patterns mark items) = false := by
  induction patterns generalizing items with
  | nil => exact h
  | cons pattern patterns ih => exact ih (hasMatch_sub_of_clean havoids hmark hclean h)

theorem hasMatch_subAll (havoids : ∀ pattern ∈ patterns, Avoids fence pattern)
    (hmark : Fenced fence mark) (hclean : ∀ pattern ∈ patterns, hasMatch pattern mark = false)
    (items : List α) :
    ∀ pattern ∈ patterns, hasMatch pattern (subAll patterns mark items) = false := by
  induction patterns generalizing items with
  | nil => exact fun _ h => absurd h not_mem_nil
  | cons pattern patterns ih =>
    rw [forall_mem_cons] at havoids hclean ⊢
    rw [subAll_cons]
    refine ⟨?_, ih havoids.2 hclean.2 _⟩
    exact hasMatch_subAll_of_clean havoids.1 hmark hclean.1
      (hasMatch_sub havoids.1 hmark hclean.1 items)

end

end AIpinho.Lib
