import Mathlib.Data.List.Basic

/-!
# Texts that are cut into segments

A path is written as its segments with a separator before each. The beginnings of such a text
that end at a separator are those of the list of segments.
-/

namespace AIpinho.Lib

variable {α : Type*} {sep : α}

def joined (sep : α) (segments : List (List α)) : List α := segments.flatMap (sep :: ·)

@[simp] theorem joined_nil : joined sep [] = [] := rfl

@[simp] theorem joined_cons (segment : List α) (segments : List (List α)) :
    joined sep (segment :: segments) = sep :: (segment ++ joined sep segments) := rfl

theorem joined_append (segments others : List (List α)) :
    joined sep (segments ++ others) = joined sep segments ++ joined sep others :=
  List.flatMap_append

variable {segments others : List (List α)}

theorem joined_eq_cons_intercalate (h : segments ≠ []) :
    joined sep segments = sep :: List.intercalate [sep] segments := by
  induction segments with
  | nil => exact absurd rfl h
  | cons segment rest ih =>
    cases rest with
    | nil => simp
    | cons next rest => simp [ih, List.intercalate_cons_cons]

theorem map_joined {β : Type*} (f : α → β) (segments : List (List α)) :
    (joined sep segments).map f = joined (f sep) (segments.map (List.map f)) := by
  induction segments with
  | nil => rfl
  | cons segment rest ih => simp [ih]

theorem append_joined_inj {segment other : List α} (h : sep ∉ segment) (h' : sep ∉ other) :
    segment ++ joined sep segments = other ++ joined sep others ↔
      segment = other ∧ joined sep segments = joined sep others := by
  induction segment generalizing other with
  | nil => cases other <;> cases segments <;> simp_all
  | cons c segment ih =>
    simp only [List.mem_cons, not_or] at h
    cases other with
    | nil => cases others <;> simp [Ne.symm h.1]
    | cons d other =>
      simp only [List.mem_cons, not_or] at h'
      simp [ih h.2 h'.2, and_assoc]

theorem append_joined_prefix_iff {segment other rest : List α} (h : sep ∉ segment)
    (h' : sep ∉ other) :
    segment ++ sep :: rest <+: other ++ joined sep others ↔
      segment = other ∧ sep :: rest <+: joined sep others := by
  induction segment generalizing other with
  | nil => cases other <;> cases others <;> simp_all
  | cons c segment ih =>
    simp only [List.mem_cons, not_or] at h
    cases other with
    | nil => cases others <;> simp [Ne.symm h.1]
    | cons d other =>
      simp only [List.mem_cons, not_or] at h'
      simp [ih h.2 h'.2, and_assoc]

theorem joined_prefix_iff (h : ∀ s ∈ segments, sep ∉ s) (h' : ∀ s ∈ others, sep ∉ s) :
    joined sep others = joined sep segments ∨
      joined sep segments ++ [sep] <+: joined sep others ↔ segments <+: others := by
  induction segments generalizing others with
  | nil => cases others <;> simp
  | cons segment rest ih =>
    cases others with
    | nil => simp
    | cons other others =>
      simp only [List.forall_mem_cons] at h h'
      have hrest : ∃ tail, joined sep rest ++ [sep] = sep :: tail := by cases rest <;> simp
      obtain ⟨tail, htail⟩ := hrest
      have hih := ih h.2 h'.2
      rw [htail] at hih
      simp only [joined_cons, List.cons_append, List.append_assoc, htail, List.cons.injEq,
        true_and, List.cons_prefix_cons, append_joined_prefix_iff h.1 h'.1,
        append_joined_inj h'.1 h.1, ← hih, eq_comm (a := segment)]
      exact and_or_left.symm

end AIpinho.Lib
