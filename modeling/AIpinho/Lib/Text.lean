import Mathlib.Data.List.Basic
import Mathlib.Data.List.DropRight

/-!
# Trimmed texts

`str.strip` drops what it is told to drop from both ends of a text. The text that is
left neither starts nor ends with such a character.
-/

namespace AIpinho.Lib

variable {α : Type*}

/-- Drop the elements that satisfy `p` from both ends of a list. -/
def trim (p : α → Bool) (items : List α) : List α := (items.dropWhile p).rdropWhile p

/-- `str.strip`, for a kind of characters. -/
def strip (p : Char → Bool) (text : String) : String := String.ofList (trim p text.toList)

theorem trim_eq_self {p : α → Bool} {items : List α} (h : ∀ item ∈ items, p item = false) :
    trim p items = items := by
  have hfirst : items.dropWhile p = items := by
    rw [List.dropWhile_eq_self_iff]
    intro hlength
    rw [h _ (List.getElem_mem hlength)]
    decide
  rw [trim, hfirst, List.rdropWhile_eq_self_iff]
  intro hne
  rw [h _ (List.getLast_mem hne)]
  decide

theorem trim_cons_ne_nil {p : α → Bool} {item : α} (h : p item = false) (items : List α) :
    trim p (item :: items) ≠ [] := by
  have hitem : ¬p item = true := by simp [h]
  rw [trim, List.dropWhile_cons_of_neg hitem]
  intro hempty
  exact hitem (List.rdropWhile_eq_nil_iff.mp hempty item List.mem_cons_self)

end AIpinho.Lib
