import Mathlib.Data.List.TakeWhile

/-!
# The lines of a text

`str.splitlines` cuts a text after every character that ends a line; a carriage return and a
line feed end a line together.
-/

namespace AIpinho.Lib

open List

def isLineBreak (c : Char) : Bool :=
  let n := c.toNat
  (0x0A ≤ n && n ≤ 0x0D) || (0x1C ≤ n && n ≤ 0x1E) || n == 0x85 || n == 0x2028 || n == 0x2029

/-- Whether a line ends with a character: a carriage return before a line feed does not end
the line yet. -/
def endsLine (c : Char) (rest : List Char) : Bool :=
  isLineBreak c && !(c = '\r' && rest.head? = some '\n')

def consLine (c : Char) : List (List Char) → List (List Char)
  | [] => [[c]]
  | line :: lines => (c :: line) :: lines

/-- `str.splitlines(keepends=True)`. -/
def splitKeepEnds : List Char → List (List Char)
  | [] => []
  | c :: rest =>
    if endsLine c rest then [c] :: splitKeepEnds rest else consLine c (splitKeepEnds rest)

def dropLineEnd (line : List Char) : List Char := line.takeWhile fun c => !isLineBreak c

/-- `str.splitlines()`. -/
def splitLines (text : List Char) : List (List Char) := (splitKeepEnds text).map dropLineEnd

example : splitLines "a\r\n\nb\r".toList = ["a".toList, [], "b".toList] := by decide

variable {c : Char} {line text : List Char} {lines : List (List Char)}

@[simp] theorem flatten_consLine (c : Char) (lines : List (List Char)) :
    (consLine c lines).flatten = c :: lines.flatten := by
  cases lines <;> rfl

@[simp] theorem flatten_splitKeepEnds (text : List Char) : (splitKeepEnds text).flatten = text := by
  induction text with
  | nil => rfl
  | cons c rest ih =>
    rw [splitKeepEnds]
    split
    · rw [flatten_cons, ih, singleton_append]
    · rw [flatten_consLine, ih]

theorem ne_nil_of_mem_splitKeepEnds (h : line ∈ splitKeepEnds text) : line ≠ [] := by
  induction text generalizing line with
  | nil => cases h
  | cons c rest ih =>
    rw [splitKeepEnds] at h
    split at h
    · rcases mem_cons.mp h with rfl | hrest
      · exact cons_ne_nil c []
      · exact ih hrest
    · cases hlines : splitKeepEnds rest with
      | nil =>
        rw [hlines, consLine, mem_singleton] at h
        rw [h]
        exact cons_ne_nil c []
      | cons first lines =>
        rw [hlines, consLine] at h
        rcases mem_cons.mp h with rfl | hrest
        · exact cons_ne_nil c first
        · exact ih (hlines ▸ mem_cons_of_mem first hrest)

def Unbroken (text : List Char) : Prop := ∀ c ∈ text, isLineBreak c = false

theorem unbroken_dropLineEnd (line : List Char) : Unbroken (dropLineEnd line) := by
  intro c hc
  simpa using mem_takeWhile_imp hc

theorem unbroken_of_mem_splitLines (h : line ∈ splitLines text) : Unbroken line := by
  obtain ⟨kept, -, rfl⟩ := mem_map.mp h
  exact unbroken_dropLineEnd kept

theorem Unbroken.endsLine (h : Unbroken (c :: line)) (rest : List Char) :
    endsLine c rest = false := by
  rw [Lib.endsLine, h c mem_cons_self, Bool.false_and]

theorem Unbroken.dropLineEnd (h : Unbroken line) (rest : List Char) :
    dropLineEnd (line ++ '\n' :: rest) = line := by
  rw [Lib.dropLineEnd, takeWhile_append_of_pos (by simpa [Unbroken] using h)]
  simp [isLineBreak]

theorem Unbroken.dropLineEnd_self (h : Unbroken line) : Lib.dropLineEnd line = line := by
  rw [Lib.dropLineEnd, takeWhile_eq_self_iff]
  simpa [Unbroken] using h

theorem splitKeepEnds_append (h : Unbroken line) (rest : List Char) :
    splitKeepEnds (line ++ '\n' :: rest) = (line ++ ['\n']) :: splitKeepEnds rest := by
  induction line with
  | nil =>
    rw [nil_append, splitKeepEnds, if_pos (by simp [endsLine, isLineBreak]), nil_append]
  | cons c line ih =>
    rw [cons_append, splitKeepEnds, h.endsLine, if_neg Bool.false_ne_true,
      ih fun d hd => h d (mem_cons_of_mem c hd)]
    rfl

theorem splitKeepEnds_of_unbroken (h : Unbroken line) (hne : line ≠ []) :
    splitKeepEnds line = [line] := by
  induction line with
  | nil => exact absurd rfl hne
  | cons c line ih =>
    rw [splitKeepEnds, h.endsLine, if_neg Bool.false_ne_true]
    cases line with
    | nil => rfl
    | cons d line =>
      rw [ih (fun d hd => h d (mem_cons_of_mem c hd)) (cons_ne_nil d line)]
      rfl

theorem splitLines_intercalate (h : ∀ line ∈ lines, Unbroken line)
    (hlast : lines.getLast? ≠ some []) : splitLines (List.intercalate ['\n'] lines) = lines := by
  induction lines with
  | nil => rfl
  | cons line lines ih =>
    rw [forall_mem_cons] at h
    cases lines with
    | nil =>
      have hne : line ≠ [] := fun hempty => hlast (by rw [hempty]; rfl)
      rw [intercalate_singleton, splitLines, splitKeepEnds_of_unbroken h.1 hne,
        map_singleton, h.1.dropLineEnd_self]
    | cons next lines =>
      rw [getLast?_cons_cons] at hlast
      rw [intercalate_cons_cons, append_assoc, singleton_append, splitLines,
        splitKeepEnds_append h.1, map_cons, h.1.dropLineEnd]
      exact congrArg _ (ih h.2 hlast)

/-- The lines from `i` to `j`. -/
def slice (lines : List (List Char)) (i j : ℕ) : List (List Char) := (lines.drop i).take (j - i)

theorem length_slice {i j : ℕ} (hj : j ≤ lines.length) : (slice lines i j).length = j - i := by
  rw [slice, length_take, length_drop]
  omega

theorem mem_of_mem_slice {i j : ℕ} (h : line ∈ slice lines i j) : line ∈ lines :=
  mem_of_mem_drop (mem_of_mem_take h)

theorem take_append_slice_append_drop {i j : ℕ} (h : i ≤ j) :
    lines.take i ++ (slice lines i j ++ lines.drop j) = lines := by
  have hdrop : lines.drop j = (lines.drop i).drop (j - i) := by
    rw [drop_drop]
    congr 1
    omega
  rw [slice, hdrop, take_append_drop, take_append_drop]

end AIpinho.Lib
