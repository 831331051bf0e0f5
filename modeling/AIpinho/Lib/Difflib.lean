import AIpinho.Lib.Lines
import Mathlib.Data.List.Chain

/-!
# Unified diffs

`difflib` compares two lists of lines and prints the groups of operations that turn one into the
other. How it finds them is left open; what it promises about them is part of their types.
-/

namespace AIpinho.Lib

open List

/-- A line, or a text. -/
abbrev Chars : Type := List Char

/-- The tag of an operation. -/
inductive OpTag
  | equal | replace | delete | insert
  deriving DecidableEq

/-- An operation: the lines `i1` to `i2` of the one list become the lines `j1` to `j2` of the
other. -/
structure Opcode where
  tag : OpTag
  i1 : ℕ
  i2 : ℕ
  j1 : ℕ
  j2 : ℕ

namespace Opcode

variable {old new : List Chars} {op : Opcode}

/-- The lines that stay. -/
def context (old : List Chars) (op : Opcode) : List Chars :=
  if op.tag = .equal then slice old op.i1 op.i2 else []

/-- The lines that go. -/
def removed (old : List Chars) (op : Opcode) : List Chars :=
  if op.tag = .replace ∨ op.tag = .delete then slice old op.i1 op.i2 else []

/-- The lines that come. -/
def added (new : List Chars) (op : Opcode) : List Chars :=
  if op.tag = .replace ∨ op.tag = .insert then slice new op.j1 op.j2 else []

/-- The lines of an operation in a diff. -/
def print (old new : List Chars) (op : Opcode) : List Chars :=
  (op.context old).map (' ' :: ·) ++ (op.removed old).map ('-' :: ·) ++
    (op.added new).map ('+' :: ·)

/-- What `difflib` promises of an operation. -/
structure Fits (old new : List Chars) (op : Opcode) : Prop where
  old_le : op.i1 ≤ op.i2
  old_length : op.i2 ≤ old.length
  new_le : op.j1 ≤ op.j2
  new_length : op.j2 ≤ new.length
  equal : op.tag = .equal → slice old op.i1 op.i2 = slice new op.j1 op.j2
  delete : op.tag = .delete → op.j1 = op.j2
  insert : op.tag = .insert → op.i1 = op.i2

theorem Fits.length_old (h : op.Fits old new) :
    (op.removed old).length + (op.context old).length = op.i2 - op.i1 := by
  have hslice := length_slice (i := op.i1) h.old_length
  rw [removed, context]
  cases htag : op.tag with
  | equal | replace | delete => simp [hslice]
  | insert =>
    have hinsert := h.insert htag
    simp only [reduceCtorEq, or_self, if_false, length_nil]
    omega

theorem Fits.length_new (h : op.Fits old new) :
    (op.added new).length + (op.context old).length = op.j2 - op.j1 := by
  have hslice := length_slice (i := op.j1) h.new_length
  rw [added, context]
  cases htag : op.tag with
  | equal => simp [h.equal htag, hslice]
  | replace => simp [hslice]
  | delete =>
    have hdelete := h.delete htag
    simp only [reduceCtorEq, or_self, if_false, length_nil]
    omega
  | insert => simp [hslice]

/-- One operation comes right after another. -/
def Joins (op next : Opcode) : Prop := op.i2 = next.i1 ∧ op.j2 = next.j1

end Opcode

/-- A group of `get_grouped_opcodes`. -/
structure DiffGroup (old new : List Chars) where
  ops : List Opcode
  ne_nil : ops ≠ []
  fits : ∀ op ∈ ops, op.Fits old new
  joins : ops.IsChain Opcode.Joins

theorem length_of_joins {old new : List Chars} {ops : List Opcode} (hne : ops ≠ [])
    (hfits : ∀ op ∈ ops, op.Fits old new) (hjoins : ops.IsChain Opcode.Joins) :
    ((ops.flatMap (·.removed old)).length + (ops.flatMap (·.context old)).length =
        (ops.getLast hne).i2 - (ops.head hne).i1 ∧
      (ops.flatMap (·.added new)).length + (ops.flatMap (·.context old)).length =
        (ops.getLast hne).j2 - (ops.head hne).j1) ∧
      (ops.head hne).i1 ≤ (ops.getLast hne).i2 ∧ (ops.head hne).j1 ≤ (ops.getLast hne).j2 := by
  induction ops with
  | nil => exact absurd rfl hne
  | cons op ops ih =>
    rw [forall_mem_cons] at hfits
    have hold := hfits.1.length_old
    have hnew := hfits.1.length_new
    have hle := hfits.1.old_le
    have hle' := hfits.1.new_le
    cases ops with
    | nil => simp [hold, hnew, hle, hle']
    | cons next ops =>
      rw [isChain_cons_cons] at hjoins
      have hrest := ih (cons_ne_nil next ops) hfits.2 hjoins.2
      have hcons : ∀ f : Opcode → List Chars, ((op :: next :: ops).flatMap f).length =
            (f op).length + ((next :: ops).flatMap f).length := fun f => by
        rw [flatMap_cons, length_append]
      rw [hcons, hcons, hcons, getLast_cons_cons, head_cons]
      rw [head_cons] at hrest
      obtain ⟨hjoin, hjoin'⟩ := hjoins.1
      omega

namespace DiffGroup

variable {old new : List Chars}

variable (group : DiffGroup old new)

def oldFrom : ℕ := (group.ops.head group.ne_nil).i1

def oldTo : ℕ := (group.ops.getLast group.ne_nil).i2

def newFrom : ℕ := (group.ops.head group.ne_nil).j1

def newTo : ℕ := (group.ops.getLast group.ne_nil).j2

def context : List Chars := group.ops.flatMap (·.context old)

def removed : List Chars := group.ops.flatMap (·.removed old)

def added : List Chars := group.ops.flatMap (·.added new)

theorem length_removed_add :
    group.removed.length + group.context.length = group.oldTo - group.oldFrom :=
  (length_of_joins group.ne_nil group.fits group.joins).1.1

theorem length_added_add :
    group.added.length + group.context.length = group.newTo - group.newFrom :=
  (length_of_joins group.ne_nil group.fits group.joins).1.2

end DiffGroup

/-- The first line of a range as it is printed: an empty range is printed after the line
before it. -/
def rangeStart (start stop : ℕ) : ℕ := if stop - start = 0 then start else start + 1

/-- `_format_range_unified`. -/
def formatRange (start stop : ℕ) : Chars :=
  let first := (toString (rangeStart start stop)).toList
  if stop - start = 1 then first else first ++ ',' :: (toString (stop - start)).toList

def DiffGroup.header {old new : List Chars} (group : DiffGroup old new) : Chars :=
  "@@ -".toList ++ (formatRange group.oldFrom group.oldTo ++ (" +".toList ++
    (formatRange group.newFrom group.newTo ++ " @@".toList)))

def DiffGroup.print {old new : List Chars} (group : DiffGroup old new) : List Chars :=
  group.header :: group.ops.flatMap (·.print old new)

section Unbroken

variable {old new : List Chars} {op : Opcode} {line : Chars}

theorem unbroken_of_all (h : (line.all fun c => !isLineBreak c) = true) : Unbroken line := by
  intro c hc
  have hbreak := all_eq_true.mp h c hc
  rwa [Bool.not_eq_true'] at hbreak

theorem Unbroken.cons {c : Char} (hc : isLineBreak c = false) (h : Unbroken line) :
    Unbroken (c :: line) := by
  rw [Unbroken, forall_mem_cons]
  exact ⟨hc, h⟩

theorem Unbroken.append {rest : Chars} (h : Unbroken line) (hrest : Unbroken rest) :
    Unbroken (line ++ rest) := by
  rw [Unbroken, forall_mem_append]
  exact ⟨h, hrest⟩

theorem Opcode.mem_print (h : line ∈ op.print old new) :
    ∃ mark ∈ [' ', '-', '+'], ∃ content, line = mark :: content ∧
      (content ∈ old ∨ content ∈ new) := by
  rw [print, mem_append, mem_append, mem_map, mem_map, mem_map] at h
  rcases h with (⟨content, hmem, rfl⟩ | ⟨content, hmem, rfl⟩) | ⟨content, hmem, rfl⟩
  · refine ⟨' ', by simp, content, rfl, .inl ?_⟩
    rw [context] at hmem
    split at hmem
    · exact mem_of_mem_slice hmem
    · cases hmem
  · refine ⟨'-', by simp, content, rfl, .inl ?_⟩
    rw [removed] at hmem
    split at hmem
    · exact mem_of_mem_slice hmem
    · cases hmem
  · refine ⟨'+', by simp, content, rfl, .inr ?_⟩
    rw [added] at hmem
    split at hmem
    · exact mem_of_mem_slice hmem
    · cases hmem

theorem unbroken_toString (n : ℕ) : Unbroken (toString n).toList := by
  intro c hc
  have hlist : (toString n).toList = Nat.toDigits 10 n := Nat.toList_repr
  have hdigit := Nat.isDigit_of_mem_toDigits (by omega) (by omega) (hlist ▸ hc)
  rw [Char.isDigit_iff_toNat] at hdigit
  obtain ⟨hlow, hhigh⟩ : 48 ≤ c.toNat ∧ c.toNat ≤ 57 := hdigit
  simp only [isLineBreak, Bool.or_eq_false_iff, Bool.and_eq_false_iff, decide_eq_false_iff_not,
    beq_eq_false_iff_ne]
  omega

theorem unbroken_formatRange (start stop : ℕ) : Unbroken (formatRange start stop) := by
  rw [formatRange]
  split
  · exact unbroken_toString _
  · exact (unbroken_toString _).append ((unbroken_toString _).cons (by decide))

theorem DiffGroup.unbroken_header (group : DiffGroup old new) : Unbroken group.header := by
  have hmarks : Unbroken "@@ -".toList ∧ Unbroken " +".toList ∧ Unbroken " @@".toList :=
    ⟨unbroken_of_all (by decide), unbroken_of_all (by decide), unbroken_of_all (by decide)⟩
  exact hmarks.1.append <| (unbroken_formatRange _ _).append <| hmarks.2.1.append <|
    (unbroken_formatRange _ _).append hmarks.2.2

end Unbroken

/-- How `difflib` compares two lists of lines. -/
structure Difflib where
  /-- `SequenceMatcher.get_grouped_opcodes`. -/
  groups : (old new : List Chars) → List (DiffGroup old new)
  /-- There is a group for lines that differ. -/
  groups_ne_nil : ∀ old new, old ≠ new → groups old new ≠ []

/-- `unified_diff` with empty ends of lines. -/
def Difflib.unifiedDiff (difflib : Difflib) (old new : List Chars) (fromFile toFile : Chars) :
    List Chars :=
  if (difflib.groups old new).isEmpty then []
  else ("--- ".toList ++ fromFile) :: ("+++ ".toList ++ toFile) ::
    (difflib.groups old new).flatMap DiffGroup.print

end AIpinho.Lib
