import Mathlib.Algebra.GroupWithZero.Nat
import Mathlib.Data.List.Basic
import Mathlib.Data.Int.Notation
import Mathlib.Data.String.Basic

/-!
# JSON values

A number with a fraction is kept as the text it is printed with, and an object as its members in
order. `encodedLength` is the number of UTF-8 bytes of the default one-line encoding.
-/

namespace AIpinho.Lib

open List

/-- A JSON value. -/
inductive Json : Type
  | null
  | bool (b : Bool)
  | int (n : ℤ)
  | float (text : String)
  | str (s : String)
  | list (items : List Json)
  | obj (fields : List (String × Json))

namespace Json

/-- Induction over a value with the items of lists and the members of objects
as the smaller values. -/
@[elab_as_elim]
theorem induction {P : Json → Prop} (hnull : P .null) (hbool : ∀ b, P (.bool b))
    (hint : ∀ n, P (.int n)) (hfloat : ∀ t, P (.float t)) (hstr : ∀ s, P (.str s))
    (hlist : ∀ items : List Json, (∀ v ∈ items, P v) → P (.list items))
    (hobj : ∀ fields : List (String × Json), (∀ f ∈ fields, P f.2) → P (.obj fields))
    (v : Json) : P v :=
  @Json.rec P (fun items => ∀ v ∈ items, P v) (fun fields => ∀ f ∈ fields, P f.2)
    (fun f => P f.2) hnull hbool hint hfloat hstr (fun items ih => hlist items ih)
    (fun fields ih => hobj fields ih) (by simp)
    (fun _ _ hv hvs => forall_mem_cons.mpr ⟨hv, hvs⟩) (by simp)
    (fun _ _ hf hfs => forall_mem_cons.mpr ⟨hf, hfs⟩) (fun _ _ hv => hv) v

/-- The member of an object with a given name. -/
def field? : Json → String → Option Json
  | .obj fields, name => fields.lookup name
  | _, _ => none

def text? : Json → Option String
  | .str s => some s
  | _ => none

/-- Truth of a value in a condition: `null`, `false`, zero and whatever is
empty are false. -/
def truthy : Json → Bool
  | .null => false
  | .bool b => b
  | .int n => n != 0
  | .float t => t != "0.0" && t != "-0.0"
  | .str s => s != ""
  | .list items => !items.isEmpty
  | .obj fields => !fields.isEmpty

def count? : Json → Option ℕ
  | .list items => some items.length
  | .obj fields => some fields.length
  | _ => none

/-- Set a member of an object, in its place if it is there and last if not. -/
def setField (name : String) (v : Json) : List (String × Json) → List (String × Json)
  | [] => [(name, v)]
  | f :: fields => if f.1 = name then (name, v) :: fields else f :: setField name v fields

theorem lookup_setField (name k : String) (v : Json) (fields : List (String × Json)) :
    (setField name v fields).lookup k = if k = name then some v else fields.lookup k := by
  induction fields with
  | nil =>
    rw [setField, lookup_cons]
    split <;> simp_all
  | cons f fields ih =>
    rw [setField]
    by_cases hname : f.1 = name
    · rw [if_pos hname, lookup_cons, lookup_cons, hname]
      by_cases hk : k = name
      · simp [hk]
      · simp [beq_eq_false_iff_ne.mpr hk, hk]
    · rw [if_neg hname, lookup_cons, lookup_cons, ih]
      by_cases hk : k = name
      · rw [hk, beq_eq_false_iff_ne.mpr (Ne.symm hname), if_pos rfl]
      · rw [if_neg hk, if_neg hk]

def wholeNumber? (text : String) : Option ℤ :=
  match text.toList.reverse with
  | '0' :: '.' :: digits => (String.ofList digits.reverse).toInt?
  | _ => none

/-- Add a member to members that are sorted by name. -/
def insertField (f : String × Json) : List (String × Json) → List (String × Json)
  | [] => [f]
  | g :: fields => if f.1 < g.1 then f :: g :: fields else g :: insertField f fields

mutual

/-- A form that equal values share: the members of an object do not have an order,
and truth values and numbers are compared as numbers. -/
def canonical : Json → Json
  | .null => .null
  | .bool b => .int (if b then 1 else 0)
  | .int n => .int n
  | .float t => ((wholeNumber? t).map .int).getD (.float t)
  | .str s => .str s
  | .list items => .list (canonicalItems items)
  | .obj fields => .obj (canonicalFields fields)

def canonicalItems : List Json → List Json
  | [] => []
  | v :: items => v.canonical :: canonicalItems items

/-- The canonical forms of the members of an object, sorted by name. -/
def canonicalFields : List (String × Json) → List (String × Json)
  | [] => []
  | (name, v) :: fields => insertField (name, v.canonical) (canonicalFields fields)

end

mutual

def sameForm : Json → Json → Bool
  | .null, .null => true
  | .bool a, .bool b => a = b
  | .int a, .int b => a = b
  | .float a, .float b => a = b
  | .str a, .str b => a = b
  | .list a, .list b => sameItems a b
  | .obj a, .obj b => sameFields a b
  | _, _ => false

def sameItems : List Json → List Json → Bool
  | [], [] => true
  | v :: a, w :: b => sameForm v w && sameItems a b
  | _, _ => false

def sameFields : List (String × Json) → List (String × Json) → Bool
  | [], [] => true
  | (m, v) :: a, (n, w) :: b => decide (m = n) && sameForm v w && sameFields a b
  | _, _ => false

end

/-- Equality of values, as dictionaries, lists and numbers are compared. -/
instance : BEq Json where
  beq v w := sameForm v.canonical w.canonical

theorem sameForm_iff (v w : Json) : sameForm v w = true ↔ v = w := by
  induction v using Json.induction generalizing w with
  | hnull | hbool | hint | hfloat | hstr => cases w <;> simp [sameForm]
  | hlist items ih =>
    have hitems : ∀ items' : List Json, sameItems items items' = true ↔ items = items' := by
      induction items with
      | nil => intro items'; cases items' <;> simp [sameItems]
      | cons v items ih' =>
        rw [forall_mem_cons] at ih
        intro items'
        cases items' with
        | nil => simp [sameItems]
        | cons w items' => simp [sameItems, ih.1, ih' ih.2]
    cases w <;> simp [sameForm, hitems]
  | hobj fields ih =>
    have hfields : ∀ fields' : List (String × Json),
        sameFields fields fields' = true ↔ fields = fields' := by
      induction fields with
      | nil => intro fields'; cases fields' <;> simp [sameFields]
      | cons f fields ih' =>
        rw [forall_mem_cons] at ih
        intro fields'
        cases fields' with
        | nil => simp [sameFields]
        | cons g fields' => simp [sameFields, ih.1, ih' ih.2, Prod.ext_iff]
    cases w <;> simp [sameForm, hfields]

/-- Equality of values as they are written. -/
instance : DecidableEq Json := fun v w => decidable_of_iff _ (sameForm_iff v w)

theorem beq_iff (v w : Json) : (v == w) = true ↔ v.canonical = w.canonical :=
  sameForm_iff v.canonical w.canonical

instance : EquivBEq Json where
  rfl := by simp [beq_iff]
  symm h := by
    rw [beq_iff] at h ⊢
    exact h.symm
  trans h h' := by
    rw [beq_iff] at h h' ⊢
    exact h.trans h'

example : (Json.obj [("a", .int 1), ("b", .list [])] == .obj [("b", .list []), ("a", .bool true)]) =
    true := by
  decide

/-- Add a member to members that are sorted by name, before those of the same name. -/
def placeField (f : String × Json) : List (String × Json) → List (String × Json)
  | [] => [f]
  | g :: fields => if f.1 ≤ g.1 then f :: g :: fields else g :: placeField f fields

mutual

/-- The value with the members of every object sorted by name. A value is printed
with sorted keys by printing this form. -/
def sorted : Json → Json
  | .list items => .list (sortedItems items)
  | .obj fields => .obj (sortedFields fields)
  | v => v

def sortedItems : List Json → List Json
  | [] => []
  | v :: items => v.sorted :: sortedItems items

def sortedFields : List (String × Json) → List (String × Json)
  | [] => []
  | (name, v) :: fields => placeField (name, v.sorted) (sortedFields fields)

end

theorem insertField_comm {f g : String × Json} (h : f.1 ≠ g.1) (fields : List (String × Json)) :
    insertField f (insertField g fields) = insertField g (insertField f fields) := by
  induction fields with
  | nil =>
    rcases lt_or_gt_of_ne h with hlt | hgt
    · simp [insertField, hlt, not_lt_of_gt hlt]
    · simp [insertField, hgt, not_lt_of_gt hgt]
  | cons m fields ih =>
    by_cases hf : f.1 < m.1 <;> by_cases hg : g.1 < m.1
    · rcases lt_or_gt_of_ne h with hlt | hgt
      · simp [insertField, hf, hg, hlt, not_lt_of_gt hlt]
      · simp [insertField, hf, hg, hgt, not_lt_of_gt hgt]
    · have hfg : ¬g.1 < f.1 := fun hlt => hg (lt_trans hlt hf)
      simp [insertField, hf, hg, hfg]
    · have hgf : ¬f.1 < g.1 := fun hlt => hf (lt_trans hlt hg)
      simp [insertField, hf, hg, hgf]
    · simp [insertField, hf, hg, ih]

theorem canonicalFields_placeField (f : String × Json) (fields : List (String × Json)) :
    canonicalFields (placeField f fields) = canonicalFields (f :: fields) := by
  induction fields with
  | nil => rfl
  | cons g fields ih =>
    by_cases hle : f.1 ≤ g.1
    · simp [placeField, hle]
    · have hne : g.1 ≠ f.1 := fun heq => hle (le_of_eq heq.symm)
      rw [placeField, if_neg hle]
      simp only [canonicalFields] at ih ⊢
      rw [ih, insertField_comm (by exact hne)]

theorem canonical_sorted (v : Json) : v.sorted.canonical = v.canonical := by
  induction v using Json.induction with
  | hnull | hbool | hint | hfloat | hstr => rfl
  | hlist items ih =>
    have hitems : canonicalItems (sortedItems items) = canonicalItems items := by
      induction items with
      | nil => rfl
      | cons v items ih' =>
        rw [forall_mem_cons] at ih
        simp only [sortedItems, canonicalItems, ih.1, ih' ih.2]
    simp only [sorted, canonical, hitems]
  | hobj fields ih =>
    have hfields : canonicalFields (sortedFields fields) = canonicalFields fields := by
      induction fields with
      | nil => rfl
      | cons f fields ih' =>
        rw [forall_mem_cons] at ih
        simp only [sortedFields, canonicalFields_placeField, canonicalFields, ih.1, ih' ih.2]
    simp only [sorted, canonical, hfields]

theorem beq_of_sorted_eq {v w : Json} (h : v.sorted = w.sorted) : (v == w) = true := by
  rw [beq_iff, ← canonical_sorted v, ← canonical_sorted w, h]

example : (Json.obj [("b", .int 1), ("a", .null)]).sorted = .obj [("a", .null), ("b", .int 1)] := by
  decide

/-- The bytes of one character inside a string. -/
def escapedLength (c : Char) : ℕ :=
  if c = '"' ∨ c = '\\' ∨ c = '\n' ∨ c = '\r' ∨ c = '\t' ∨ c.toNat = 8 ∨ c.toNat = 12 then 2
  else if c.toNat < 32 then 6
  else c.utf8Size

def encodedTextLength (s : String) : ℕ := (s.toList.map escapedLength).sum + 2

/-- The bytes of the separators between `n` parts and of the brackets. -/
def encodedFrameLength (n : ℕ) : ℕ := 2 + 2 * (n - 1)

mutual

/-- The bytes of the one-line encoding of a value. -/
def encodedLength : Json → ℕ
  | .null => 4
  | .bool b => if b then 4 else 5
  | .int n => (toString n).length
  | .float t => t.length
  | .str s => encodedTextLength s
  | .list items => encodedFrameLength items.length + encodedItemsLength items
  | .obj fields => encodedFrameLength fields.length + encodedFieldsLength fields

def encodedItemsLength : List Json → ℕ
  | [] => 0
  | v :: items => v.encodedLength + encodedItemsLength items

/-- The bytes of the members of an object, without separators between them. -/
def encodedFieldsLength : List (String × Json) → ℕ
  | [] => 0
  | (name, v) :: fields =>
    encodedTextLength name + 2 + v.encodedLength + encodedFieldsLength fields

end

theorem encodedLength_list (items : List Json) : (Json.list items).encodedLength =
      encodedFrameLength items.length + encodedItemsLength items := by
  rw [encodedLength]

theorem encodedLength_obj (fields : List (String × Json)) : (Json.obj fields).encodedLength =
      encodedFrameLength fields.length + encodedFieldsLength fields := by
  rw [encodedLength]

theorem encodedItemsLength_cons (v : Json) (items : List Json) :
    encodedItemsLength (v :: items) = v.encodedLength + encodedItemsLength items := by
  rw [encodedItemsLength]

theorem encodedFieldsLength_cons (name : String) (v : Json) (fields : List (String × Json)) :
    encodedFieldsLength ((name, v) :: fields) =
      encodedTextLength name + 2 + v.encodedLength + encodedFieldsLength fields := by
  rw [encodedFieldsLength]

example : (Json.obj [("a", .list [.int 10, .null]), ("b", .str "x")]).encodedLength = 27 := by
  decide

end Json

end AIpinho.Lib
