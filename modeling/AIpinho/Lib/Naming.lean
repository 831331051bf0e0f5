import AIpinho.Lib.Json
import Mathlib.Data.Countable.Basic
import Mathlib.Data.Nat.Pairing
import Mathlib.Logic.Equiv.List

/-!
# Names

The values of a countable type can be given distinct texts as names, as a hash without
collisions does. Texts and JSON values are countable.
-/

namespace AIpinho.Lib

instance countableChar : Countable Char :=
  Function.Injective.countable fun _ _ => Char.toNat_inj.mp

instance countableString : Countable String :=
  Function.Injective.countable fun _ _ => String.toList_inj.mp

theorem padded_injective (base : String) (c : Char) :
    Function.Injective fun n => String.ofList (base.toList ++ List.replicate n c) := by
  intro m n h
  have hchars := String.ofList_injective h
  rw [List.append_cancel_left_eq] at hchars
  have hlength := congrArg List.length hchars
  rwa [List.length_replicate, List.length_replicate] at hlength

theorem eq_of_lookup {α : Type} [DecidableEq α] {known : List (α × String)}
    (hknown : (known.map Prod.snd).Nodup) {a b : α} {s : String}
    (ha : known.lookup a = some s) (hb : known.lookup b = some s) : a = b := by
  have hmem : ∀ {c}, known.lookup c = some s → (c, s) ∈ known := by
    intro c hc
    obtain ⟨before, after, rfl, -⟩ := List.lookup_eq_some_iff.mp hc
    simp
  exact congrArg Prod.fst (List.inj_on_of_nodup_map hknown (hmem ha) (hmem hb) rfl)

/-- Names without collisions, of which some are given. -/
theorem exists_names_extending {α : Type} [Countable α] [DecidableEq α]
    {known : List (α × String)} (hknown : (known.map Prod.snd).Nodup) : ∃ other : α → String,
    Function.Injective fun a => (known.lookup a).getD (other a) := by
  obtain ⟨number, hnumber⟩ := exists_injective_nat α
  -- the other names are longer than those that are given
  let base := String.join (known.map Prod.snd)
  have hlong : ∀ a b s, known.lookup a = some s →
      s ≠ String.ofList (base.toList ++ List.replicate (number b + 1) 'n') := by
    intro a b s hs heq
    obtain ⟨before, after, rfl, -⟩ := List.lookup_eq_some_iff.mp hs
    have hlength := congrArg String.length heq
    simp [base] at hlength
    omega
  refine ⟨fun a => String.ofList (base.toList ++ List.replicate (number a + 1) 'n'), ?_⟩
  intro a b h
  cases ha : known.lookup a with
  | some s =>
    cases hb : known.lookup b with
    | some t =>
      simp only [ha, hb, Option.getD_some] at h
      exact eq_of_lookup hknown ha (h ▸ hb)
    | none =>
      simp only [ha, hb, Option.getD_some, Option.getD_none] at h
      exact absurd h (hlong a b s ha)
  | none =>
    cases hb : known.lookup b with
    | some t =>
      simp only [ha, hb, Option.getD_some, Option.getD_none] at h
      exact absurd h.symm (hlong b a t hb)
    | none =>
      simp only [ha, hb, Option.getD_none] at h
      exact hnumber (Nat.succ.inj (padded_injective base 'n' h))

namespace Json

noncomputable def numberOf (α : Type) [Countable α] : α → ℕ := (exists_injective_nat α).choose

theorem numberOf_inj {α : Type} [Countable α] {a b : α} : numberOf α a = numberOf α b ↔ a = b :=
  (exists_injective_nat α).choose_spec.eq_iff

mutual

noncomputable def code : Json → ℕ
  | .null => Nat.pair 0 0
  | .bool b => Nat.pair 1 (numberOf Bool b)
  | .int n => Nat.pair 2 (numberOf ℤ n)
  | .float t => Nat.pair 3 (numberOf String t)
  | .str s => Nat.pair 4 (numberOf String s)
  | .list items => Nat.pair 5 (codeItems items)
  | .obj fields => Nat.pair 6 (codeFields fields)

noncomputable def codeItems : List Json → ℕ
  | [] => 0
  | v :: items => Nat.pair v.code (codeItems items) + 1

noncomputable def codeFields : List (String × Json) → ℕ
  | [] => 0
  | (name, v) :: fields => Nat.pair (numberOf String name) (Nat.pair v.code (codeFields fields)) + 1

end

theorem codeItems_inj {items : List Json} (h : ∀ v ∈ items, ∀ w : Json, v.code = w.code → v = w)
    {items' : List Json} (heq : codeItems items = codeItems items') : items = items' := by
  induction items generalizing items' with
  | nil =>
    cases items' with
    | nil => rfl
    | cons w items' => simp [codeItems] at heq
  | cons v items ih =>
    cases items' with
    | nil => simp [codeItems] at heq
    | cons w items' =>
      rw [List.forall_mem_cons] at h
      simp only [codeItems, Nat.add_right_cancel_iff, Nat.pair_eq_pair] at heq
      rw [h.1 w heq.1, ih h.2 heq.2]

theorem codeFields_inj {fields : List (String × Json)}
    (h : ∀ f ∈ fields, ∀ w : Json, f.2.code = w.code → f.2 = w) {fields' : List (String × Json)}
    (heq : codeFields fields = codeFields fields') : fields = fields' := by
  induction fields generalizing fields' with
  | nil =>
    cases fields' with
    | nil => rfl
    | cons f fields' => simp [codeFields] at heq
  | cons e fields ih =>
    cases fields' with
    | nil => simp [codeFields] at heq
    | cons f fields' =>
      rw [List.forall_mem_cons] at h
      simp only [codeFields, Nat.add_right_cancel_iff, Nat.pair_eq_pair, numberOf_inj] at heq
      rw [ih h.2 heq.2.2, Prod.ext heq.1 (h.1 f.2 heq.2.1)]

theorem code_injective : Function.Injective code := by
  intro v
  induction v using Json.induction with
  | hnull => intro w heq; cases w <;> simp [code, Nat.pair_eq_pair] at heq ⊢
  | hbool b => intro w heq; cases w <;> simp_all [code, Nat.pair_eq_pair, numberOf_inj]
  | hint | hfloat | hstr => intro w heq; cases w <;> simp_all [code, Nat.pair_eq_pair, numberOf_inj]
  | hlist items ih =>
    intro w heq
    cases w <;> simp [code, Nat.pair_eq_pair] at heq
    rw [codeItems_inj (fun v hv w hvw => ih v hv hvw) heq]
  | hobj fields ih =>
    intro w heq
    cases w <;> simp [code, Nat.pair_eq_pair] at heq
    rw [codeFields_inj (fun f hf w hfw => ih f hf hfw) heq]

instance countableJson : Countable Json := code_injective.countable

end Json

end AIpinho.Lib
