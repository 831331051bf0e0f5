import Mathlib.Data.List.Nodup
import Mathlib.Data.List.Lookmap

/-!
# Tables

A table is a list of entries with distinct keys, in the order in which they were
added; writing an entry again leaves it in its place. The directories of a file system
are listed in such an order.
-/

namespace AIpinho.Lib

open List

/-- A list of entries with distinct keys. -/
@[ext]
structure Table (κ β : Type) where
  entries : List (κ × β)
  nodup : (entries.map Prod.fst).Nodup

namespace Table

variable {κ β : Type} [DecidableEq κ]

def get? (t : Table κ β) (k : κ) : Option β := t.entries.lookup k

def replaceEntry (k : κ) (v : β) (entries : List (κ × β)) : List (κ × β) :=
  entries.map fun e => if e.1 = k then (k, v) else e

theorem map_fst_replaceEntry (k : κ) (v : β) (entries : List (κ × β)) :
    (replaceEntry k v entries).map Prod.fst = entries.map Prod.fst := by
  rw [replaceEntry, map_map]
  refine map_congr_left fun e _ => ?_
  simp only [Function.comp_apply]
  split
  · rename_i hk
    exact hk.symm
  · rfl

theorem lookup_eq_none_iff_notMem {k : κ} {entries : List (κ × β)} :
    entries.lookup k = none ↔ k ∉ entries.map Prod.fst := by
  rw [lookup_eq_none_iff, mem_map]
  constructor
  · rintro h ⟨e, he, rfl⟩
    have hne := h e he
    simp at hne
  · intro h e he
    rw [bne_iff_ne]
    rintro rfl
    exact h ⟨e, he, rfl⟩

/-- Write the entry of a key: in its place, or at the end if it is new. -/
def insert (k : κ) (v : β) (t : Table κ β) : Table κ β :=
  if hk : (t.get? k).isSome then
    ⟨replaceEntry k v t.entries, by rw [map_fst_replaceEntry]; exact t.nodup⟩
  else
    ⟨t.entries ++ [(k, v)], by
      rw [List.map_append, List.nodup_append]
      refine ⟨t.nodup, by simp, ?_⟩
      have hnone := lookup_eq_none_iff_notMem.mp (Option.not_isSome_iff_eq_none.mp hk)
      rintro a ha b hb rfl
      rw [List.map_cons, List.map_nil, List.mem_singleton] at hb
      subst hb
      exact hnone ha⟩

variable {t : Table κ β} {k k' : κ} {v v' : β}

theorem get?_eq_some_iff : t.get? k = some v ↔ (k, v) ∈ t.entries := by
  obtain ⟨entries, nodup⟩ := t
  rw [get?]
  induction entries with
  | nil => simp
  | cons e entries ih =>
    obtain ⟨key, value⟩ := e
    simp only [map_cons, nodup_cons] at nodup
    rw [lookup_cons, mem_cons, Prod.mk.injEq]
    by_cases hk : k = key
    · subst hk
      have hnot : (k, v) ∉ entries := fun hmem => nodup.1 (mem_map.mpr ⟨_, hmem, rfl⟩)
      simp [hnot, eq_comm]
    · simp [beq_eq_false_iff_ne.mpr hk, hk, ih nodup.2]

theorem lookup_replaceEntry_self (hk : ((t.entries).lookup k).isSome) :
    (replaceEntry k v t.entries).lookup k = some v := by
  obtain ⟨old, hold⟩ := Option.isSome_iff_exists.mp hk
  have hmem : (k, old) ∈ t.entries := get?_eq_some_iff.mp hold
  let t' : Table κ β := ⟨replaceEntry k v t.entries, by
    rw [map_fst_replaceEntry]
    exact t.nodup⟩
  refine (get?_eq_some_iff (t := t')).mpr ?_
  exact mem_map.mpr ⟨_, hmem, by simp⟩

theorem lookup_replaceEntry_of_ne (hk : k' ≠ k) (entries : List (κ × β)) :
    (replaceEntry k v entries).lookup k' = entries.lookup k' := by
  induction entries with
  | nil => rfl
  | cons e entries ih =>
    obtain ⟨key, value⟩ := e
    simp only [replaceEntry, map_cons] at ih ⊢
    split
    · rename_i hkey
      rw [lookup_cons, lookup_cons, hkey, ih]
      simp [beq_eq_false_iff_ne.mpr hk]
    · rw [lookup_cons, lookup_cons, ih]

@[simp] theorem get?_insert_self (k : κ) (v : β) (t : Table κ β) :
    (t.insert k v).get? k = some v := by
  rw [insert]
  split
  · rename_i hk
    exact lookup_replaceEntry_self hk
  · rename_i hk
    have hnone : t.entries.lookup k = none := Option.not_isSome_iff_eq_none.mp hk
    change (t.entries ++ [(k, v)]).lookup k = some v
    simp [lookup_append, hnone]

theorem get?_insert_of_ne (hk : k' ≠ k) (v : β) (t : Table κ β) :
    (t.insert k v).get? k' = t.get? k' := by
  rw [insert]
  split
  · exact lookup_replaceEntry_of_ne hk t.entries
  · change (t.entries ++ [(k, v)]).lookup k' = t.entries.lookup k'
    simp [lookup_append, lookup_cons, beq_eq_false_iff_ne.mpr hk]

theorem insert_get? (h : t.get? k = some v) : t.insert k v = t := by
  rw [insert, dif_pos (by simp [h])]
  ext1
  have hself : ∀ e ∈ t.entries, (if e.1 = k then (k, v) else e) = e := by
    intro e he
    split
    · rename_i hk
      subst hk
      have hget : t.get? e.1 = some e.2 := get?_eq_some_iff.mpr he
      rw [h, Option.some.injEq] at hget
      rw [hget]
    · rfl
  exact (map_congr_left hself).trans (map_id _)

theorem replaceEntry_replaceEntry (k : κ) (v v' : β) (entries : List (κ × β)) :
    replaceEntry k v' (replaceEntry k v entries) = replaceEntry k v' entries := by
  rw [replaceEntry, replaceEntry, replaceEntry, map_map]
  refine map_congr_left fun e _ => ?_
  simp only [Function.comp_apply]
  split <;> simp_all

theorem insert_insert (k : κ) (v v' : β) (t : Table κ β) :
    (t.insert k v).insert k v' = t.insert k v' := by
  ext1
  rw [insert, dif_pos (by simp)]
  by_cases hk : (t.get? k).isSome = true
  · rw [insert, dif_pos hk, insert, dif_pos hk]
    exact replaceEntry_replaceEntry k v v' t.entries
  · rw [insert, dif_neg hk, insert, dif_neg hk]
    have hnone := lookup_eq_none_iff_notMem.mp (Option.not_isSome_iff_eq_none.mp hk)
    have hself : ∀ e ∈ t.entries, (if e.1 = k then (k, v') else e) = e := by
      intro e he
      rw [if_neg]
      rintro rfl
      exact hnone (mem_map.mpr ⟨e, he, rfl⟩)
    change replaceEntry k v' (t.entries ++ [(k, v)]) = t.entries ++ [(k, v')]
    rw [replaceEntry, map_append, map_congr_left hself, map_id']
    simp

theorem flatMap_insert_append {t : Table κ (List β)} (k : κ) (row : β) :
    ((t.insert k ((t.get? k).getD [] ++ [row])).entries.flatMap Prod.snd).Perm
      (t.entries.flatMap Prod.snd ++ [row]) := by
  obtain ⟨entries, nodup⟩ := t
  rw [insert]
  split
  · rename_i hk
    simp only [get?] at hk ⊢
    induction entries with
    | nil => simp at hk
    | cons e entries ih =>
      obtain ⟨key, rows⟩ := e
      rw [map_cons, nodup_cons] at nodup
      by_cases hkey : k = key
      · subst hkey
        have hself : ∀ e ∈ entries, (if e.1 = k then (k, rows ++ [row]) else e) = e := by
          intro e he
          rw [if_neg]
          rintro rfl
          exact nodup.1 (mem_map.mpr ⟨e, he, rfl⟩)
        rw [lookup_cons, beq_self_eq_true, replaceEntry, map_cons, if_pos rfl]
        simp only [Option.getD_some]
        rw [map_congr_left hself, map_id', flatMap_cons, flatMap_cons, append_assoc, append_assoc]
        exact List.Perm.append_left rows perm_append_comm
      · have hne : (k == key) = false := beq_eq_false_iff_ne.mpr hkey
        rw [lookup_cons, hne] at hk ⊢
        rw [replaceEntry, map_cons, if_neg (Ne.symm hkey), flatMap_cons, flatMap_cons, append_assoc]
        exact List.Perm.append_left rows (ih nodup.2 hk)
  · rename_i hk
    rw [Option.not_isSome_iff_eq_none] at hk
    rw [hk, Option.getD_none, nil_append, flatMap_append]
    simp

theorem insert_entries_of_notMem (hk : k ∉ t.entries.map Prod.fst) (v : β) :
    (t.insert k v).entries = t.entries ++ [(k, v)] := by
  have hnone : t.get? k = none := lookup_eq_none_iff_notMem.mpr hk
  rw [insert, dif_neg (by simp [hnone])]

def insertAll (key : β → κ) (t : Table κ β) (items : List β) : Table κ β :=
  items.foldl (fun t item => t.insert (key item) item) t

/-- `{key: item for item in items}`: the last item of each key. -/
def ofItems (key : β → κ) (items : List β) : Table κ β :=
  insertAll key ⟨[], List.nodup_nil⟩ items

/-- The items. -/
def values (t : Table κ β) : List β := t.entries.map Prod.snd

def keep (p : κ → Bool) (t : Table κ β) : Table κ β where
  entries := t.entries.filter fun e => p e.1
  nodup := t.nodup.sublist (List.filter_sublist.map Prod.fst)

def Keyed (key : β → κ) (t : Table κ β) : Prop := ∀ e ∈ t.entries, e.1 = key e.2

variable {key : β → κ}

theorem Keyed.insert (h : Keyed key t) (item : β) : Keyed key (t.insert (key item) item) := by
  intro e he
  rw [Table.insert] at he
  split at he
  · obtain ⟨old, hold, rfl⟩ := mem_map.mp he
    split
    · rfl
    · exact h old hold
  · rcases mem_append.mp he with he | he
    · exact h e he
    · rw [mem_singleton.mp he]

theorem Keyed.insertAll (h : Keyed key t) (items : List β) : Keyed key (insertAll key t items) := by
  induction items generalizing t with
  | nil => exact h
  | cons item items ih => exact ih (h.insert item)

theorem keyed_ofItems (key : β → κ) (items : List β) : Keyed key (ofItems key items) := by
  refine Keyed.insertAll ?_ items
  intro e he
  cases he

omit [DecidableEq κ] in
theorem Keyed.keep (h : Keyed key t) (p : κ → Bool) : Keyed key (t.keep p) :=
  fun e he => h e (mem_of_mem_filter he)

omit [DecidableEq κ] in
theorem Keyed.map_values (h : Keyed key t) : t.values.map key = t.entries.map Prod.fst := by
  rw [values, map_map]
  exact map_congr_left fun e he => (h e he).symm

omit [DecidableEq κ] in
theorem Keyed.values_nodup (h : Keyed key t) : (t.values.map key).Nodup := by
  rw [h.map_values]
  exact t.nodup

theorem values_insertAll {items : List β} (hitems : (items.map key).Nodup)
    (hnew : ∀ item ∈ items, key item ∉ t.entries.map Prod.fst) :
    (insertAll key t items).values = t.values ++ items := by
  induction items generalizing t with
  | nil => exact (append_nil _).symm
  | cons item items ih =>
    rw [map_cons, nodup_cons] at hitems
    rw [forall_mem_cons] at hnew
    have hentries := insert_entries_of_notMem hnew.1 item
    have hrest := ih (t := t.insert (key item) item) hitems.2 (by
      intro other hother hmem
      rw [hentries, map_append, mem_append] at hmem
      rcases hmem with hmem | hmem
      · exact hnew.2 other hother hmem
      · exact hitems.1 (mem_map.mpr ⟨other, hother, by simpa using hmem⟩))
    have hvalues : (t.insert (key item) item).values = t.values ++ [item] := by
      rw [values, hentries, map_append]
      rfl
    rw [hvalues, append_assoc] at hrest
    exact hrest

theorem values_ofItems {items : List β} (h : (items.map key).Nodup) :
    (ofItems key items).values = items :=
  values_insertAll h fun _ _ => not_mem_nil

omit [DecidableEq κ] in
theorem Keyed.values_keep (h : Keyed key t) (p : κ → Bool) :
    (t.keep p).values = t.values.filter fun item => p (key item) := by
  have hkeys : t.entries.filter (fun e => p e.1) =
      t.entries.filter ((fun item => p (key item)) ∘ Prod.snd) :=
    filter_congr fun e he => congrArg p (h e he)
  rw [values, values, filter_map, ← hkeys]
  rfl

theorem length_insert_le (k : κ) (v : β) (t : Table κ β) :
    (t.insert k v).entries.length ≤ t.entries.length + 1 := by
  rw [insert]
  split
  · simp [replaceEntry]
  · simp

theorem length_insertAll_le (key : β → κ) (t : Table κ β) (items : List β) :
    (insertAll key t items).entries.length ≤ t.entries.length + items.length := by
  induction items generalizing t with
  | nil => exact Nat.le_refl _
  | cons item items ih =>
    have hinsert := length_insert_le (key item) item t
    have hrest := ih (t.insert (key item) item)
    rw [length_cons]
    rw [insertAll, foldl_cons, ← insertAll]
    omega

theorem values_insertAll_of_length {items : List β}
    (h : (insertAll key t items).entries.length = t.entries.length + items.length) :
    (insertAll key t items).values = t.values ++ items := by
  induction items generalizing t with
  | nil => exact (append_nil _).symm
  | cons item items ih =>
    have hrest := length_insertAll_le key (t.insert (key item) item) items
    rw [insertAll, foldl_cons, ← insertAll, length_cons] at h
    -- an entry that was there before would not add one
    have hnew : key item ∉ t.entries.map Prod.fst := by
      intro hmem
      have hsome : (t.get? (key item)).isSome := by
        by_contra hnone
        exact lookup_eq_none_iff_notMem.mp (Option.not_isSome_iff_eq_none.mp hnone) hmem
      have hlength : (t.insert (key item) item).entries.length = t.entries.length := by
        simp [insert, hsome, replaceEntry]
      omega
    have hentries := insert_entries_of_notMem hnew item
    have hvalues : (t.insert (key item) item).values = t.values ++ [item] := by
      rw [values, hentries, map_append]
      rfl
    have hlast := ih (t := t.insert (key item) item) (by
      rw [h, hentries, length_append, length_singleton]
      omega)
    rw [hvalues, append_assoc] at hlast
    exact hlast

/-- Add rows to the lists of their keys, one after the other:
`setdefault(key, []).append(row)`. -/
def group (t : Table κ (List β)) (rows : List (κ × β)) : Table κ (List β) :=
  rows.foldl (fun t row => t.insert row.1 ((t.get? row.1).getD [] ++ [row.2])) t

theorem get?_group {t : Table κ (List β)} {k : κ} (rows : List (κ × β)) : (t.group rows).get? k =
      if (rows.filter fun row => row.1 = k) = [] then t.get? k
      else some ((t.get? k).getD [] ++ (rows.filter fun row => row.1 = k).map Prod.snd) := by
  induction rows generalizing t with
  | nil => rfl
  | cons row rows ih =>
    rw [group, foldl_cons, ← group, ih]
    by_cases hk : row.1 = k
    · subst hk
      rw [get?_insert_self]
      by_cases hrest : (rows.filter fun other => other.1 = row.1) = [] <;> simp [hrest]
    · have hskip : ((row :: rows).filter fun other => other.1 = k) =
          rows.filter fun other => other.1 = k := filter_cons_of_neg (by simpa using hk)
      rw [get?_insert_of_ne (Ne.symm hk), hskip]

theorem filter_entries (t : Table κ β) (k : κ) :
    (t.entries.filter fun e => e.1 = k).map Prod.snd = (t.get? k).toList := by
  obtain ⟨entries, nodup⟩ := t
  rw [get?]
  induction entries with
  | nil => rfl
  | cons e entries ih =>
    rw [map_cons, nodup_cons] at nodup
    have hrest := ih nodup.2
    dsimp only at hrest ⊢
    obtain ⟨key, value⟩ := e
    by_cases hk : key = k
    · subst hk
      have hnone : entries.filter (fun other => other.1 = key) = [] :=
        filter_eq_nil_iff.mpr fun other hother hkey =>
          nodup.1 (mem_map.mpr ⟨other, hother, of_decide_eq_true hkey⟩)
      simp [hnone]
    · simp [lookup_cons, hk, beq_eq_false_iff_ne.mpr (Ne.symm hk), hrest]

end Table

end AIpinho.Lib
