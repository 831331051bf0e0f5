import Mathlib.Algebra.BigOperators.Group.List.Basic
import Mathlib.Algebra.GroupWithZero.Nat
import Mathlib.Data.List.Induction
import Mathlib.Data.List.Sort

/-!
# The budget of a context

The items of a context are taken in the order of their priority as long as there is room for
them. The last item that still fits in part is cut.
-/

namespace AIpinho.Rag

open List

inductive ContextKind
  | retrievalHit | curatedMemory | evidenceItem | reportSection | fileExcerpt
  | visualEvidence | ocrTextBlock | visionContextItem | ocrContextItem
  deriving DecidableEq

/-- `ContextInjectionItem`, with what the budget reads or changes. -/
structure ContextInjectionItem (Score : Type) where
  contextItemId : String
  kind : ContextKind
  content : List Char
  score : Score
  rank : ℤ
  truncated : Bool
  warnings : List String

/-- The limits that `apply` reads from the configuration and the overrides. -/
structure BudgetLimits where
  maxTotal : ℕ
  maxRetrieval : ℕ
  maxMemory : ℕ
  maxChars : ℕ
  maxPerItem : ℕ

def budgetLimits (config overrides : List (String × ℕ)) : BudgetLimits :=
  let limit (name : String) (default : ℕ) : ℕ :=
    ((overrides.lookup name).or (config.lookup name)).getD default
  { maxTotal := limit "max_context_items_total" 12
    maxRetrieval := limit "max_retrieval_items" 8
    maxMemory := limit "max_memory_items" 4
    maxChars := limit "max_context_chars_total" 24000
    maxPerItem := limit "max_context_chars_per_item" 2500 }

/-- The variables of the loop. -/
structure BudgetState (Score : Type) where
  selected : List (ContextInjectionItem Score) := []
  omitted : List String := []
  truncated : List String := []
  used : ℕ := 0
  retrievalCount : ℕ := 0
  memoryCount : ℕ := 0

inductive BudgetStatus
  | fit | partly
  deriving DecidableEq

structure ContextBudgetResult where
  status : BudgetStatus
  maxItems : ℕ
  maxChars : ℕ
  inputItems : ℕ
  admittedItems : ℕ
  retrievalItems : ℕ
  memoryItems : ℕ
  usedChars : ℕ
  omittedItemIds : List String
  truncatedItemIds : List String
  warnings : List String

namespace ContextInjectionItem

variable {Score : Type} (item : ContextInjectionItem Score)

def isMemory : Bool := item.kind = .curatedMemory

def cut (n : ℕ) : ContextInjectionItem Score :=
  { item with
    content := item.content.take n
    truncated := true
    warnings := item.warnings ++ ["context_item_truncated"] }

def cutPerItem (maxPerItem : ℕ) : ContextInjectionItem Score :=
  if maxPerItem < item.content.length then item.cut maxPerItem else item

end ContextInjectionItem

def kindWeight : ContextKind → ℕ
  | .evidenceItem => 80
  | .reportSection => 70
  | .curatedMemory => 60
  | .fileExcerpt => 55
  | .retrievalHit => 50
  | _ => 0

section Coordinator

variable {Score : Type}

namespace BudgetState

variable (s : BudgetState Score)

def omitItem (id : String) : BudgetState Score := { s with omitted := s.omitted ++ [id] }

def noteCut (id : String) : BudgetState Score := { s with truncated := s.truncated ++ [id] }

def selectItem (item : ContextInjectionItem Score) : BudgetState Score :=
  { s with
    selected := s.selected ++ [item]
    used := s.used + item.content.length
    memoryCount := if item.isMemory then s.memoryCount + 1 else s.memoryCount
    retrievalCount := if item.isMemory then s.retrievalCount else s.retrievalCount + 1 }

def countExhausted (limits : BudgetLimits) (item : ContextInjectionItem Score) : Prop :=
  limits.maxTotal ≤ s.selected.length ∨
    (item.isMemory = true ∧ limits.maxMemory ≤ s.memoryCount) ∨
    (item.isMemory = false ∧ limits.maxRetrieval ≤ s.retrievalCount)

instance (limits : BudgetLimits) (item : ContextInjectionItem Score) :
    Decidable (s.countExhausted limits item) := inferInstanceAs (Decidable (_ ∨ _))

end BudgetState

/-- One round of the loop. -/
def budgetStep (limits : BudgetLimits) (s : BudgetState Score)
    (original : ContextInjectionItem Score) : BudgetState Score :=
  let id := original.contextItemId
  if s.countExhausted limits original then s.omitItem id
  else
    let item := original.cutPerItem limits.maxPerItem
    let s := if limits.maxPerItem < original.content.length then s.noteCut id else s
    if limits.maxChars < s.used + item.content.length then
      if limits.maxChars ≤ s.used then s.omitItem id
      else (s.noteCut id).selectItem (item.cut (limits.maxChars - s.used))
    else s.selectItem item

/-- The loop. -/
def budgetRun (limits : BudgetLimits) (items : List (ContextInjectionItem Score)) :
    BudgetState Score :=
  items.foldl (budgetStep limits) {}

/-- What `apply` needs to know of scores. -/
structure ScoreServices (Score : Type) where
  /-- `-float(weight + score)`. -/
  minusWeighted : ℕ → Score → Score
  /-- The order of the keys that the items are sorted by. -/
  le : Score × ℤ × String → Score × ℤ × String → Bool

variable (scores : ScoreServices Score)

def ScoreServices.priority (item : ContextInjectionItem Score) : Score × ℤ × String :=
  (scores.minusWeighted (kindWeight item.kind) item.score, item.rank, item.contextItemId)

def ScoreServices.ordered (items : List (ContextInjectionItem Score)) :
    List (ContextInjectionItem Score) :=
  items.insertionSort fun a b => scores.le (scores.priority a) (scores.priority b) = true

/-- `ContextBudgetCoordinator.apply`. -/
def applyBudget (config overrides : List (String × ℕ)) (items : List (ContextInjectionItem Score)) :
    List (ContextInjectionItem Score) × ContextBudgetResult :=
  let limits := budgetLimits config overrides
  let s := budgetRun limits (scores.ordered items)
  let warnings := (if s.omitted.isEmpty then [] else ["context_items_omitted_by_budget"]) ++
    if s.truncated.isEmpty then [] else ["context_items_truncated_by_budget"]
  (s.selected,
    { status := if warnings.isEmpty then .fit else .partly
      maxItems := limits.maxTotal
      maxChars := limits.maxChars
      inputItems := items.length
      admittedItems := s.selected.length
      retrievalItems := s.retrievalCount
      memoryItems := s.memoryCount
      usedChars := s.used
      omittedItemIds := s.omitted
      truncatedItemIds := s.truncated.eraseDups
      warnings := warnings })

/-! ### One round -/

section Round

variable {limits : BudgetLimits} {s : BudgetState Score} {item : ContextInjectionItem Score}

def BudgetState.room (limits : BudgetLimits) (s : BudgetState Score) : ℕ :=
  min limits.maxPerItem (limits.maxChars - s.used)

def BudgetState.Exhausted (limits : BudgetLimits) (s : BudgetState Score)
    (item : ContextInjectionItem Score) : Prop :=
  s.countExhausted limits item ∨
    (limits.maxChars ≤ s.used ∧ 0 < limits.maxPerItem ∧ item.content ≠ [])

/-- What is kept of an item: the item, with a beginning of its content. -/
structure ContextInjectionItem.IsCutOf (kept item : ContextInjectionItem Score) (n : ℕ) : Prop where
  contextItemId : kept.contextItemId = item.contextItemId
  kind : kept.kind = item.kind
  score : kept.score = item.score
  rank : kept.rank = item.rank
  content : kept.content = item.content.take n
  truncated : kept.truncated = (item.truncated || decide (n < item.content.length))

theorem ContextInjectionItem.cutPerItem_isCutOf (item : ContextInjectionItem Score) (n : ℕ) :
    (item.cutPerItem n).IsCutOf item n := by
  by_cases h : n < item.content.length
  · rw [cutPerItem, if_pos h]
    exact ⟨rfl, rfl, rfl, rfl, rfl, by simp [cut, h]⟩
  · rw [cutPerItem, if_neg h]
    exact ⟨rfl, rfl, rfl, rfl, (take_of_length_le (not_lt.mp h)).symm, by simp [h]⟩

namespace ContextInjectionItem.IsCutOf

variable {kept : ContextInjectionItem Score} {n m : ℕ}

theorem length_content (h : kept.IsCutOf item n) :
    kept.content.length = min n item.content.length := by
  rw [h.content, length_take]

theorem cut (h : kept.IsCutOf item n) (hm : m < kept.content.length) :
    (kept.cut m).IsCutOf item (min n m) where
  contextItemId := h.contextItemId
  kind := h.kind
  score := h.score
  rank := h.rank
  content := by rw [ContextInjectionItem.cut, h.content, take_take, min_comm]
  truncated := by
    have hlength := h.length_content
    have hlt : min n m < item.content.length := by omega
    simp [ContextInjectionItem.cut, hlt]

theorem congr (h : kept.IsCutOf item n) (hm : min n item.content.length =
    min m item.content.length) : kept.IsCutOf item m where
  contextItemId := h.contextItemId
  kind := h.kind
  score := h.score
  rank := h.rank
  content := by rw [h.content, take_eq_take_min, hm, ← take_eq_take_min]
  truncated := by
    have hiff : n < item.content.length ↔ m < item.content.length := by omega
    simp only [h.truncated, hiff]

end ContextInjectionItem.IsCutOf

/-- Only the list of cut items has grown, and that only if the item is longer than what is
left for it. -/
def BudgetState.NotesCuts (limits : BudgetLimits) (s : BudgetState Score)
    (item : ContextInjectionItem Score) (s' : BudgetState Score) : Prop :=
  ∃ cuts, s' = { s with truncated := s.truncated ++ cuts } ∧
    (cuts ≠ [] → s.room limits < item.content.length)

/-- An item is left out exactly if something is exhausted, and else cut to the room. -/
theorem budgetStep_cases (item : ContextInjectionItem Score) (hused : s.used ≤ limits.maxChars) :
    ∃ s', s.NotesCuts limits item s' ∧
      (s.Exhausted limits item ∧ budgetStep limits s item = s'.omitItem item.contextItemId ∨
        ¬s.Exhausted limits item ∧ ∃ kept, kept.IsCutOf item (s.room limits) ∧
          budgetStep limits s item = s'.selectItem kept) := by
  by_cases hcount : s.countExhausted limits item
  · exact ⟨s, ⟨[], by simp, by simp⟩, Or.inl ⟨Or.inl hcount, by simp [budgetStep, hcount]⟩⟩
  have hcut := item.cutPerItem_isCutOf limits.maxPerItem
  have hlength := hcut.length_content
  have hnil : item.content ≠ [] ↔ 0 < item.content.length := length_pos_iff.symm
  -- the state after the limit of each item
  let noted : BudgetState Score :=
    if limits.maxPerItem < item.content.length then s.noteCut item.contextItemId else s
  have hnoted : s.NotesCuts limits item noted := by
    by_cases hper : limits.maxPerItem < item.content.length
    · refine ⟨[item.contextItemId], if_pos hper, fun _ => ?_⟩
      exact lt_of_le_of_lt (min_le_left _ _) hper
    · exact ⟨[], by simp [noted, hper], by simp⟩
  have hnotedUsed : noted.used = s.used := by
    obtain ⟨cuts, heq, -⟩ := hnoted
    rw [heq]
  have hstep : budgetStep limits s item =
      if limits.maxChars < s.used + (item.cutPerItem limits.maxPerItem).content.length then
        if limits.maxChars ≤ s.used then noted.omitItem item.contextItemId
        else (noted.noteCut item.contextItemId).selectItem
          ((item.cutPerItem limits.maxPerItem).cut (limits.maxChars - s.used))
      else noted.selectItem (item.cutPerItem limits.maxPerItem) := by
    rw [← hnotedUsed]
    simp only [budgetStep, hcount, if_false]
    rfl
  rw [hstep]
  by_cases hchars : limits.maxChars < s.used + (item.cutPerItem limits.maxPerItem).content.length
  · rw [if_pos hchars]
    by_cases hfull : limits.maxChars ≤ s.used
    · have hexhausted : s.Exhausted limits item := Or.inr ⟨hfull, by omega, by rw [hnil]; omega⟩
      exact ⟨noted, hnoted, Or.inl ⟨hexhausted, if_pos hfull⟩⟩
    · have hopen : ¬s.Exhausted limits item := by
        rintro (h | ⟨h, -⟩)
        exacts [hcount h, hfull h]
      refine ⟨noted.noteCut item.contextItemId, ?_, Or.inr ⟨hopen, _, ?_, if_neg hfull⟩⟩
      · obtain ⟨cuts, heq, -⟩ := hnoted
        refine ⟨cuts ++ [item.contextItemId], by simp [heq, BudgetState.noteCut], fun _ => ?_⟩
        rw [BudgetState.room]
        omega
      · exact hcut.cut (by omega)
  · rw [if_neg hchars]
    have hopen : ¬s.Exhausted limits item := by
      rintro (h | ⟨hfull, hpos, hne⟩)
      · exact hcount h
      · rw [hnil] at hne
        omega
    refine ⟨noted, hnoted, Or.inr ⟨hopen, _, hcut.congr ?_, rfl⟩⟩
    rw [BudgetState.room]
    omega

end Round

/-! ### The loop -/

section Run

variable {limits : BudgetLimits} {s : BudgetState Score} {items : List (ContextInjectionItem Score)}

/-- What holds of the variables after some items. -/
structure Budgeted (limits : BudgetLimits) (items : List (ContextInjectionItem Score))
    (s : BudgetState Score) : Prop where
  /-- The items are those kept, with a beginning of their content, and those left out. -/
  partition : ∃ kept left, (kept ++ left).Perm items ∧
    List.Forall₂ (fun item original => ∃ n, item.IsCutOf original n) s.selected kept ∧
    s.omitted = left.map ContextInjectionItem.contextItemId
  used_eq : s.used = (s.selected.map (·.content.length)).sum
  used_le : s.used ≤ limits.maxChars
  length_le : s.selected.length ≤ limits.maxTotal
  memory_eq : s.memoryCount = s.selected.countP (·.isMemory)
  memory_le : s.memoryCount ≤ limits.maxMemory
  retrieval_eq : s.retrievalCount = s.selected.countP (!·.isMemory)
  retrieval_le : s.retrievalCount ≤ limits.maxRetrieval
  perItem_le : ∀ item ∈ s.selected, item.content.length ≤ limits.maxPerItem

theorem Budgeted.omitItem (h : Budgeted limits items s) (item : ContextInjectionItem Score) :
    Budgeted limits (items ++ [item]) (s.omitItem item.contextItemId) where
  partition := by
    obtain ⟨kept, left, hperm, hcuts, homitted⟩ := h.partition
    refine ⟨kept, left ++ [item], ?_, hcuts, by simp [BudgetState.omitItem, homitted]⟩
    rw [← append_assoc]
    exact hperm.append_right _
  used_eq := h.used_eq
  used_le := h.used_le
  length_le := h.length_le
  memory_eq := h.memory_eq
  memory_le := h.memory_le
  retrieval_eq := h.retrieval_eq
  retrieval_le := h.retrieval_le
  perItem_le := h.perItem_le

/-- Selecting what fits keeps the budget. -/
theorem Budgeted.selectItem (h : Budgeted limits items s) {item kept : ContextInjectionItem Score}
    (hkept : kept.IsCutOf item (s.room limits)) (hopen : ¬s.Exhausted limits item) :
    Budgeted limits (items ++ [item]) (s.selectItem kept) := by
  have hlength := hkept.length_content
  have hmemory : kept.isMemory = item.isMemory := by
    rw [ContextInjectionItem.isMemory, ContextInjectionItem.isMemory, hkept.kind]
  simp only [BudgetState.Exhausted, BudgetState.countExhausted, not_or, not_and, not_le] at hopen
  obtain ⟨⟨htotal, hmem, hret⟩, -⟩ := hopen
  rw [BudgetState.room] at hlength
  obtain ⟨keptItems, left, hperm, hcuts, homitted⟩ := h.partition
  exact
    { partition := by
        refine ⟨keptItems ++ [item], left, ?_,
          rel_append hcuts (List.Forall₂.cons ⟨_, hkept⟩ List.Forall₂.nil), homitted⟩
        rw [append_assoc]
        exact ((List.perm_append_comm.append_left _).trans
          (append_assoc _ _ _ ▸ List.Perm.refl _)).trans (hperm.append_right _)
      used_eq := by simp [BudgetState.selectItem, h.used_eq]
      used_le := by
        have := h.used_le
        simp only [BudgetState.selectItem]
        omega
      length_le := by simpa [BudgetState.selectItem] using Nat.succ_le_of_lt htotal
      memory_eq := by
        cases hkind : kept.isMemory <;> simp [BudgetState.selectItem, hkind, h.memory_eq]
      memory_le := by
        cases hkind : kept.isMemory
        · simpa [BudgetState.selectItem, hkind] using h.memory_le
        · simpa [BudgetState.selectItem, hkind] using Nat.succ_le_of_lt (hmem (hmemory ▸ hkind))
      retrieval_eq := by
        cases hkind : kept.isMemory <;> simp [BudgetState.selectItem, hkind, h.retrieval_eq]
      retrieval_le := by
        cases hkind : kept.isMemory
        · simpa [BudgetState.selectItem, hkind] using Nat.succ_le_of_lt (hret (hmemory ▸ hkind))
        · simpa [BudgetState.selectItem, hkind] using h.retrieval_le
      perItem_le := by
        intro other hother
        rcases mem_append.mp hother with hother | hother
        · exact h.perItem_le other hother
        · rw [mem_singleton.mp hother]
          omega }

theorem Budgeted.step (h : Budgeted limits items s) (item : ContextInjectionItem Score) :
    Budgeted limits (items ++ [item]) (budgetStep limits s item) := by
  obtain ⟨s', ⟨cuts, rfl, -⟩, hround⟩ := budgetStep_cases item h.used_le
  -- the list of cut items is no part of the invariant
  have h' : Budgeted limits items { s with truncated := s.truncated ++ cuts } :=
    ⟨h.partition, h.used_eq, h.used_le, h.length_le, h.memory_eq, h.memory_le, h.retrieval_eq,
      h.retrieval_le, h.perItem_le⟩
  rcases hround with ⟨-, hstep⟩ | ⟨hopen, kept, hkept, hstep⟩
  · rw [hstep]
    exact h'.omitItem item
  · rw [hstep]
    exact h'.selectItem hkept hopen

theorem budgetRun_concat (items : List (ContextInjectionItem Score))
    (item : ContextInjectionItem Score) :
    budgetRun limits (items ++ [item]) = budgetStep limits (budgetRun limits items) item := by
  rw [budgetRun, foldl_append]
  rfl

theorem budgeted_budgetRun (limits : BudgetLimits) (items : List (ContextInjectionItem Score)) :
    Budgeted limits items (budgetRun limits items) := by
  induction items using List.reverseRecOn with
  | nil =>
    exact ⟨⟨[], [], List.Perm.refl _, List.Forall₂.nil, rfl⟩, rfl, Nat.zero_le _,
      Nat.zero_le _, rfl, Nat.zero_le _, rfl, Nat.zero_le _, by simp [budgetRun]⟩
  | append_singleton items item ih =>
    rw [budgetRun_concat]
    exact ih.step item

/-- The budget of a list of items: what is selected, and when an item is left out or cut. -/
structure BudgetIsExact (scores : ScoreServices Score) (limits : BudgetLimits)
    (items selected : List (ContextInjectionItem Score)) (result : ContextBudgetResult) :
    Prop where
  budgeted : ∃ truncated, Budgeted limits items
    ⟨selected, result.omittedItemIds, truncated, result.usedChars, result.retrievalItems,
      result.memoryItems⟩
  counted : result.inputItems = items.length ∧ result.admittedItems = selected.length
  /-- All of it is what the loop over the items in the order of their priority leaves. -/
  run_eq : selected = (budgetRun limits (scores.ordered items)).selected ∧
    result.omittedItemIds = (budgetRun limits (scores.ordered items)).omitted ∧
    result.truncatedItemIds = (budgetRun limits (scores.ordered items)).truncated.eraseDups
  /-- An item is left out only if a limit is exhausted when its turn comes. -/
  omitted : ∀ before item after, scores.ordered items = before ++ item :: after →
    ((budgetRun limits (before ++ [item])).omitted ≠ (budgetRun limits before).omitted ↔
      (budgetRun limits before).Exhausted limits item)
  /-- An item is cut only if it is longer than what is left. -/
  truncated : ∀ before item after, scores.ordered items = before ++ item :: after →
    (budgetRun limits (before ++ [item])).truncated ≠ (budgetRun limits before).truncated →
      (budgetRun limits before).room limits < item.content.length
  /-- What is kept of an item is as much as there is room for. -/
  kept : ∀ before item after, scores.ordered items = before ++ item :: after →
    ¬(budgetRun limits before).Exhausted limits item →
      ∃ kept, kept.IsCutOf item ((budgetRun limits before).room limits) ∧
        (budgetRun limits (before ++ [item])).selected =
          (budgetRun limits before).selected ++ [kept]

/-- What `apply` selects, leaves out and cuts is exact for every list of items and all limits. -/
theorem applyBudget_isExact (scores : ScoreServices Score) (config overrides : List (String × ℕ))
    (items : List (ContextInjectionItem Score)) :
    BudgetIsExact scores (budgetLimits config overrides) items
      (applyBudget scores config overrides items).1
      (applyBudget scores config overrides items).2 where
  budgeted := by
    have h := budgeted_budgetRun (budgetLimits config overrides) (scores.ordered items)
    obtain ⟨kept, left, hperm, hcuts, homitted⟩ := h.partition
    exact ⟨_, ⟨kept, left, hperm.trans (perm_insertionSort _ _), hcuts, homitted⟩,
      h.used_eq, h.used_le, h.length_le, h.memory_eq, h.memory_le, h.retrieval_eq,
      h.retrieval_le, h.perItem_le⟩
  counted := ⟨rfl, rfl⟩
  run_eq := ⟨rfl, rfl, rfl⟩
  omitted before item _ _ := by
    obtain ⟨s', ⟨cuts, rfl, -⟩, hround⟩ := budgetStep_cases item
      (budgeted_budgetRun (budgetLimits config overrides) before).used_le
    rw [budgetRun_concat]
    rcases hround with ⟨hfull, hstep⟩ | ⟨hopen, kept, -, hstep⟩
    · simp [hstep, BudgetState.omitItem, hfull]
    · simp [hstep, BudgetState.selectItem, hopen]
  truncated before item _ _ := by
    obtain ⟨s', ⟨cuts, rfl, hcuts⟩, hround⟩ := budgetStep_cases item
      (budgeted_budgetRun (budgetLimits config overrides) before).used_le
    rw [budgetRun_concat]
    refine fun hne => hcuts fun hnil => hne ?_
    rcases hround with ⟨-, hstep⟩ | ⟨-, kept, -, hstep⟩ <;>
      simp [hstep, BudgetState.omitItem, BudgetState.selectItem, hnil]
  kept before item _ _ hopen := by
    obtain ⟨s', ⟨cuts, rfl, -⟩, hround⟩ := budgetStep_cases item
      (budgeted_budgetRun (budgetLimits config overrides) before).used_le
    rcases hround with ⟨hfull, -⟩ | ⟨-, kept, hkept, hstep⟩
    · exact absurd hfull hopen
    · exact ⟨kept, hkept, by rw [budgetRun_concat, hstep, BudgetState.selectItem]⟩

end Run

end Coordinator

end AIpinho.Rag
