import Mathlib.Data.List.Basic
import Mathlib.Data.List.Dedup
import Mathlib.Data.List.Perm.Subperm
import Mathlib.Data.Fintype.Basic
import Mathlib.Data.Fintype.Order
import Mathlib.Logic.Relation
import Mathlib.Order.WellFounded

/-!
# Finite directed graphs

A graph is a list of edges. `downstream` collects with a stack what can be reached from a
vertex, and `isAcyclic` counts the vertices that can be taken away one by one once nothing leads
to them.
-/

namespace AIpinho.Lib.Digraph

open List

variable {α : Type} [DecidableEq α]

/-- An edge of the graph leads from `a` to `b`. -/
def Edge (edges : List (α × α)) (a b : α) : Prop := (a, b) ∈ edges

/-- No vertex is reached from itself. -/
def Acyclic (edges : List (α × α)) : Prop := ∀ a, ¬Relation.TransGen (Edge edges) a a

def successors (edges : List (α × α)) (a : α) : List α :=
  (edges.filter (·.1 = a)).map (·.2)

variable {edges : List (α × α)}

theorem mem_successors {a b : α} : b ∈ successors edges a ↔ Edge edges a b := by
  simp [successors, Edge]

omit [DecidableEq α] in
theorem Acyclic.of_subset {edges' : List (α × α)} (h : Acyclic edges) (hsub : edges' ⊆ edges) :
    Acyclic edges' :=
  fun a hcycle => h a (Relation.TransGen.mono (fun _ _ hedge => hsub hedge) a a hcycle)

omit [DecidableEq α] in
theorem acyclic_of_source {R R' : α → α → Prop} {s : α}
    (hR : ∀ a, ¬Relation.TransGen R a a) (hkept : ∀ a b, R' a b → a = s ∨ R a b)
    (hsource : ∀ a, ¬R' a s) : ∀ a, ¬Relation.TransGen R' a a := by
  have hold : ∀ a b, Relation.TransGen R' a b → a ≠ s → Relation.TransGen R a b := by
    intro a b hpath ha
    induction hpath with
    | single hlast =>
      exact .single ((hkept _ _ hlast).resolve_left ha)
    | tail hpath hlast ih =>
      -- no vertex of the path after the first is the source
      refine ih.tail ((hkept _ _ hlast).resolve_left ?_)
      rintro rfl
      obtain ⟨_, _, hinto⟩ := Relation.TransGen.tail'_iff.mp hpath
      exact hsource _ hinto
  intro a hcycle
  by_cases ha : a = s
  · subst ha
    obtain ⟨_, _, hinto⟩ := Relation.TransGen.tail'_iff.mp hcycle
    exact hsource _ hinto
  · exact hR a (hold a a hcycle ha)

/-- Take vertices from a stack, the top first, and put their successors on it, until
the stack is empty. -/
def collect (edges : List (α × α)) : ℕ → List α → List α → List α
  | 0, _, seen => seen
  | _ + 1, [], seen => seen
  | fuel + 1, a :: stack, seen =>
    if a ∈ seen then collect edges fuel stack seen
    else collect edges fuel ((successors edges a).reverse ++ stack) (a :: seen)

/-- The vertices that can be reached from a vertex. -/
def downstream (edges : List (α × α)) (a : α) : List α :=
  collect edges ((successors edges a).length + edges.length) (successors edges a).reverse []

def pendingEdges (edges : List (α × α)) (seen : List α) : ℕ :=
  edges.countP fun e => e.1 ∉ seen

theorem pendingEdges_cons {seen : List α} {a : α} (ha : a ∉ seen) :
    pendingEdges edges (a :: seen) + (successors edges a).length = pendingEdges edges seen := by
  unfold pendingEdges successors
  rw [length_map, ← countP_eq_length_filter]
  induction edges with
  | nil => rfl
  | cons e edges ih =>
    simp only [countP_cons]
    by_cases hea : e.1 = a
    · have hold : decide (e.1 ∉ a :: seen) = false := by simp [hea]
      have hnew : decide (e.1 ∉ seen) = true := by simpa [hea] using ha
      have hat : decide (e.1 = a) = true := by simpa using hea
      simp only [hold, hnew, hat, if_true, Bool.false_eq_true, if_false]
      omega
    · have hsame : decide (e.1 ∉ a :: seen) = decide (e.1 ∉ seen) := by simp [hea]
      have hat : decide (e.1 = a) = false := by simpa using hea
      simp only [hsame, hat, Bool.false_eq_true, if_false]
      omega

/-- With enough fuel the collection is closed under edges. -/
theorem collect_spec {fuel : ℕ} {stack seen : List α}
    (hfuel : stack.length + pendingEdges edges seen ≤ fuel)
    (hclosed : ∀ a ∈ seen, ∀ b, Edge edges a b → b ∈ seen ∨ b ∈ stack) :
    (∀ a, a ∈ seen ∨ a ∈ stack → a ∈ collect edges fuel stack seen) ∧
      ∀ a ∈ collect edges fuel stack seen, ∀ b, Edge edges a b →
        b ∈ collect edges fuel stack seen := by
  induction fuel generalizing stack seen with
  | zero =>
    have hstack : stack = [] := length_eq_zero_iff.mp (by omega)
    subst hstack
    simpa [collect] using hclosed
  | succ fuel ih =>
    cases stack with
    | nil => simpa [collect] using hclosed
    | cons c stack =>
      rw [length_cons] at hfuel
      by_cases hc : c ∈ seen
      · have hrest := @ih stack seen (by omega) (by
          intro a ha b hab
          rcases hclosed a ha b hab with hb | hb
          · exact .inl hb
          · rcases mem_cons.mp hb with rfl | hb
            · exact .inl hc
            · exact .inr hb)
        simp only [collect, hc, if_true]
        refine ⟨fun a ha => hrest.1 a ?_, hrest.2⟩
        rcases ha with ha | ha
        · exact .inl ha
        · rcases mem_cons.mp ha with rfl | ha
          · exact .inl hc
          · exact .inr ha
      · have hpending : pendingEdges edges (c :: seen) + (successors edges c).length =
            pendingEdges edges seen := pendingEdges_cons hc
        have hrest := @ih ((successors edges c).reverse ++ stack) (c :: seen) (by
          rw [length_append, length_reverse]
          omega) (by
          intro a ha b hab
          rcases mem_cons.mp ha with rfl | ha
          · right
            rw [mem_append, mem_reverse, mem_successors]
            exact .inl hab
          · rcases hclosed a ha b hab with hb | hb
            · exact .inl (mem_cons_of_mem _ hb)
            · rcases mem_cons.mp hb with rfl | hb
              · exact .inl mem_cons_self
              · exact .inr (mem_append_right _ hb))
        simp only [collect, hc, if_false]
        refine ⟨fun a ha => hrest.1 a ?_, hrest.2⟩
        rcases ha with ha | ha
        · exact .inl (mem_cons_of_mem _ ha)
        · rcases mem_cons.mp ha with rfl | ha
          · exact .inl mem_cons_self
          · exact .inr (mem_append_right _ ha)

theorem collect_nodup {fuel : ℕ} {stack seen : List α} (hseen : seen.Nodup) :
    (collect edges fuel stack seen).Nodup := by
  induction fuel generalizing stack seen with
  | zero => exact hseen
  | succ fuel ih =>
    cases stack with
    | nil => exact hseen
    | cons c stack =>
      by_cases hc : c ∈ seen
      · simp only [collect, hc, if_true]
        exact ih hseen
      · simp only [collect, hc, if_false]
        exact ih (nodup_cons.mpr ⟨hc, hseen⟩)

theorem downstream_nodup (edges : List (α × α)) (a : α) : (downstream edges a).Nodup :=
  collect_nodup nodup_nil

theorem collect_sound {P : α → Prop} {fuel : ℕ} {stack seen : List α}
    (hnext : ∀ a b, P a → Edge edges a b → P b) (hstack : ∀ a ∈ stack, P a)
    (hseen : ∀ a ∈ seen, P a) : ∀ a ∈ collect edges fuel stack seen, P a := by
  induction fuel generalizing stack seen with
  | zero => exact hseen
  | succ fuel ih =>
    cases stack with
    | nil => exact hseen
    | cons c stack =>
      rw [forall_mem_cons] at hstack
      by_cases hc : c ∈ seen
      · simp only [collect, hc, if_true]
        exact ih hstack.2 hseen
      · simp only [collect, hc, if_false]
        apply ih
        · intro a ha
          rw [mem_append, mem_reverse, mem_successors] at ha
          rcases ha with ha | ha
          · exact hnext c a hstack.1 ha
          · exact hstack.2 a ha
        · exact forall_mem_cons.mpr ⟨hstack.1, hseen⟩

theorem mem_downstream_iff {a b : α} :
    b ∈ downstream edges a ↔ Relation.TransGen (Edge edges) a b := by
  have hspec := @collect_spec α _ edges ((successors edges a).length + edges.length)
    (successors edges a).reverse [] (by
      rw [length_reverse]
      have hle : pendingEdges edges [] ≤ edges.length := countP_le_length
      omega) (by simp)
  constructor
  · intro hb
    refine collect_sound (P := Relation.TransGen (Edge edges) a) ?_ ?_ (by simp) b hb
    · intro c d hc hcd
      exact hc.tail hcd
    · intro c hc
      rw [mem_reverse, mem_successors] at hc
      exact .single hc
  · intro hab
    induction hab with
    | single hb =>
      apply hspec.1
      rw [mem_reverse, mem_successors]
      exact .inr hb
    | tail _ hbc ih => exact hspec.2 _ ih _ hbc

/-- The loop of `collect` without a bound on its steps: from this stack and what was seen it
ends, and this was seen then. -/
inductive Collects (edges : List (α × α)) : List α → List α → List α → Prop
  | done {seen : List α} : Collects edges [] seen seen
  | skip {a : α} {stack seen found : List α} (ha : a ∈ seen) :
    Collects edges stack seen found → Collects edges (a :: stack) seen found
  | visit {a : α} {stack seen found : List α} (ha : a ∉ seen) :
    Collects edges ((successors edges a).reverse ++ stack) (a :: seen) found →
      Collects edges (a :: stack) seen found

theorem collects_collect {fuel : ℕ} {stack seen : List α}
    (hfuel : stack.length + pendingEdges edges seen ≤ fuel) :
    Collects edges stack seen (collect edges fuel stack seen) := by
  induction fuel generalizing stack seen with
  | zero =>
    obtain rfl : stack = [] := length_eq_zero_iff.mp (by omega)
    exact .done
  | succ fuel ih =>
    cases stack with
    | nil => exact .done
    | cons a stack =>
      rw [length_cons] at hfuel
      by_cases ha : a ∈ seen
      · simp only [collect, ha, if_true]
        exact .skip ha (ih (by omega))
      · have hfewer : pendingEdges edges (a :: seen) + (successors edges a).length =
            pendingEdges edges seen := pendingEdges_cons ha
        simp only [collect, ha, if_false]
        exact .visit ha (ih (by rw [length_append, length_reverse]; omega))

theorem collects_downstream (edges : List (α × α)) (a : α) :
    Collects edges (successors edges a).reverse [] (downstream edges a) :=
  collects_collect (by
    rw [length_reverse]
    exact Nat.add_le_add_left countP_le_length _)

example : downstream [(1, 2), (2, 3), (4, 5), (3, 2)] 1 = [3, 2] := by decide

theorem Acyclic.exists_minimal (h : Acyclic edges) {vertices : List α} (hne : vertices ≠ []) :
    ∃ a ∈ vertices, ∀ b ∈ vertices, ¬Edge edges b a := by
  let before : {a // a ∈ vertices} → {a // a ∈ vertices} → Prop := fun a b =>
    Relation.TransGen (Edge edges) a.1 b.1
  have htrans : IsTrans {a // a ∈ vertices} before := ⟨fun _ _ _ hab hbc => hab.trans hbc⟩
  have hirrefl : Std.Irrefl before := ⟨fun a => h a.1⟩
  have hwf : WellFounded before := Finite.wellFounded_of_trans_of_irrefl before
  obtain ⟨first, hfirst⟩ := exists_mem_of_ne_nil vertices hne
  obtain ⟨a, -, hmin⟩ := hwf.has_min Set.univ ⟨⟨first, hfirst⟩, trivial⟩
  exact ⟨a.1, a.2, fun b hb hba => hmin ⟨b, hb⟩ trivial (.single hba)⟩

/-- Take a vertex away: each of its successors has one edge less before it, and is
ready if there was no other. -/
def release (state : (α → ℤ) × List α) (target : α) : (α → ℤ) × List α :=
  let incoming := Function.update state.1 target (state.1 target - 1)
  (incoming, if incoming target = 0 then target :: state.2 else state.2)

/-- The number of vertices that can be taken away, starting from those that are ready. -/
def countVisited (edges : List (α × α)) : ℕ → (α → ℤ) × List α → ℕ → ℕ
  | 0, _, visited => visited
  | _ + 1, (_, []), visited => visited
  | fuel + 1, (incoming, a :: ready), visited =>
    countVisited edges fuel ((successors edges a).foldl release (incoming, ready)) (visited + 1)

def isAcyclic (vertices : List α) (edges : List (α × α)) : Bool :=
  let ids := vertices.dedup
  if edges.any fun e => e.1 ∉ ids || e.2 ∉ ids then false
  else
    let incoming : α → ℤ := fun a => edges.countP (·.2 = a)
    countVisited edges ids.length (incoming, (ids.filter fun a => incoming a = 0).reverse) 0 =
      ids.length

def openEdges (edges : List (α × α)) (taken : List α) (a : α) : ℕ :=
  edges.countP fun e => e.2 = a ∧ e.1 ∉ taken

theorem openEdges_cons {taken : List α} {a : α} (ha : a ∉ taken) (b : α) :
    openEdges edges taken b = openEdges edges (a :: taken) b + (successors edges a).count b := by
  unfold openEdges successors
  induction edges with
  | nil => rfl
  | cons e edges ih =>
    rw [countP_cons, countP_cons, ih, filter_cons]
    by_cases hea : e.1 = a
    · have hold : decide (e.2 = b ∧ e.1 ∉ taken) = decide (e.2 = b) := by simp [hea, ha]
      have hnew : decide (e.2 = b ∧ e.1 ∉ a :: taken) = false := by simp [hea]
      have hat : decide (e.1 = a) = true := by simpa using hea
      rw [hold, hnew, hat, if_pos rfl, map_cons, count_cons]
      by_cases heb : e.2 = b
      · simp [heb]
        omega
      · simp [heb]
    · have hsame : decide (e.2 = b ∧ e.1 ∉ a :: taken) = decide (e.2 = b ∧ e.1 ∉ taken) := by
        simp [hea]
      have hat : decide (e.1 = a) = false := by simpa using hea
      rw [hsame, hat, if_neg Bool.false_ne_true]
      omega

/-- What the check knows while it takes vertices away: `targets` are still to be
released, `ready` are the vertices without open edges that have not been taken. -/
structure Releasing (edges : List (α × α)) (taken targets : List α) (incoming : α → ℤ)
    (ready : List α) : Prop where
  counts : ∀ a, incoming a = openEdges edges taken a + targets.count a
  closed : ∀ a ∈ ready ++ taken, incoming a = 0
  nodup : (ready ++ taken).Nodup

theorem Releasing.release {taken targets : List α} {target : α} {incoming : α → ℤ}
    {ready : List α} (h : Releasing edges taken (target :: targets) incoming ready) :
    Releasing edges taken targets (release (incoming, ready) target).1
      (release (incoming, ready) target).2 := by
  have htarget : incoming target =
      openEdges edges taken target + (targets.count target + 1 : ℕ) := by
    rw [h.counts target, count_cons_self]
  -- the target had an open edge, so it is neither ready nor taken
  have hnew : target ∉ ready ++ taken := by
    intro hmem
    have hzero := h.closed target hmem
    omega
  have hcounts : ∀ a, (Digraph.release (incoming, ready) target).1 a =
      openEdges edges taken a + targets.count a := by
    intro a
    by_cases ha : a = target
    · subst ha
      simp only [Digraph.release, Function.update_self]
      omega
    · have hcount : (target :: targets).count a = targets.count a :=
        count_cons_of_ne fun heq => ha heq.symm
      simp only [Digraph.release, Function.update_of_ne ha]
      rw [h.counts a, hcount]
  have hold : ∀ a ∈ ready ++ taken, (Digraph.release (incoming, ready) target).1 a = 0 := by
    intro a ha
    have hne : a ≠ target := fun heq => hnew (heq ▸ ha)
    simp only [Digraph.release, Function.update_of_ne hne]
    exact h.closed a ha
  refine ⟨hcounts, ?_, ?_⟩
  · intro a ha
    by_cases hat : a = target
    · subst hat
      unfold Digraph.release at ha ⊢
      dsimp only at ha ⊢
      split at ha
      · assumption
      · exact absurd ha hnew
    · refine hold a ?_
      unfold Digraph.release at ha
      dsimp only at ha
      split at ha
      · simpa [hat] using ha
      · exact ha
  · unfold Digraph.release
    dsimp only
    split
    · rw [cons_append, nodup_cons]
      exact ⟨hnew, h.nodup⟩
    · exact h.nodup

theorem Releasing.foldl {taken targets : List α} {state : (α → ℤ) × List α}
    (h : Releasing edges taken targets state.1 state.2) :
    Releasing edges taken [] (targets.foldl Digraph.release state).1
      (targets.foldl Digraph.release state).2 := by
  induction targets generalizing state with
  | nil => exact h
  | cons target targets ih => exact ih h.release

/-- The vertices have been taken away in an order in which edges lead to the later ones. -/
def Ordered (edges : List (α × α)) : List α → Prop
  | [] => True
  | a :: taken => (∀ b, Edge edges b a → b ∈ taken) ∧ Ordered edges taken

theorem Releasing.take {taken ready : List α} {a : α} {incoming : α → ℤ}
    (h : Releasing edges taken [] incoming (a :: ready)) :
    Releasing edges (a :: taken) (successors edges a) incoming ready ∧
      ∀ b, Edge edges b a → b ∈ taken := by
  have hnodup : a ∉ ready ++ taken ∧ (ready ++ taken).Nodup := nodup_cons.mp h.nodup
  have ha : a ∉ taken := fun hmem => hnodup.1 (mem_append_right _ hmem)
  refine ⟨⟨?_, ?_, ?_⟩, ?_⟩
  · intro b
    rw [h.counts b, openEdges_cons ha b]
    simp
  · intro b hb
    refine h.closed b ?_
    simp only [mem_append, mem_cons, cons_append] at hb ⊢
    tauto
  · exact (List.perm_middle.nodup_iff).mpr (nodup_cons.mpr hnodup)
  · intro b hb
    by_contra hnot
    have hzero : incoming a = 0 := h.closed a mem_cons_self
    have hopen : 0 < openEdges edges taken a := countP_pos_iff.mpr ⟨(b, a), hb, by simp [hnot]⟩
    rw [h.counts a] at hzero
    simp at hzero
    omega

theorem mem_foldl_release {targets taken ids : List α} {state : (α → ℤ) × List α}
    (h : ∀ a ∈ ids, state.1 a = 0 → a ∈ state.2 ++ taken) :
    ∀ a ∈ ids, (targets.foldl release state).1 a = 0 →
      a ∈ (targets.foldl release state).2 ++ taken := by
  induction targets generalizing state with
  | nil => exact h
  | cons t targets ih =>
    refine ih fun a ha hzero => ?_
    by_cases hat : a = t
    · subst hat
      have hpushed : (release state a).2 = a :: state.2 := if_pos hzero
      simp [hpushed]
    · have hold := h a ha (by simpa [release, Function.update_of_ne hat] using hzero)
      simp only [release]
      split
      · exact mem_cons_of_mem _ hold
      · exact hold

theorem foldl_release_subset {targets ids : List α} {state : (α → ℤ) × List α}
    (htargets : ∀ t ∈ targets, t ∈ ids) (hstate : ∀ a ∈ state.2, a ∈ ids) :
    ∀ a ∈ (targets.foldl release state).2, a ∈ ids := by
  induction targets generalizing state with
  | nil => exact hstate
  | cons t targets ih =>
    rw [forall_mem_cons] at htargets
    refine ih htargets.2 ?_
    intro a ha
    unfold release at ha
    dsimp only at ha
    split at ha
    · rcases mem_cons.mp ha with rfl | ha
      · exact htargets.1
      · exact hstate a ha
    · exact hstate a ha

/-- What the check knows of the vertices before it takes the next one away. -/
structure Taking (edges : List (α × α)) (ids taken : List α) (state : (α → ℤ) × List α) : Prop where
  releasing : Releasing edges taken [] state.1 state.2
  ordered : Ordered edges taken
  ready_mem : ∀ a ∈ state.2, a ∈ ids
  taken_mem : ∀ a ∈ taken, a ∈ ids
  found : ∀ a ∈ ids, state.1 a = 0 → a ∈ state.2 ++ taken

section Check

variable {ids taken : List α} {state : (α → ℤ) × List α}

theorem Taking.next {incoming : α → ℤ} {a : α} {ready : List α}
    (h : Taking edges ids taken (incoming, a :: ready)) (hedges : ∀ e ∈ edges, e.2 ∈ ids) :
    Taking edges ids (a :: taken) ((successors edges a).foldl release (incoming, ready)) := by
  obtain ⟨hnext, hbefore⟩ := h.releasing.take
  have hready := forall_mem_cons.mp h.ready_mem
  refine ⟨hnext.foldl, ⟨hbefore, h.ordered⟩, foldl_release_subset ?_ hready.2,
    forall_mem_cons.mpr ⟨hready.1, h.taken_mem⟩, mem_foldl_release fun b hb hzero => ?_⟩
  · intro t ht
    exact hedges (a, t) (mem_successors.mp ht)
  · exact perm_middle.symm.mem_iff.mp (h.found b hb hzero)

/-- The loop of `countVisited` without a bound on its steps, from one count to another. -/
inductive Visits (edges : List (α × α)) : (α → ℤ) × List α → ℕ → ℕ → Prop
  | done {incoming : α → ℤ} {visited : ℕ} : Visits edges (incoming, []) visited visited
  | visit {incoming : α → ℤ} {a : α} {ready : List α} {visited total : ℕ} :
    Visits edges ((successors edges a).foldl release (incoming, ready)) (visited + 1) total →
      Visits edges (incoming, a :: ready) visited total

theorem Taking.visits {fuel : ℕ} (h : Taking edges ids taken state)
    (hedges : ∀ e ∈ edges, e.2 ∈ ids) (hfuel : ids.length ≤ taken.length + fuel) :
    Visits edges state taken.length (countVisited edges fuel state taken.length) := by
  induction fuel generalizing state taken with
  | zero =>
    -- as many vertices are taken as there are, so none is ready
    have hle := (subperm_of_subset h.releasing.nodup
      (append_subset.mpr ⟨h.ready_mem, h.taken_mem⟩)).length_le
    rw [length_append] at hle
    obtain ⟨incoming, ready⟩ := state
    obtain rfl : ready = [] := length_eq_zero_iff.mp (by dsimp only at hle; omega)
    exact .done
  | succ fuel ih =>
    obtain ⟨incoming, ready⟩ := state
    cases ready with
    | nil => exact .done
    | cons a ready =>
      refine .visit (ih (h.next hedges) ?_)
      rw [length_cons]
      omega

theorem Visits.taking {visited total : ℕ} (h : Visits edges state visited total)
    (hstate : Taking edges ids taken state) (hvisited : visited = taken.length)
    (hedges : ∀ e ∈ edges, e.2 ∈ ids) :
    ∃ order incoming, Taking edges ids order (incoming, []) ∧ total = order.length := by
  induction h generalizing taken with
  | @done incoming visited => exact ⟨taken, incoming, hstate, hvisited⟩
  | visit _ ih => exact ih (hstate.next hedges) (by rw [length_cons, hvisited])

omit [DecidableEq α] in
theorem Ordered.mem_of_transGen {order : List α} (h : Ordered edges order) {a b : α}
    (hb : b ∈ order) (hab : Relation.TransGen (Edge edges) a b) : a ∈ order := by
  have hedge : ∀ {order : List α}, Ordered edges order → ∀ {c d}, d ∈ order → Edge edges c d →
      c ∈ order := by
    intro order
    induction order with
    | nil => exact fun _ _ _ hd => absurd hd not_mem_nil
    | cons first order ih =>
      intro hordered c d hd hcd
      rcases mem_cons.mp hd with rfl | hd
      · exact mem_cons_of_mem _ (hordered.1 c hcd)
      · exact mem_cons_of_mem _ (ih hordered.2 hd hcd)
  induction hab with
  | single hab => exact hedge h hb hab
  | tail _ hbc ih => exact ih (hedge h hb hbc)

omit [DecidableEq α] in
theorem Ordered.not_transGen {order : List α} (h : Ordered edges order) (hnodup : order.Nodup)
    {a : α} (ha : a ∈ order) : ¬Relation.TransGen (Edge edges) a a := by
  induction order with
  | nil => cases ha
  | cons first order ih =>
    rw [nodup_cons] at hnodup
    intro hcycle
    rcases mem_cons.mp ha with rfl | ha
    · -- the last edge of the cycle comes from an earlier vertex, and so does the cycle
      obtain ⟨b, hab, hba⟩ := Relation.TransGen.tail'_iff.mp hcycle
      have hb : b ∈ order := h.1 b hba
      rcases Relation.reflTransGen_iff_eq_or_transGen.mp hab with heq | hab
      · exact hnodup.1 (heq ▸ hb)
      · exact hnodup.1 (h.2.mem_of_transGen hb hab)
    · exact ih h.2 hnodup.2 ha hcycle

theorem Taking.length_eq_iff {incoming : α → ℤ} (h : Taking edges ids taken (incoming, []))
    (hids : ids.Nodup) (hedges : ∀ e ∈ edges, e.1 ∈ ids ∧ e.2 ∈ ids) :
    taken.length = ids.length ↔ Acyclic edges := by
  have hnodup : taken.Nodup := h.releasing.nodup
  have hsub := subperm_of_subset hnodup h.taken_mem
  constructor
  · intro hlength a hcycle
    obtain ⟨b, -, hba⟩ := Relation.TransGen.tail'_iff.mp hcycle
    have ha := (hsub.perm_of_length_le hlength.ge).mem_iff.mpr (hedges _ hba).2
    exact h.ordered.not_transGen hnodup ha hcycle
  · intro hacyclic
    refine le_antisymm hsub.length_le (subperm_of_subset hids ?_).length_le
    by_contra hnot
    obtain ⟨left, hleft, hleftTaken⟩ : ∃ a ∈ ids, a ∉ taken := by
      simpa [List.subset_def] using hnot
    -- the first vertex that was left has no edge from another one, so it was ready
    have hne : ids.filter (· ∉ taken) ≠ [] :=
      ne_nil_of_mem (mem_filter.mpr ⟨hleft, by simpa using hleftTaken⟩)
    obtain ⟨a, ha, hfirst⟩ := hacyclic.exists_minimal hne
    rw [mem_filter, decide_eq_true_eq] at ha
    have hopen : openEdges edges taken a = 0 := by
      rw [openEdges, countP_eq_zero]
      rintro e he
      rw [decide_eq_true_eq]
      rintro ⟨rfl, hnew⟩
      exact hfirst e.1 (mem_filter.mpr ⟨(hedges e he).1, by simpa using hnew⟩) he
    have hzero : incoming a = 0 := by simpa [hopen] using h.releasing.counts a
    exact ha.2 (h.found a ha.1 hzero)

end Check

/-- What the check may return: it goes over the vertices in some order, each of them once. -/
inductive Checked (vertices : List α) (edges : List (α × α)) : Bool → Prop
  | dangling {e : α × α} (he : e ∈ edges) (h : e.1 ∉ vertices ∨ e.2 ∉ vertices) :
    Checked vertices edges false
  | counted {ids : List α} {visited : ℕ}
    (hedges : ∀ e ∈ edges, e.1 ∈ vertices ∧ e.2 ∈ vertices) (hids : ids.Nodup)
    (hmem : ∀ a, a ∈ ids ↔ a ∈ vertices)
    (h : Visits edges (fun a => (edges.countP (·.2 = a) : ℤ),
      (ids.filter fun a => (edges.countP (·.2 = a) : ℤ) = 0).reverse) 0 visited) :
    Checked vertices edges (visited = ids.length)

theorem taking_start {ids : List α} (edges : List (α × α)) (hids : ids.Nodup) :
    Taking edges ids [] (fun a => (edges.countP (·.2 = a) : ℤ),
      (ids.filter fun a => (edges.countP (·.2 = a) : ℤ) = 0).reverse) where
  releasing := by
    refine ⟨?_, ?_, ?_⟩
    · intro a
      simp [openEdges]
    · intro a ha
      rw [append_nil, mem_reverse, mem_filter, decide_eq_true_eq] at ha
      exact ha.2
    · rw [append_nil, nodup_reverse]
      exact hids.filter _
  ordered := trivial
  ready_mem a ha := (mem_filter.mp (mem_reverse.mp ha)).1
  taken_mem := by simp
  found a ha hzero := by
    rw [append_nil, mem_reverse, mem_filter, decide_eq_true_eq]
    exact ⟨ha, hzero⟩

variable {vertices : List α}

/-- The check ends, and returns what is computed here. -/
theorem checked_isAcyclic (vertices : List α) (edges : List (α × α)) :
    Checked vertices edges (isAcyclic vertices edges) := by
  unfold isAcyclic
  dsimp only
  split
  · rename_i hany
    obtain ⟨e, he, hdangling⟩ := any_eq_true.mp hany
    exact .dangling he (by simpa using hdangling)
  · rename_i hlinked
    have hedges : ∀ e ∈ edges, e.1 ∈ vertices ∧ e.2 ∈ vertices := by simpa using hlinked
    have hids : vertices.dedup.Nodup := nodup_dedup vertices
    exact .counted hedges hids (fun a => mem_dedup)
      ((taking_start edges hids).visits (fun e he => mem_dedup.mpr (hedges e he).2) (by simp))

theorem Checked.iff {result : Bool} (h : Checked vertices edges result) :
    result = true ↔ (∀ e ∈ edges, e.1 ∈ vertices ∧ e.2 ∈ vertices) ∧ Acyclic edges := by
  cases h with
  | @dangling e he h =>
    refine iff_of_false Bool.false_ne_true fun ⟨hall, _⟩ => ?_
    exact h.elim (fun h => h (hall e he).1) fun h => h (hall e he).2
  | @counted ids visited hedges hids hmem h =>
    have hedges' : ∀ e ∈ edges, e.1 ∈ ids ∧ e.2 ∈ ids := by simpa [hmem] using hedges
    obtain ⟨order, incoming, horder, rfl⟩ :=
      h.taking (taking_start edges hids) rfl fun e he => (hedges' e he).2
    rw [decide_eq_true_eq, horder.length_eq_iff hids hedges']
    exact (and_iff_right hedges).symm

theorem acyclic_of_isAcyclic (h : isAcyclic vertices edges = true) :
    Acyclic edges ∧ ∀ e ∈ edges, e.1 ∈ vertices ∧ e.2 ∈ vertices :=
  ((checked_isAcyclic vertices edges).iff.mp h).symm

example : isAcyclic [1, 2, 3] [(1, 2), (1, 3), (2, 3)] = true ∧
    isAcyclic [1, 2, 3] [(1, 2), (2, 3), (3, 2)] = false ∧ isAcyclic [1] [(1, 2)] = false := by
  decide

end AIpinho.Lib.Digraph
