import AIpinho.Lib.Digraph
import AIpinho.Runtime.ExecutionGraph

/-!
# The order of the steps of a plan

The resolver gives each step at most one dependency, the last step before it of a kind that it
looks for. So the ancestors of a step are those that a walk back from dependency to
dependency comes by, and a required step that the walk steps over is not waited for.
-/

namespace AIpinho.Runtime.ExecutionGraph

open List Lib

variable {casefold : String → String}

/-- Whether a step is of the kind that the resolver looks for among those before. -/
def isSource (casefold : String → String) (step : TaskRunStep) (before : List TaskRunStep)
    (source : TaskRunStep) : Bool :=
  if isValidation casefold step ∧ before.any (·.sideEffect) then source.sideEffect
  else if step.sideEffect ∧ before.any (!·.sideEffect) then !source.sideEffect
  else (isReporting casefold step || step.required) && source.required

/-- The step that a step waits for, and all before that, the latest first. -/
def waitsFor (casefold : String → String) (step : TaskRunStep) (before : List TaskRunStep) :
    List TaskRunStep :=
  before.dropWhile (!isSource casefold step before ·)

/-- What the resolver remembers of the steps before. -/
def remembered (before : List TaskRunStep) : ResolverState where
  lastContext := (before.find? (!·.sideEffect)).map nodeId
  lastSideEffect := (before.find? (·.sideEffect)).map nodeId
  previousRequired := (before.find? (·.required)).map nodeId

theorem source_remembered (step : TaskRunStep) (before : List TaskRunStep) :
    (remembered before).source casefold step =
      (waitsFor casefold step before).head?.map nodeId := by
  have hhead : ∀ p : TaskRunStep → Bool,
      (before.dropWhile (!p ·)).head? = before.find? p := fun p => by
    induction before with
    | nil => rfl
    | cons first before ih => cases h : p first <;> simp [h, ih]
  have hany : ∀ p : TaskRunStep → Bool,
      ((before.find? p).map nodeId).isSome = before.any p := fun p => by
    rw [Option.isSome_map, Bool.eq_iff_iff, find?_isSome, any_eq_true]
  rw [waitsFor, hhead, ResolverState.source]
  simp only [remembered, hany]
  unfold isSource
  split
  · rfl
  · split
    · rfl
    · cases hreporting : isReporting casefold step <;> cases hrequired : step.required <;>
        simp [← hany (·.required), Option.isSome_iff_ne_none]

theorem remembered_cons (step : TaskRunStep) (before : List TaskRunStep) :
    remembered (step :: before) =
      { lastContext :=
          if step.sideEffect then (remembered before).lastContext else some (nodeId step)
        lastSideEffect :=
          if step.sideEffect then some (nodeId step) else (remembered before).lastSideEffect
        previousRequired :=
          if step.required then some (nodeId step) else (remembered before).previousRequired } := by
  cases hside : step.sideEffect <;> cases hrequired : step.required <;>
    simp [remembered, hside, hrequired]

theorem mem_resolveEdges_iff {e : ExecutionEdge} {before steps : List TaskRunStep} :
    e ∈ resolveEdges casefold (remembered before) steps ↔
      ∃ between step after source rest, steps = reverse between ++ step :: after ∧
        waitsFor casefold step (between ++ before) = source :: rest ∧
        e = ⟨nodeId source, nodeId step, true⟩ := by
  induction steps generalizing before with
  | nil => simp [resolveEdges]
  | cons first steps ih =>
    rw [resolveEdges, ← remembered_cons, mem_append, ih, source_remembered]
    constructor
    · rintro (he | ⟨between, step, after, source, rest, rfl, hwaits, rfl⟩)
      · cases hwaits : waitsFor casefold first before with
        | nil => simp [hwaits] at he
        | cons source rest =>
          exact ⟨[], first, steps, source, rest, rfl, hwaits, by simpa [hwaits] using he⟩
      · exact ⟨between ++ [first], step, after, source, rest, by simp, by simpa using hwaits, rfl⟩
    · rintro ⟨between, step, after, source, rest, hsteps, hwaits, rfl⟩
      cases hlast : between.reverse with
      | nil =>
        obtain rfl : between = [] := reverse_eq_nil_iff.mp hlast
        obtain ⟨rfl, rfl⟩ := cons.inj hsteps
        exact .inl (by simp [show waitsFor casefold first before = _ from hwaits])
      | cons earliest others =>
        rw [hlast, cons_append] at hsteps
        obtain ⟨rfl, rfl⟩ := cons.inj hsteps
        obtain rfl : between = others.reverse ++ [first] := by
          rw [← reverse_reverse between, hlast, reverse_cons]
        exact .inr ⟨others.reverse, step, after, source, rest, by simp, by simpa using hwaits, rfl⟩

/-- The arrows of the graph that is resolved for a plan. -/
def arrows (casefold : String → String) (steps : List TaskRunStep) : List (String × String) :=
  (resolveEdges casefold ⟨none, none, none⟩ steps).map fun e => (e.fromNodeId, e.toNodeId)

def IsAncestor (casefold : String → String) (steps : List TaskRunStep) (a b : TaskRunStep) : Prop :=
  Relation.TransGen (Digraph.Edge (arrows casefold steps)) (nodeId a) (nodeId b)

section Ancestors

variable {steps before after : List TaskRunStep} {step : TaskRunStep}
  (hnodup : (steps.map nodeId).Nodup)
include hnodup

theorem eq_of_nodeId_eq {between others : List TaskRunStep} {other : TaskRunStep}
    (h : steps = before ++ step :: after) (h' : steps = between ++ other :: others)
    (hid : nodeId other = nodeId step) : between = before ∧ other = step ∧ others = after := by
  have hlength : between.length = before.length := by
    have hat : (steps.map nodeId)[before.length]? = some (nodeId step) := by simp [h]
    have hat' : (steps.map nodeId)[between.length]? = some (nodeId step) := by simp [h', hid]
    have hlt := (List.getElem?_eq_some_iff.mp hat').1
    exact (getElem?_inj hlt hnodup).mp (hat'.trans hat.symm)
  obtain ⟨hbefore, hrest⟩ := append_inj (h'.symm.trans h) hlength
  exact ⟨hbefore, cons.inj hrest⟩

theorem edge_iff (h : steps = before.reverse ++ step :: after) {id : String} :
    Digraph.Edge (arrows casefold steps) id (nodeId step) ↔
      ∃ source rest, waitsFor casefold step before = source :: rest ∧ id = nodeId source := by
  have hempty : (⟨none, none, none⟩ : ResolverState) = remembered [] := rfl
  simp only [Digraph.Edge, arrows, hempty, mem_map, mem_resolveEdges_iff, append_nil]
  constructor
  · rintro ⟨e, ⟨between, other, others, source, rest, h', hwaits, rfl⟩, hends⟩
    obtain ⟨rfl, hid⟩ := Prod.mk.inj hends
    obtain ⟨hbetween, rfl, -⟩ := eq_of_nodeId_eq hnodup h h' hid
    obtain rfl := reverse_inj.mp hbetween
    exact ⟨source, rest, hwaits, rfl⟩
  · rintro ⟨source, rest, hwaits, rfl⟩
    exact ⟨_, ⟨before, step, after, source, rest, h, hwaits, rfl⟩, rfl⟩

theorem transGen_iff (h : steps = before.reverse ++ step :: after) {id : String} :
    Relation.TransGen (Digraph.Edge (arrows casefold steps)) id (nodeId step) ↔
      ∃ source rest, waitsFor casefold step before = source :: rest ∧
        (id = nodeId source ∨
          Relation.TransGen (Digraph.Edge (arrows casefold steps)) id (nodeId source)) := by
  rw [Relation.TransGen.tail'_iff]
  simp only [edge_iff hnodup h, Relation.reflTransGen_iff_eq_or_transGen]
  constructor
  · rintro ⟨mid, hpath, source, rest, hwaits, rfl⟩
    exact ⟨source, rest, hwaits, hpath.imp_left Eq.symm⟩
  · rintro ⟨source, rest, hwaits, hpath⟩
    exact ⟨_, hpath.imp_left Eq.symm, source, rest, hwaits, rfl⟩

omit hnodup in
theorem split_of_waitsFor {source : TaskRunStep} {rest : List TaskRunStep}
    (h : steps = before.reverse ++ step :: after)
    (hwaits : waitsFor casefold step before = source :: rest) :
    rest.length < before.length ∧ source :: rest ⊆ before ∧
      ∃ later, steps = rest.reverse ++ source :: later := by
  have hsplit := takeWhile_append_dropWhile (p := (!isSource casefold step before ·)) (l := before)
  rw [← waitsFor, hwaits] at hsplit
  have hlength := congrArg List.length hsplit
  rw [length_append, length_cons] at hlength
  refine ⟨by omega, fun s hs => ?_, ?_⟩
  · rw [← hsplit]
    exact mem_append_right _ hs
  · rw [h, ← hsplit]
    simp

theorem mem_of_transGen (h : steps = before.reverse ++ step :: after) {id : String}
    (hpath : Relation.TransGen (Digraph.Edge (arrows casefold steps)) id (nodeId step)) :
    ∃ s ∈ before, id = nodeId s := by
  induction hn : before.length using Nat.strong_induction_on generalizing before step after with
  | _ n ih =>
    obtain ⟨source, rest, hwaits, hpath⟩ := (transGen_iff hnodup h).mp hpath
    obtain ⟨hlt, hsub, later, h'⟩ := split_of_waitsFor h hwaits
    rcases hpath with rfl | hpath
    · exact ⟨source, hsub mem_cons_self, rfl⟩
    · obtain ⟨s, hs, hid⟩ := ih rest.length (hn ▸ hlt) h' hpath rfl
      exact ⟨s, hsub (mem_cons_of_mem _ hs), hid⟩

end Ancestors

/-- A walk back from a step comes by all needed steps: each part of it leads over none. -/
inductive ComesBy (casefold : String → String) (needed : TaskRunStep → Bool) :
    TaskRunStep → List TaskRunStep → Prop
  | nothing {step : TaskRunStep} {before : List TaskRunStep}
    (h : ∀ s ∈ before, needed s = false) : ComesBy casefold needed step before
  | back {step source : TaskRunStep} {before rest : List TaskRunStep}
    (hwaits : waitsFor casefold step before = source :: rest)
    (hover : ∀ s ∈ before, needed s = true → s ∈ source :: rest)
    (hrest : ComesBy casefold needed source rest) : ComesBy casefold needed step before

/-- All needed steps are ancestors exactly if the walk back comes by them. -/
theorem isAncestor_all_iff {steps before after : List TaskRunStep} {step : TaskRunStep}
    (hnodup : (steps.map nodeId).Nodup) (h : steps = before.reverse ++ step :: after)
    (needed : TaskRunStep → Bool) :
    (∀ s ∈ before, needed s = true → IsAncestor casefold steps s step) ↔
      ComesBy casefold needed step before := by
  constructor
  · intro hall
    induction hn : before.length using Nat.strong_induction_on generalizing before step after with
    | _ n ih =>
      by_cases hnone : ∀ s ∈ before, needed s = false
      · exact .nothing hnone
      simp only [not_forall, Bool.not_eq_false] at hnone
      obtain ⟨s, hs, hneeded⟩ := hnone
      obtain ⟨source, rest, hwaits, -⟩ := (transGen_iff hnodup h).mp (hall s hs hneeded)
      obtain ⟨hlt, hsub, later, h'⟩ := split_of_waitsFor h hwaits
      -- each needed step is the source or one of its ancestors
      have hpaths : ∀ s ∈ before, needed s = true → s = source ∨ s ∈ rest ∧
          IsAncestor casefold steps s source := by
        intro s hs hneeded
        obtain ⟨source', rest', hwaits', hpath⟩ := (transGen_iff hnodup h).mp (hall s hs hneeded)
        obtain ⟨rfl, rfl⟩ := cons.inj (hwaits.symm.trans hwaits')
        have hinj : ∀ t ∈ before, nodeId s = nodeId t → s = t := fun t ht hid =>
          inj_on_of_nodup_map hnodup (by simp [h, hs]) (by simp [h, ht]) hid
        rcases hpath with hid | hpath
        · exact .inl (hinj _ (hsub mem_cons_self) hid)
        · obtain ⟨t, ht, hid⟩ := mem_of_transGen hnodup h' hpath
          obtain rfl := hinj t (hsub (mem_cons_of_mem _ ht)) hid
          exact .inr ⟨ht, hpath⟩
      refine .back hwaits (fun s hs hneeded => ?_) (ih rest.length (hn ▸ hlt) h' ?_ rfl)
      · rcases hpaths s hs hneeded with rfl | ⟨hmem, -⟩
        · exact mem_cons_self
        · exact mem_cons_of_mem _ hmem
      · intro s hs hneeded
        rcases hpaths s (hsub (mem_cons_of_mem _ hs)) hneeded with rfl | ⟨-, hpath⟩
        · -- the source is not among the steps before it
          exact absurd hs fun hmem => by
            have hd : (map nodeId (rest.reverse ++ s :: later)).Nodup := h' ▸ hnodup
            simp [nodup_append] at hd
            exact hd.2.2 s hmem |>.1 rfl
        · exact hpath
  · intro hcomes
    induction hcomes generalizing after with
    | nothing hnone =>
      intro s hs hneeded
      rw [hnone s hs] at hneeded
      cases hneeded
    | back hwaits hover _ ih =>
      obtain ⟨-, -, later, h'⟩ := split_of_waitsFor h hwaits
      intro s hs hneeded
      refine (transGen_iff hnodup h).mpr ⟨_, _, hwaits, ?_⟩
      rcases mem_cons.mp (hover s hs hneeded) with rfl | hmem
      · exact .inl rfl
      · exact .inr (ih h' s hmem hneeded)

/-- The edges lead to later steps, side effects come after the required steps that gather
context, and reports after all required steps. -/
structure OrdersSteps (casefold : String → String) (steps : List TaskRunStep) : Prop where
  forward : ∀ e ∈ resolveEdges casefold ⟨none, none, none⟩ steps,
    ∃ before step after, ∃ source ∈ before,
    steps = before ++ step :: after ∧ e = ⟨nodeId source, nodeId step, true⟩
  acyclic : Digraph.Acyclic (arrows casefold steps)
  context : ∀ before step after, steps = before ++ step :: after → step.sideEffect = true →
    ∀ s ∈ before, s.required = true → s.sideEffect = false → IsAncestor casefold steps s step
  reports : ∀ before step after, steps = before ++ step :: after →
    isReporting casefold step = true →
    ∀ s ∈ before, s.required = true → IsAncestor casefold steps s step

theorem nodup_nodeId {steps : List TaskRunStep} (h : (steps.map (·.stepId)).Nodup) :
    (steps.map nodeId).Nodup := by
  have hnodup : ((steps.map (·.stepId)).map ("node_" ++ ·)).Nodup :=
    h.map fun a b hab => by simpa [← String.toList_inj] using hab
  rwa [map_map] at hnodup

theorem resolveEdges_forward {steps : List TaskRunStep} {e : ExecutionEdge}
    (he : e ∈ resolveEdges casefold ⟨none, none, none⟩ steps) :
    ∃ before step after, ∃ source ∈ before,
      steps = before ++ step :: after ∧ e = ⟨nodeId source, nodeId step, true⟩ := by
  have hempty : (⟨none, none, none⟩ : ResolverState) = remembered [] := rfl
  rw [hempty, mem_resolveEdges_iff] at he
  obtain ⟨before, step, after, source, rest, h, hwaits, rfl⟩ := he
  rw [append_nil] at hwaits
  have hsource := (split_of_waitsFor h hwaits).2.1 mem_cons_self
  exact ⟨before.reverse, step, after, source, mem_reverse.mpr hsource, h, rfl⟩

theorem acyclic_arrows {steps : List TaskRunStep} (hnodup : (steps.map nodeId).Nodup) :
    Digraph.Acyclic (arrows casefold steps) := by
  intro id hcycle
  obtain ⟨_, -, hlast⟩ := Relation.TransGen.tail'_iff.mp hcycle
  obtain ⟨e, he, hends⟩ := mem_map.mp hlast
  obtain ⟨before, step, after, source, -, hsteps, rfl⟩ := resolveEdges_forward he
  obtain rfl : nodeId step = id := (Prod.mk.inj hends).2
  obtain ⟨s, hs, hid⟩ := mem_of_transGen hnodup (by rwa [reverse_reverse]) hcycle
  rw [hsteps, map_append, map_cons, nodup_append] at hnodup
  exact hnodup.2.2 _ (mem_map_of_mem (mem_reverse.mp hs)) _ mem_cons_self hid.symm

/-- A plan is ordered exactly if a walk back from each side effect comes by the required steps
that gather context, and a walk back from each report by all required steps. -/
theorem ordersSteps_iff {steps : List TaskRunStep} (hids : (steps.map (·.stepId)).Nodup) :
    OrdersSteps casefold steps ↔ ∀ before step after, steps = before ++ step :: after →
      (step.sideEffect = true →
        ComesBy casefold (fun s => s.required && !s.sideEffect) step before.reverse) ∧
      (isReporting casefold step = true → ComesBy casefold (·.required) step before.reverse) := by
  have hnodup := nodup_nodeId hids
  have hwalk : ∀ {before step after}, steps = before ++ step :: after → ∀ needed,
      (∀ s ∈ before, needed s = true → IsAncestor casefold steps s step) ↔
        ComesBy casefold needed step before.reverse := fun {before} {step} {after} h needed => by
    rw [← isAncestor_all_iff hnodup (by rwa [reverse_reverse]) needed]
    simp only [mem_reverse]
  constructor
  · intro h before step after hsteps
    refine ⟨fun hside => (hwalk hsteps _).mp fun s hs hneeded => ?_, fun hreporting =>
      (hwalk hsteps _).mp (h.reports before step after hsteps hreporting)⟩
    rw [Bool.and_eq_true, Bool.not_eq_true'] at hneeded
    exact h.context before step after hsteps hside s hs hneeded.1 hneeded.2
  · intro h
    refine ⟨fun e he => resolveEdges_forward he, acyclic_arrows hnodup, ?_, ?_⟩
    · intro before step after hsteps hside s hs hrequired hcontext
      exact (hwalk hsteps _).mpr ((h before step after hsteps).1 hside) s hs
        (by simp [hrequired, hcontext])
    · intro before step after hsteps hreporting
      exact (hwalk hsteps _).mpr ((h before step after hsteps).2 hreporting)

/-- A required step. -/
def plainStep (stepId action : String) (sideEffect : Bool) : TaskRunStep where
  stepId := stepId
  stepType := action
  action := action
  required := true
  sideEffect := sideEffect
  status := .pending
  warnings := []
  violations := []

theorem read_then_write : OrdersSteps String.toLower
    [plainStep "a" "read" false, plainStep "b" "write" true] := by
  refine (ordersSteps_iff (by decide)).mpr fun before step after h => ?_
  match before with
  | [] => exact ⟨fun _ => .nothing (by simp), fun _ => .nothing (by simp)⟩
  | [first] =>
    obtain ⟨rfl, hrest⟩ := cons.inj h
    obtain ⟨rfl, -⟩ := cons.inj hrest
    have hwaits : waitsFor String.toLower (plainStep "b" "write" true)
        [plainStep "a" "read" false] = [plainStep "a" "read" false] := by
      simp [waitsFor, isSource, plainStep]
    exact ⟨fun _ => .back hwaits (fun _ hs _ => hs) (.nothing (by simp)),
      fun hreporting => absurd hreporting (by decide +kernel)⟩
  | _ :: _ :: _ => simp at h

/-- The report waits for the second write, which waits for the reading only. -/
theorem first_write_is_not_awaited : ¬OrdersSteps String.toLower [plainStep "a" "read" false,
    plainStep "b" "write" true, plainStep "c" "write" true, plainStep "d" "report" false] := by
  intro h
  have hpath := h.reports [plainStep "a" "read" false, plainStep "b" "write" true,
    plainStep "c" "write" true] (plainStep "d" "report" false) [] rfl (by decide +kernel)
    (plainStep "b" "write" true) (by simp) rfl
  rw [IsAncestor, ← Digraph.mem_downstream_iff] at hpath
  revert hpath
  decide +kernel

end AIpinho.Runtime.ExecutionGraph
