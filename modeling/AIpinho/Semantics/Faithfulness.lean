import AIpinho.Lib.Listing
import AIpinho.Semantics.Compiler

/-!
# What a compiled graph keeps of the plan

The units of a compiled graph share the canonical steps out among them, its edges have no cycle
and no duplicate, and each explicit dependency is realised, for every accepted grouping.
-/

namespace AIpinho.Semantics

open List Lib
open AIpinho.Runtime (isSpace)

variable {hashes : SemanticHashes} {units : List SemanticWorkUnitContract}
  {edges edges' : List SemanticDependencyEdge} {graph : SemanticExecutionGraph}

theorem compilerContext_ok {run : SemanticRun} {context : CompilerContext}
    (h : compilerContext hashes run = .ok context) :
    context.run = run ∧ run.plan.canonicalExecutionPlan = some context.canonical ∧
      (context.steps.map (·.stepId)).Nodup := by
  unfold compilerContext at h
  split at h
  · cases h
  · cases h
  rename_i canonical vocabulary hcanonical _
  simp only [demand_bind_ok_iff, Except.ok.injEq] at h
  obtain ⟨-, -, hlength, rfl⟩ := h
  refine ⟨rfl, hcanonical, ?_⟩
  -- the ids that are neither empty nor repeated are as many as the steps
  have hsub : ((canonical.executionSteps.map (·.stepId)).filter (· ≠ "")).dedup.Sublist
      (canonical.executionSteps.map (·.stepId)) :=
    (dedup_sublist _).trans filter_sublist
  have heq := hsub.eq_of_length hlength
  rw [CompilerContext.steps, ← heq]
  exact nodup_dedup _

namespace CompilerContext

variable {context : CompilerContext}

variable {stepId : String}

theorem step?_eq_some_iff (hnodup : (context.steps.map (·.stepId)).Nodup)
    {step : CanonicalExecutionStep} :
    context.step? stepId = some step ↔ step ∈ context.steps ∧ step.stepId = stepId := by
  unfold step?
  constructor
  · intro h
    exact ⟨mem_of_find?_eq_some h, by simpa using find?_some h⟩
  · rintro ⟨hmem, hid⟩
    cases hfind : context.steps.find? fun step => step.stepId = stepId with
    | none =>
      have hne := find?_eq_none.mp hfind step hmem
      exact absurd hid (by simpa using hne)
    | some other =>
      have hother : other.stepId = stepId := by simpa using find?_some hfind
      rw [inj_on_of_nodup_map hnodup (mem_of_find?_eq_some hfind) hmem
        (hother.trans hid.symm)]

theorem step?_isSome_iff :
    (context.step? stepId).isSome ↔ stepId ∈ context.steps.map (·.stepId) := by
  simp [step?]

variable {hashes : SemanticHashes} {sourceStepIds : List String} {goal : String}
  {modes : List String} {status : ClassificationStatus}
  {capabilities requested prohibited : List String}

theorem mem_workUnit_sourceStepIds :
    stepId ∈ (context.workUnit hashes sourceStepIds goal modes status capabilities requested
      prohibited).sourceStepIds ↔ stepId ∈ sourceStepIds :=
  (mem_insertionSort _).trans mem_eraseDups

theorem workUnit_sourceStepIds_singleton :
    (context.workUnit hashes [stepId] goal modes status capabilities requested
      prohibited).sourceStepIds = [stepId] :=
  rfl

end CompilerContext

/-- A unit that stands for steps of the plan, under the id that is made from them. -/
structure CompiledUnit (hashes : SemanticHashes) (context : CompilerContext)
    (unit : SemanticWorkUnitContract) : Prop where
  id : unit.workUnitId = "semantic_work_unit_" ++ hashes.workUnitId (.compiled context.run.runId
    context.vocabularyBinding.authoritySha256 unit.sourceStepIds)
  nonempty : unit.sourceStepIds ≠ []
  nodup : unit.sourceStepIds.Nodup
  known : ∀ stepId ∈ unit.sourceStepIds, stepId ∈ context.steps.map (·.stepId)

theorem compiledUnit_workUnit {context : CompilerContext} {sourceStepIds : List String}
    (hne : sourceStepIds ≠ [])
    (hknown : ∀ stepId ∈ sourceStepIds, stepId ∈ context.steps.map (·.stepId)) (goal : String)
    (modes : List String) (status : ClassificationStatus)
    (capabilities requested prohibited : List String) :
    CompiledUnit hashes context (context.workUnit hashes sourceStepIds goal modes status
      capabilities requested prohibited) where
  id := rfl
  nonempty := by
    obtain ⟨first, hfirst⟩ := exists_mem_of_ne_nil sourceStepIds hne
    exact ne_nil_of_mem (CompilerContext.mem_workUnit_sourceStepIds.mpr hfirst)
  nodup := (perm_insertionSort _ _).nodup_iff.mpr (eraseDups_nodup _)
  known := fun stepId hstep =>
    hknown stepId (CompilerContext.mem_workUnit_sourceStepIds.mp hstep)

/-- Units that share out steps of the plan. -/
structure CompiledUnits (hashes : SemanticHashes) (context : CompilerContext)
    (units : List SemanticWorkUnitContract) : Prop where
  /-- Each stands for steps of the plan. -/
  compiled : ∀ unit ∈ units, CompiledUnit hashes context unit
  disjoint : units.Pairwise fun a b => a.sourceStepIds.Disjoint b.sourceStepIds

namespace CompiledUnits

variable {hashes : SemanticHashes} {context : CompilerContext}
  {units : List SemanticWorkUnitContract}

theorem concat (h : CompiledUnits hashes context units) {unit : SemanticWorkUnitContract}
    (hunit : CompiledUnit hashes context unit)
    (hnew : ∀ other ∈ units, other.sourceStepIds.Disjoint unit.sourceStepIds) :
    CompiledUnits hashes context (units ++ [unit]) where
  compiled := by
    intro other hother
    rcases mem_append.mp hother with hother | hother
    · exact h.compiled other hother
    · exact mem_singleton.mp hother ▸ hunit
  disjoint := by
    refine pairwise_append.mpr ⟨h.disjoint, pairwise_singleton _ _, ?_⟩
    intro other hother last hlast
    exact mem_singleton.mp hlast ▸ hnew other hother

theorem ids_nodup (h : CompiledUnits hashes context units)
    (hinj : Function.Injective hashes.workUnitId) : (units.map (·.workUnitId)).Nodup := by
  rw [nodup_iff_pairwise_ne, pairwise_map]
  refine h.disjoint.imp_of_mem ?_
  intro a b ha hb hdisjoint heq
  rw [(h.compiled a ha).id, (h.compiled b hb).id, String.append_right_inj] at heq
  have hsteps : a.sourceStepIds = b.sourceStepIds := by
    injection hinj heq
  obtain ⟨stepId, hstep⟩ := exists_mem_of_ne_nil _ (h.compiled a ha).nonempty
  exact hdisjoint hstep (hsteps ▸ hstep)

end CompiledUnits

theorem countP_eq_one
    (hdisjoint : units.Pairwise fun a b => a.sourceStepIds.Disjoint b.sourceStepIds)
    {stepId : String} (hcovered : ∃ unit ∈ units, stepId ∈ unit.sourceStepIds) :
    units.countP (fun unit => stepId ∈ unit.sourceStepIds) = 1 := by
  induction units with
  | nil =>
    obtain ⟨unit, hunit, -⟩ := hcovered
    cases hunit
  | cons first units ih =>
    rw [pairwise_cons] at hdisjoint
    by_cases hfirst : stepId ∈ first.sourceStepIds
    · have hrest : units.countP (fun unit => stepId ∈ unit.sourceStepIds) = 0 := by
        rw [countP_eq_zero]
        intro unit hunit
        simpa using fun hstep => hdisjoint.1 unit hunit hfirst hstep
      rw [countP_cons_of_pos (by simpa using hfirst), hrest]
    · rw [countP_cons_of_neg (by simpa using hfirst)]
      apply ih hdisjoint.2
      obtain ⟨unit, hunit, hstep⟩ := hcovered
      rcases mem_cons.mp hunit with rfl | hunit
      · exact absurd hstep hfirst
      · exact ⟨unit, hunit, hstep⟩

def arcs (edges : List SemanticDependencyEdge) : List (String × String) :=
  edges.map fun edge => (edge.producerWorkUnitId, edge.consumerWorkUnitId)

/-- Edges under ids that are made from their signatures, each signature once. -/
structure CompiledEdges (hashes : SemanticHashes) (context : CompilerContext)
    (edges : List SemanticDependencyEdge) : Prop where
  ids : ∀ edge ∈ edges, edge.edgeId = "semantic_edge_" ++ hashes.edgeId (.compiled
    context.run.runId edge.producerWorkUnitId edge.consumerWorkUnitId edge.relation)
  signatures : (edges.map (·.signature)).Nodup
  noSelf : ∀ edge ∈ edges, edge.producerWorkUnitId ≠ edge.consumerWorkUnitId

namespace CompiledEdges

variable {hashes : SemanticHashes} {context : CompilerContext} {edges : List SemanticDependencyEdge}

theorem nil : CompiledEdges hashes context [] where
  ids := by simp
  signatures := nodup_nil
  noSelf := by simp

theorem concat (h : CompiledEdges hashes context edges) {producer consumer : String}
    {relation : SemanticEdgeRelation} (hself : producer ≠ consumer)
    (hnew : (producer, consumer, relation) ∉ edges.map (·.signature)) (required : Bool)
    (sourceRefs : List String) :
    CompiledEdges hashes context
      (edges ++ [context.edge hashes producer consumer relation required sourceRefs]) where
  ids := by
    intro edge hedge
    rcases mem_append.mp hedge with hedge | hedge
    · exact h.ids edge hedge
    · rw [mem_singleton.mp hedge]
      rfl
  signatures := by
    rw [map_append]
    exact nodup_concat_iff.mpr ⟨hnew, h.signatures⟩
  noSelf := by
    intro edge hedge
    rcases mem_append.mp hedge with hedge | hedge
    · exact h.noSelf edge hedge
    · rw [mem_singleton.mp hedge]
      exact hself

theorem ids_nodup (h : CompiledEdges hashes context edges)
    (hinj : Function.Injective hashes.edgeId) : (edges.map (·.edgeId)).Nodup := by
  rw [nodup_iff_pairwise_ne, pairwise_map]
  have hpairwise := pairwise_map.mp (nodup_iff_pairwise_ne.mp h.signatures)
  refine hpairwise.imp_of_mem ?_
  intro a b ha hb hne heq
  rw [h.ids a ha, h.ids b hb, String.append_right_inj] at heq
  injection hinj heq with _ hproducer hconsumer hrelation
  exact hne (by rw [SemanticDependencyEdge.signature, hproducer, hconsumer, hrelation]; rfl)

end CompiledEdges

variable {str : Json → String}

/-- An explicit dependency, from the step that is needed to the step that needs it, is
realised: by units under one id, or by an edge between their units. -/
def Realised (units : List SemanticWorkUnitContract) (edges : List SemanticDependencyEdge)
    (dependency : String × String) : Prop :=
  ∃ producer ∈ units, ∃ consumer ∈ units, dependency.1 ∈ producer.sourceStepIds ∧
    dependency.2 ∈ consumer.sourceStepIds ∧ (producer.workUnitId = consumer.workUnitId ∨
      (producer.workUnitId, consumer.workUnitId) ∈ arcs edges)

theorem structuralUnits_ok {context : CompilerContext}
    (hnodup : (context.steps.map (·.stepId)).Nodup)
    (h : context.steps.mapM (structuralUnit hashes str context) = .ok units) :
    CompiledUnits hashes context units ∧
      units.map (·.sourceStepIds) = context.steps.map fun step => [step.stepId] := by
  have hunit : ∀ step ∈ context.steps, ∀ unit, structuralUnit hashes str context step = .ok unit →
      CompiledUnit hashes context unit ∧ unit.sourceStepIds = [step.stepId] := by
    intro step hstep unit hunit
    simp only [structuralUnit, demand_bind_ok_iff, Except.ok.injEq] at hunit
    obtain ⟨-, -, -, -, rfl⟩ := hunit
    refine ⟨compiledUnit_workUnit (cons_ne_nil _ _) ?_ _ _ _ _ _ _, ?_⟩
    · intro stepId hstepId
      rw [mem_singleton.mp hstepId]
      exact mem_map_of_mem hstep
    · exact CompilerContext.workUnit_sourceStepIds_singleton
  have hsteps : units.map (·.sourceStepIds) = context.steps.map fun step => [step.stepId] := by
    have hall := forall₂_iff_get.mp (forall₂_of_mapM_ok h)
    refine ext_getElem (by simp [hall.1]) ?_
    intro i hi hi'
    rw [length_map] at hi hi'
    rw [getElem_map, getElem_map]
    exact (hunit _ (getElem_mem hi') _ (hall.2 i hi' hi)).2
  refine ⟨⟨?_, ?_⟩, hsteps⟩
  · intro unit hmem
    obtain ⟨step, hstep, hcompile⟩ := (mem_of_mapM_ok h unit).mp hmem
    exact (hunit step hstep unit hcompile).1
  · refine pairwise_map.mp (show (units.map (·.sourceStepIds)).Pairwise List.Disjoint from ?_)
    rw [hsteps, pairwise_map]
    refine (pairwise_map.mp (nodup_iff_pairwise_ne.mp hnodup)).imp ?_
    intro a b hne
    simpa using Ne.symm hne

theorem CompiledEdges.dependencyEdges {context : CompilerContext}
    {dependencies : List (String × String)} (h : CompiledEdges hashes context edges)
    (hcompile : dependencyEdges hashes context units edges dependencies = .ok edges') :
    CompiledEdges hashes context edges' := by
  induction dependencies generalizing edges with
  | nil => exact Except.ok.inj hcompile ▸ h
  | cons dependency rest ih =>
    rw [Semantics.dependencyEdges] at hcompile
    split at hcompile
    · split at hcompile
      · exact ih h hcompile
      · rename_i hnew
        rw [Bool.or_eq_true, not_or, decide_eq_true_eq] at hnew
        refine ih (h.concat hnew.1 ?_ _ _) hcompile
        intro hmem
        obtain ⟨edge, hedge, hsignature⟩ := mem_map.mp hmem
        apply hnew.2
        rw [any_eq_true]
        refine ⟨edge, hedge, ?_⟩
        simp only [SemanticDependencyEdge.signature, Prod.mk.injEq] at hsignature
        simp [hsignature]
    · cases hcompile

theorem unitOfStep?_eq_some {stepId : String} {unit : SemanticWorkUnitContract}
    (h : unitOfStep? units stepId = some unit) : unit ∈ units ∧ stepId ∈ unit.sourceStepIds := by
  unfold unitOfStep? at h
  exact ⟨mem_reverse.mp (mem_of_find?_eq_some h), by simpa using find?_some h⟩

theorem Realised.mono (hsub : edges ⊆ edges') {dependency : String × String}
    (h : Realised units edges dependency) : Realised units edges' dependency := by
  obtain ⟨producer, hproducer, consumer, hconsumer, hsource, htarget, hends⟩ := h
  exact ⟨producer, hproducer, consumer, hconsumer, hsource, htarget,
    hends.imp_right fun hmem => map_subset _ hsub hmem⟩

theorem dependencyEdges_realised {context : CompilerContext}
    {dependencies : List (String × String)} (hrequired : ∀ edge ∈ edges, edge.required = true)
    (h : dependencyEdges hashes context units edges dependencies = .ok edges') :
    edges ⊆ edges' ∧ (∀ edge ∈ edges', edge.required = true) ∧
      ∀ dependency ∈ dependencies, Realised units edges' dependency := by
  induction dependencies generalizing edges with
  | nil =>
    obtain rfl := Except.ok.inj h
    exact ⟨List.Subset.refl _, hrequired, by simp⟩
  | cons dependency rest ih =>
    rw [dependencyEdges] at h
    split at h
    · rename_i source target hsource htarget
      obtain ⟨hsourceMem, hsourceStep⟩ := unitOfStep?_eq_some hsource
      obtain ⟨htargetMem, htargetStep⟩ := unitOfStep?_eq_some htarget
      split at h
      · rename_i hold
        obtain ⟨hsub, hall, hrest⟩ := ih hrequired h
        refine ⟨hsub, hall, forall_mem_cons.mpr ⟨Realised.mono hsub ?_, hrest⟩⟩
        refine ⟨source, hsourceMem, target, htargetMem, hsourceStep, htargetStep, ?_⟩
        rw [Bool.or_eq_true, decide_eq_true_eq, any_eq_true] at hold
        refine hold.imp_right fun ⟨edge, hedge, heq⟩ => ?_
        exact mem_map.mpr ⟨edge, hedge, of_decide_eq_true heq⟩
      · obtain ⟨hsub, hall, hrest⟩ := ih (by
          intro edge hedge
          rcases mem_append.mp hedge with hedge | hedge
          · exact hrequired edge hedge
          · rw [mem_singleton.mp hedge]
            rfl) h
        refine ⟨fun edge hedge => hsub (mem_append_left _ hedge), hall,
          forall_mem_cons.mpr ⟨Realised.mono hsub ?_, hrest⟩⟩
        refine ⟨source, hsourceMem, target, htargetMem, hsourceStep, htargetStep, .inr ?_⟩
        exact mem_map.mpr ⟨_, mem_append_right _ mem_cons_self, rfl⟩
    · cases h

theorem compileStructural_ok {run : SemanticRun}
    (h : compileStructural hashes str run = .ok graph) :
    ∃ context units edges, compilerContext hashes run = .ok context ∧
      context.steps.mapM (structuralUnit hashes str context) = .ok units ∧
      dependencyEdges hashes context units [] context.dependencies = .ok edges ∧
      isAcyclicGraph units edges = true ∧ graph.workUnits = units ∧ graph.edges = edges := by
  rw [compileStructural, value_bind_ok_iff] at h
  obtain ⟨context, hcontext, h⟩ := h
  rw [value_bind_ok_iff] at h
  obtain ⟨units, hunits, h⟩ := h
  rw [value_bind_ok_iff] at h
  obtain ⟨edges, hedges, h⟩ := h
  rw [demand_bind_ok_iff] at h
  obtain ⟨hacyclic, h⟩ := h
  obtain rfl := Except.ok.inj h
  exact ⟨context, units, edges, hcontext, hunits, hedges, hacyclic, rfl, rfl⟩

/-- Every step belongs to a unit and every explicit dependency is realised. -/
structure KeepsPlan (canonical : CanonicalExecutionPlan) (units : List SemanticWorkUnitContract)
    (edges : List SemanticDependencyEdge) : Prop where
  covered : ∀ step ∈ canonical.executionSteps, ∃ unit ∈ units, step.stepId ∈ unit.sourceStepIds
  realised : ∀ step ∈ canonical.executionSteps, ∀ source ∈ step.dependsOn,
    Realised units edges (source, step.stepId)

theorem compileStructural_keepsPlan {run : SemanticRun} {canonical : CanonicalExecutionPlan}
    (hcanonical : run.plan.canonicalExecutionPlan = some canonical)
    (h : compileStructural hashes str run = .ok graph) :
    KeepsPlan canonical graph.workUnits graph.edges ∧
      ∀ edge ∈ graph.edges, edge.required = true := by
  obtain ⟨context, units, edges, hcontext, hunits, hedges, -, hgraph, hparts⟩ :=
    compileStructural_ok h
  obtain ⟨-, hplan, hnodup⟩ := compilerContext_ok hcontext
  obtain rfl : canonical = context.canonical := by
    rw [hcanonical] at hplan
    exact Option.some.inj hplan
  obtain ⟨-, hrequired, hrealised⟩ := dependencyEdges_realised (by simp) hedges
  rw [hgraph, hparts]
  refine ⟨⟨?_, ?_⟩, hrequired⟩
  · intro step hstep
    have hmem : [step.stepId] ∈ units.map (·.sourceStepIds) := by
      rw [(structuralUnits_ok hnodup hunits).2]
      exact mem_map.mpr ⟨step, hstep, rfl⟩
    obtain ⟨unit, hunit, heq⟩ := mem_map.mp hmem
    exact ⟨unit, hunit, heq ▸ mem_singleton_self _⟩
  · intro step hstep source hsource
    exact hrealised _ (mem_flatMap.mpr ⟨step, hstep, mem_map_of_mem hsource⟩)

theorem mem_capabilitiesForSteps {context : CompilerContext}
    (hnodup : (context.steps.map (·.stepId)).Nodup) {sourceStepIds : List String}
    {capability : String} :
    capability ∈ capabilitiesForSteps context sourceStepIds ↔ capability ≠ "" ∧
      ∃ step ∈ context.steps, step.stepId ∈ sourceStepIds ∧
        capability ∈ step.requiredCapabilities := by
  simp only [capabilitiesForSteps, mem_eraseDups, mem_flatMap, mem_filterMap,
    mem_filter, CompilerContext.step?_eq_some_iff hnodup, decide_eq_true_eq]
  constructor
  · rintro ⟨step, ⟨stepId, hstepId, hstep, rfl⟩, hcapability, hne⟩
    exact ⟨hne, step, hstep, hstepId, hcapability⟩
  · rintro ⟨hne, step, hstep, hstepId, hcapability⟩
    exact ⟨step, ⟨step.stepId, hstepId, hstep, rfl⟩, hcapability, hne⟩

namespace KeyedUnits

variable {units : KeyedUnits} {stepId key : String}

theorem coverage?_eq_none_iff :
    units.coverage? stepId = none ↔ ∀ entry ∈ units, stepId ∉ entry.2.sourceStepIds := by
  simp [coverage?]

theorem exists_of_coverage?_eq_some (h : units.coverage? stepId = some key) :
    ∃ unit, (key, unit) ∈ units ∧ stepId ∈ unit.sourceStepIds := by
  obtain ⟨entry, hfind, rfl⟩ := Option.map_eq_some_iff.mp h
  exact ⟨entry.2, mem_of_find?_eq_some hfind, by simpa using find?_some hfind⟩

theorem mem_of_lookup_eq_some {unit : SemanticWorkUnitContract}
    (h : List.lookup key units = some unit) : (key, unit) ∈ units := by
  obtain ⟨before, after, rfl, -⟩ := lookup_eq_some_iff.mp h
  exact mem_append_right _ mem_cons_self

theorem exists_of_coverage_lookup (hkeys : (units.map Prod.fst).Nodup)
    {unit : SemanticWorkUnitContract}
    (h : ((units.coverage? stepId).bind fun key => List.lookup key units) = some unit) :
    unit ∈ units.map Prod.snd ∧ stepId ∈ unit.sourceStepIds := by
  obtain ⟨key, hkey, hlookup⟩ := Option.bind_eq_some_iff.mp h
  obtain ⟨other, hother, hstep⟩ := exists_of_coverage?_eq_some hkey
  have hmem := mem_of_lookup_eq_some hlookup
  have heq := inj_on_of_nodup_map hkeys hmem hother rfl
  obtain rfl : unit = other := congrArg Prod.snd heq
  exact ⟨mem_map_of_mem hmem, hstep⟩

end KeyedUnits

/-- The units that were compiled from a part of a candidate. -/
structure CandidateUnits (hashes : SemanticHashes) (context : CompilerContext)
    (units : KeyedUnits) : Prop where
  keys : (units.map Prod.fst).Nodup
  shared : CompiledUnits hashes context (units.map Prod.snd)
  capabilities : ∀ unit ∈ units.map Prod.snd, ∀ capability,
    capability ∈ unit.requiredCapabilities ↔ capability ≠ "" ∧ ∃ step ∈ context.steps,
      step.stepId ∈ unit.sourceStepIds ∧ capability ∈ step.requiredCapabilities

theorem CandidateUnits.nil (hashes : SemanticHashes) (context : CompilerContext) :
    CandidateUnits hashes context [] where
  keys := List.nodup_nil
  shared := ⟨by simp, List.Pairwise.nil⟩
  capabilities := by simp

theorem CandidateUnits.compileUnit {context : CompilerContext}
    (hnodup : (context.steps.map (·.stepId)).Nodup) {units units' : KeyedUnits}
    (h : CandidateUnits hashes context units) {proposed : SemanticWorkUnitCandidate}
    (hcompile : compileUnit hashes context units proposed = .ok units') :
    CandidateUnits hashes context units' := by
  simp only [Semantics.compileUnit, demand_bind_ok_iff, Except.ok.injEq] at hcompile
  obtain ⟨⟨-, hkey⟩, hne, hknown, hcoverage, -, -, -, -, -, rfl⟩ := hcompile
  refine ⟨?_, ?_, ?_⟩
  · rw [map_append]
    exact nodup_concat_iff.mpr ⟨hkey, h.keys⟩
  · rw [map_append]
    refine h.shared.concat (compiledUnit_workUnit hne (fun stepId hstep =>
      CompilerContext.step?_isSome_iff.mp (hknown stepId hstep)) _ _ _ _ _ _) ?_
    intro other hother stepId hold hnew
    obtain ⟨entry, hentry, rfl⟩ := mem_map.mp hother
    have hmem := CompilerContext.mem_workUnit_sourceStepIds.mp hnew
    exact KeyedUnits.coverage?_eq_none_iff.mp (hcoverage stepId hmem) entry hentry hold
  · intro unit hunit capability
    rw [map_append, mem_append] at hunit
    rcases hunit with hunit | hunit
    · exact h.capabilities unit hunit capability
    · obtain rfl := mem_singleton.mp hunit
      simp only [CompilerContext.mem_workUnit_sourceStepIds]
      exact mem_capabilitiesForSteps hnodup

theorem CandidateUnits.compileUnits {context : CompilerContext}
    (hnodup : (context.steps.map (·.stepId)).Nodup) {candidates : List SemanticWorkUnitCandidate}
    {units units' : KeyedUnits} (h : CandidateUnits hashes context units)
    (hcompile : compileUnits hashes context units candidates = .ok units') :
    CandidateUnits hashes context units' := by
  induction candidates generalizing units with
  | nil => exact Except.ok.inj hcompile ▸ h
  | cons proposed rest ih =>
    rw [Semantics.compileUnits, value_bind_ok_iff] at hcompile
    obtain ⟨next, hnext, hrest⟩ := hcompile
    exact ih (h.compileUnit hnodup hnext) hrest

theorem CompiledEdges.compileEdges {context : CompilerContext} {units : KeyedUnits}
    {candidates : List SemanticDependencyEdgeCandidate} (h : CompiledEdges hashes context edges)
    (hcompile : compileEdges hashes context units edges candidates = .ok edges') :
    CompiledEdges hashes context edges' := by
  induction candidates generalizing edges with
  | nil => exact Except.ok.inj hcompile ▸ h
  | cons proposed rest ih =>
    rw [Semantics.compileEdges] at hcompile
    split at hcompile
    · rename_i producer consumer _ _
      split at hcompile
      · cases hcompile
      rename_i hself
      split at hcompile
      · exact ih h hcompile
      · rename_i hnew
        exact ih (h.concat hself (by simpa using hnew) _ _) hcompile
    · cases hcompile

theorem realised_of_isRealised {units : KeyedUnits} {dependency : String × String}
    (hkeys : (units.map Prod.fst).Nodup) (h : isRealised units edges dependency = true) :
    Realised (units.map Prod.snd) edges dependency := by
  unfold isRealised at h
  split at h
  · rename_i producer consumer hproducer hconsumer
    obtain ⟨hproducerMem, hsource⟩ := KeyedUnits.exists_of_coverage_lookup hkeys hproducer
    obtain ⟨hconsumerMem, htarget⟩ := KeyedUnits.exists_of_coverage_lookup hkeys hconsumer
    refine ⟨producer, hproducerMem, consumer, hconsumerMem, hsource, htarget, ?_⟩
    rw [Bool.or_eq_true, decide_eq_true_eq, any_eq_true] at h
    refine h.imp_right fun ⟨edge, hedge, heq⟩ => ?_
    exact mem_map.mpr ⟨edge, hedge, of_decide_eq_true heq⟩
  · cases h

theorem compileCandidate_ok {run : SemanticRun} {candidate : SemanticWorkDecompositionCandidate}
    (h : compileCandidate hashes run candidate = .ok graph) :
    ∃ context units edges, compilerContext hashes run = .ok context ∧
      compileUnits hashes context [] candidate.workUnits = .ok units ∧
      compileEdges hashes context units [] candidate.edges = .ok edges ∧
      (∀ step ∈ context.steps, ∃ unit ∈ units.map Prod.snd, step.stepId ∈ unit.sourceStepIds) ∧
      (∀ dependency ∈ context.dependencies, isRealised units edges dependency = true) ∧
      isAcyclicGraph (units.map Prod.snd) edges = true ∧
      graph = context.freezeGraph hashes (units.map Prod.snd) edges .ready [] := by
  rw [compileCandidate, value_bind_ok_iff] at h
  obtain ⟨context, hcontext, h⟩ := h
  rw [demand_bind_ok_iff, demand_bind_ok_iff, demand_bind_ok_iff, value_bind_ok_iff] at h
  obtain ⟨-, -, -, units, hunits, h⟩ := h
  rw [demand_bind_ok_iff, value_bind_ok_iff] at h
  obtain ⟨hcovered, edges, hedges, h⟩ := h
  rw [demand_bind_ok_iff, demand_bind_ok_iff] at h
  obtain ⟨hmissing, hacyclic, h⟩ := h
  refine ⟨context, units, edges, hcontext, hunits, hedges, ?_, ?_, hacyclic, (Except.ok.inj h).symm⟩
  · intro step hstep
    obtain ⟨key, hkey⟩ := Option.isSome_iff_exists.mp (hcovered step hstep)
    obtain ⟨unit, hunit, hmem⟩ := KeyedUnits.exists_of_coverage?_eq_some hkey
    exact ⟨unit, mem_map_of_mem hunit, hmem⟩
  · intro dependency hdependency
    have hnone := filter_eq_nil_iff.mp hmissing dependency hdependency
    simpa using hnone

def plainHashes : SemanticHashes where
  vocabulary _ := "vocabulary"
  source _ _ := "source"
  graph content := "graph:" ++ String.join (content.workUnits.map (·.workUnitId)) ++
    String.join (content.edges.map (·.edgeId))
  graphId content := String.join (content.workUnits.map (·.workUnitId)) ++
    String.join (content.edges.map (·.edgeId))
  workUnitId
    | .compiled _ _ sourceStepIds => String.join sourceStepIds
    | .revised _ _ addition => addition.additionKey
  edgeId
    | .compiled _ producer consumer _ => producer ++ ">" ++ consumer
    | .revised _ _ additionKey _ _ _ _ => additionKey
  intent proposal := "intent:" ++ proposal.proposalId
  childSource _ parent _ := "source:" ++ parent
  revision content := "revision:" ++ content.childGraphId
  revisionId content := content.childGraphId
  demand content := "demand:" ++ content.edgeId
  demandId content := content.edgeId
  offer content := "offer:" ++ content.producerWorkUnitId
  compatibility content := "compatibility:" ++ content.edgeId
  neighborhood content := "neighborhood:" ++ content.workUnitId
  join content := "join:" ++ content.consumerWorkUnitId
  snapshot content := "snapshot:" ++ content.graph.semanticGraphId
  snapshotId content := content.graph.semanticGraphId

def codingVocabulary : TaskSemanticVocabulary where
  sourceSemanticsSha256 := "semantics"
  concepts := [{ conceptId := "coding", conceptType := .workMode, scope := .task }]
  vocabularyId := "task"
  authoritySha256 := "vocabulary"

def smallPlan (steps : List CanonicalExecutionStep) : CanonicalExecutionPlan where
  executionId := "execution"
  executionSteps := steps

def smallRun (steps : List CanonicalExecutionStep) : SemanticRun where
  runId := "run"
  taskId := "task"
  plan := {
    planId := "plan"
    canonicalExecutionPlan := some (smallPlan steps)
    taskSemanticVocabulary := some codingVocabulary }

def unitForStep (stepId : String) : SemanticWorkUnitCandidate where
  unitKey := stepId
  sourceStepIds := [stepId]
  semanticGoal := "do " ++ stepId
  workModes := ["coding"]

def grouping (workUnits : List SemanticWorkUnitCandidate)
    (edges : List SemanticDependencyEdgeCandidate) : SemanticWorkDecompositionCandidate where
  workUnits := workUnits
  edges := edges
  confidence := 1
  rationale := "one unit for each step"

/-- What a graph keeps of a canonical plan. -/
structure FaithfulTo (canonical : CanonicalExecutionPlan) (graph : SemanticExecutionGraph) :
    Prop where
  covered : ∀ step ∈ canonical.executionSteps,
    graph.workUnits.countP (fun unit => step.stepId ∈ unit.sourceStepIds) = 1
  known : ∀ unit ∈ graph.workUnits, ∀ stepId ∈ unit.sourceStepIds,
    ∃ step ∈ canonical.executionSteps, step.stepId = stepId
  capabilities : ∀ unit ∈ graph.workUnits, ∀ capability,
    capability ∈ unit.requiredCapabilities ↔ capability ≠ "" ∧
      ∃ step ∈ canonical.executionSteps, step.stepId ∈ unit.sourceStepIds ∧
        capability ∈ step.requiredCapabilities
  /-- No unit needs itself, not even through others. -/
  acyclic : Digraph.Acyclic (arcs graph.edges)
  noSelf : ∀ edge ∈ graph.edges, edge.producerWorkUnitId ≠ edge.consumerWorkUnitId
  noDuplicate : (graph.edges.map (·.signature)).Nodup
  realised : ∀ step ∈ canonical.executionSteps, ∀ source ∈ step.dependsOn,
    Realised graph.workUnits graph.edges (source, step.stepId)

theorem FaithfulTo.keepsPlan {canonical : CanonicalExecutionPlan} (h : FaithfulTo canonical graph) :
    KeepsPlan canonical graph.workUnits graph.edges where
  covered := by
    intro step hstep
    have hpos : 0 < graph.workUnits.countP fun unit => step.stepId ∈ unit.sourceStepIds := by
      rw [h.covered step hstep]
      exact Nat.one_pos
    obtain ⟨unit, hunit, hmem⟩ := countP_pos_iff.mp hpos
    exact ⟨unit, hunit, of_decide_eq_true hmem⟩
  realised := h.realised

theorem compileCandidate_spec {run : SemanticRun} {candidate : SemanticWorkDecompositionCandidate}
    {canonical : CanonicalExecutionPlan}
    (hcanonical : run.plan.canonicalExecutionPlan = some canonical)
    (h : compileCandidate hashes run candidate = .ok graph) :
    FaithfulTo canonical graph ∧ ∃ context, CompiledUnits hashes context graph.workUnits ∧
      CompiledEdges hashes context graph.edges := by
  obtain ⟨context, units, edges, hcontext, hunits, hedges, hcovered, hrealised, hacyclic, rfl⟩ :=
    compileCandidate_ok h
  obtain ⟨-, hplan, hnodup⟩ := compilerContext_ok hcontext
  obtain rfl : canonical = context.canonical := by
    rw [hcanonical] at hplan
    exact Option.some.inj hplan
  have hcandidate := (CandidateUnits.nil hashes context).compileUnits hnodup hunits
  have hcompiled := CompiledEdges.nil.compileEdges hedges
  refine ⟨⟨?_, ?_, hcandidate.capabilities, (Digraph.acyclic_of_isAcyclic hacyclic).1,
    hcompiled.noSelf, hcompiled.signatures, ?_⟩, context, hcandidate.shared, hcompiled⟩
  · intro step hstep
    exact countP_eq_one hcandidate.shared.disjoint (hcovered step hstep)
  · intro unit hunit stepId hstepId
    exact mem_map.mp ((hcandidate.shared.compiled unit hunit).known stepId hstepId)
  · intro step hstep source hsource
    refine realised_of_isRealised hcandidate.keys (hrealised _ ?_)
    exact mem_flatMap.mpr ⟨step, hstep, mem_map_of_mem hsource⟩

/-- A graph that is compiled from a proposed grouping is faithful to the canonical plan,
and its units have distinct ids unless the hash has collisions. -/
theorem compileCandidate_faithful {hashes : SemanticHashes} {run : SemanticRun}
    {candidate : SemanticWorkDecompositionCandidate} {graph : SemanticExecutionGraph}
    {canonical : CanonicalExecutionPlan}
    (hcanonical : run.plan.canonicalExecutionPlan = some canonical)
    (h : compileCandidate hashes run candidate = .ok graph) :
    FaithfulTo canonical graph ∧ (Function.Injective hashes.workUnitId →
      (graph.workUnits.map (·.workUnitId)).Nodup) := by
  obtain ⟨hfaithful, _, hunits, -⟩ := compileCandidate_spec hcanonical h
  exact ⟨hfaithful, hunits.ids_nodup⟩

def twoSteps : List CanonicalExecutionStep :=
  [{ stepId := "read" }, { stepId := "write", dependsOn := ["read"] }]

def twoUnits : SemanticWorkDecompositionCandidate :=
  grouping [unitForStep "read", unitForStep "write"]
    [{ producerUnitKey := "read", consumerUnitKey := "write", relation := .orderingConstraint }]

theorem twoUnits_faithful : ∃ graph,
    compileCandidate plainHashes (smallRun twoSteps) twoUnits = .ok graph ∧
      FaithfulTo (smallPlan twoSteps) graph := by
  obtain ⟨graph, hgraph⟩ := exists_ok_of_toOption_isSome
    (show (compileCandidate plainHashes (smallRun twoSteps) twoUnits).toOption.isSome = true by
      decide +kernel)
  exact ⟨graph, hgraph, (compileCandidate_faithful rfl hgraph).1⟩

/-- A step with a blank capability belongs to a unit without capabilities. -/
theorem blank_capability_dropped : ∃ graph, compileCandidate plainHashes
        (smallRun [{ stepId := "read", requiredCapabilities := [""] }])
        (grouping [unitForStep "read"] []) = .ok graph ∧
      ¬∀ unit ∈ graph.workUnits, ∀ step : CanonicalExecutionStep,
        step ∈ [({ stepId := "read", requiredCapabilities := [""] } : CanonicalExecutionStep)] →
          step.stepId ∈ unit.sourceStepIds → ∀ capability ∈ step.requiredCapabilities,
            capability ∈ unit.requiredCapabilities := by
  have hunits : (compileCandidate plainHashes
      (smallRun [{ stepId := "read", requiredCapabilities := [""] }])
      (grouping [unitForStep "read"] [])).toOption.map (fun graph =>
        graph.workUnits.map fun unit => (unit.sourceStepIds, unit.requiredCapabilities)) =
      some [(["read"], [])] := by
    decide +kernel
  cases hcompile : compileCandidate plainHashes
      (smallRun [{ stepId := "read", requiredCapabilities := [""] }])
      (grouping [unitForStep "read"] []) with
  | error reason =>
    rw [hcompile] at hunits
    cases hunits
  | ok graph =>
    rw [hcompile] at hunits
    simp only [Except.toOption, Option.map_some, Option.some.injEq] at hunits
    refine ⟨graph, rfl, fun hunion => ?_⟩
    have hmem : (["read"], []) ∈ graph.workUnits.map fun unit =>
        (unit.sourceStepIds, unit.requiredCapabilities) := by
      rw [hunits]
      exact mem_singleton_self _
    obtain ⟨unit, hunit, heq⟩ := mem_map.mp hmem
    obtain ⟨hsteps, hcapabilities⟩ := Prod.mk.inj heq
    have hblank := hunion unit hunit _ (mem_singleton_self _)
      (by rw [hsteps]; exact mem_singleton_self _) "" (mem_singleton_self _)
    rw [hcapabilities] at hblank
    cases hblank

end AIpinho.Semantics
