import AIpinho.Semantics.RevisionChains

/-!
# Planned work under revisions

A revision does not look at the canonical plan. What it does not remove it keeps; what it
removes is lost unless it is added again.
-/

namespace AIpinho.Semantics

open List Lib

/-- A unit for the step is removed only if one for it is added. -/
def RevisionCall.KeepsStep (call : RevisionCall) (stepId : String) : Prop :=
  ∀ unit ∈ call.parent.workUnits, stepId ∈ unit.sourceStepIds →
    unit.workUnitId ∈ call.proposal.removeWorkUnitIds →
      ∃ addition ∈ call.proposal.addWorkUnits, stepId ∈ addition.sourceStepIds

/-- The call keeps the units of both steps, and an edge between them where they are two. -/
def RevisionCall.Spares (call : RevisionCall) (dependency : String × String) : Prop :=
  ∀ producer ∈ call.parent.workUnits, ∀ consumer ∈ call.parent.workUnits,
    dependency.1 ∈ producer.sourceStepIds → dependency.2 ∈ consumer.sourceStepIds →
      producer.workUnitId ∉ call.proposal.removeWorkUnitIds ∧
        consumer.workUnitId ∉ call.proposal.removeWorkUnitIds ∧
        (producer.workUnitId = consumer.workUnitId ∨
          (producer.workUnitId, consumer.workUnitId) ∈
            arcs (call.parent.edges.filter fun edge =>
              edge.edgeId ∉ call.proposal.removeEdgeIds))

instance (call : RevisionCall) (stepId : String) : Decidable (call.KeepsStep stepId) :=
  inferInstanceAs (Decidable (∀ unit ∈ call.parent.workUnits, _))

instance (call : RevisionCall) (dependency : String × String) :
    Decidable (call.Spares dependency) :=
  inferInstanceAs (Decidable (∀ producer ∈ call.parent.workUnits, _))

section Prepare

variable {hashes : SemanticHashes} {parent : SemanticExecutionGraph}
  {proposal : SemanticGraphRevisionProposal} {prepared : PreparedRevision}

theorem Prepares.mem_of_notMem_removed (h : Prepares hashes parent proposal prepared)
    {unit : SemanticWorkUnitContract} (hunit : unit ∈ parent.workUnits)
    (hstay : unit.workUnitId ∉ proposal.removeWorkUnitIds) : unit ∈ prepared.finalUnits := by
  rw [h.units]
  exact mem_append_left _ (mem_filter.mpr ⟨hunit, by simpa using hstay⟩)

theorem Prepares.covered (h : Prepares hashes parent proposal prepared) {stepId : String}
    (hkeeps : (RevisionCall.mk parent proposal).KeepsStep stepId)
    (hcovered : ∃ unit ∈ parent.workUnits, stepId ∈ unit.sourceStepIds) :
    ∃ unit ∈ prepared.finalUnits, stepId ∈ unit.sourceStepIds := by
  obtain ⟨unit, hunit, hstep⟩ := hcovered
  by_cases hremoved : unit.workUnitId ∈ proposal.removeWorkUnitIds
  · obtain ⟨addition, haddition, hadded⟩ := hkeeps unit hunit hstep hremoved
    refine ⟨materializeWorkUnit hashes parent proposal addition, ?_, hadded⟩
    rw [h.units, h.additions]
    exact mem_append_right _ (mem_map_of_mem haddition)
  · exact ⟨unit, h.mem_of_notMem_removed hunit hremoved, hstep⟩

theorem Prepares.realised (h : Prepares hashes parent proposal prepared)
    {dependency : String × String} (hspares : (RevisionCall.mk parent proposal).Spares dependency)
    (hrealised : Realised parent.workUnits parent.edges dependency) :
    Realised prepared.finalUnits prepared.finalEdges dependency := by
  obtain ⟨producer, hproducer, consumer, hconsumer, hsource, htarget, -⟩ := hrealised
  obtain ⟨hproducerStays, hconsumerStays, hends⟩ :=
    hspares producer hproducer consumer hconsumer hsource htarget
  refine ⟨producer, h.mem_of_notMem_removed hproducer hproducerStays, consumer,
    h.mem_of_notMem_removed hconsumer hconsumerStays, hsource, htarget, hends.imp_right ?_⟩
  intro hmem
  rw [h.edges]
  exact map_subset _ (subset_append_left _ _) hmem

end Prepare

theorem Realised.perm {units units' : List SemanticWorkUnitContract}
    {edges edges' : List SemanticDependencyEdge} {dependency : String × String}
    (h : Realised units edges dependency) (hunits : units'.Perm units)
    (hedges : edges'.Perm edges) : Realised units' edges' dependency := by
  obtain ⟨producer, hproducer, consumer, hconsumer, hsource, htarget, hends⟩ := h
  refine ⟨producer, hunits.symm.subset hproducer, consumer, hunits.symm.subset hconsumer, hsource,
    htarget, hends.imp_right ?_⟩
  intro hmem
  exact (hedges.map _).symm.subset hmem

/-- What a chain of calls keeps of the plan. -/
structure Keeps (calls : List RevisionCall) (units units' : List SemanticWorkUnitContract)
    (edges edges' : List SemanticDependencyEdge) : Prop where
  covered : ∀ stepId, (∀ call ∈ calls, call.KeepsStep stepId) →
    (∃ unit ∈ units, stepId ∈ unit.sourceStepIds) → ∃ unit ∈ units', stepId ∈ unit.sourceStepIds
  realised : ∀ dependency, (∀ call ∈ calls, call.Spares dependency) →
    Realised units edges dependency → Realised units' edges' dependency

theorem Sound.keeps {hashes : SemanticHashes} {first : String × String} {plan : SemanticPlan}
    {parent child : SemanticExecutionGraph} (hplan : Sound hashes first plan parent)
    {proposal : SemanticGraphRevisionProposal} {revision : SemanticGraphRevision}
    (happlied : applyRevision hashes plan proposal =
      { status := .applied, revision := some revision, childGraph := some child }) :
    Keeps [⟨parent, proposal⟩] parent.workUnits child.workUnits parent.edges child.edges := by
  obtain ⟨graph, vocabulary, prepared, hgraph, -, hprepare, hchild, -⟩ :=
    applyRevision_applied happlied
  obtain rfl : graph = parent := Option.some.inj (hgraph.symm.trans hplan.current)
  have hprepares := prepareRevision_ok hplan.wellFormed hprepare
  obtain ⟨hunits, hedges⟩ := buildChild_perm hashes graph proposal prepared
  rw [← hchild] at hunits hedges
  refine ⟨?_, ?_⟩
  · intro stepId hkeeps hcovered
    obtain ⟨unit, hunit, hstep⟩ := hprepares.covered (hkeeps _ (mem_singleton_self _)) hcovered
    exact ⟨unit, hunits.symm.subset hunit, hstep⟩
  · intro dependency hspares hrealised
    exact (hprepares.realised (hspares _ (mem_singleton_self _)) hrealised).perm hunits hedges

theorem Sound.keeps_revisions {hashes : SemanticHashes} (hinj : Function.Injective hashes.edgeId)
    {first : String × String} {plan last : SemanticPlan} {calls : List RevisionCall}
    (h : Revisions hashes plan calls last) {graph : SemanticExecutionGraph}
    (hplan : Sound hashes first plan graph) {final : SemanticExecutionGraph}
    (hfinal : last.semanticExecutionGraph = some final) :
    Keeps calls graph.workUnits final.workUnits graph.edges final.edges := by
  induction h generalizing graph with
  | nil plan =>
    obtain rfl : graph = final := Option.some.inj (hplan.current.symm.trans hfinal)
    exact ⟨fun _ _ hcovered => hcovered, fun _ _ hrealised => hrealised⟩
  | @cons plan last call calls revision child hparent happlied _ ih =>
    obtain rfl : graph = call.parent := Option.some.inj (hplan.current.symm.trans hparent)
    have hstep := hplan.keeps happlied
    have hrest := ih (hplan.revised hinj happlied) hfinal
    refine ⟨?_, ?_⟩
    · intro stepId hkeeps hcovered
      rw [forall_mem_cons] at hkeeps
      refine hrest.covered stepId hkeeps.2 (hstep.covered stepId ?_ hcovered)
      exact forall_mem_singleton.mpr hkeeps.1
    · intro dependency hspares hrealised
      rw [forall_mem_cons] at hspares
      refine hrest.realised dependency hspares.2 (hstep.realised dependency ?_ hrealised)
      exact forall_mem_singleton.mpr hspares.1

/-- Unless the hashes have collisions, every chain of revisions that is applied to a graph
of a canonical plan keeps the steps that its calls keep and the explicit dependencies
that its calls spare. -/
theorem revisions_keep_planned_work {hashes : SemanticHashes}
    (hunitId : Function.Injective hashes.workUnitId) (hedgeId : Function.Injective hashes.edgeId)
    {run : SemanticRun} {canonical : CanonicalExecutionPlan}
    (hcanonical : run.plan.canonicalExecutionPlan = some canonical) {graph : SemanticExecutionGraph}
    (hcompiled : (∃ candidate, compileCandidate hashes run candidate = .ok graph) ∨
      ∃ str, compileStructural hashes str run = .ok graph)
    {plan last : SemanticPlan} (hgraph : plan.semanticExecutionGraph = some graph)
    (hnone : plan.semanticGraphRevisions = []) {calls : List RevisionCall}
    (h : Revisions hashes plan calls last) :
    ∃ final, last.semanticExecutionGraph = some final ∧
      (∀ step ∈ canonical.executionSteps, (∀ call ∈ calls, call.KeepsStep step.stepId) →
        ∃ unit ∈ final.workUnits, step.stepId ∈ unit.sourceStepIds) ∧
      ∀ step ∈ canonical.executionSteps, ∀ source ∈ step.dependsOn,
        (∀ call ∈ calls, call.Spares (source, step.stepId)) →
          Realised final.workUnits final.edges (source, step.stepId) := by
  have hfirst : Compiled hashes graph ∧ KeepsPlan canonical graph.workUnits graph.edges := by
    rcases hcompiled with ⟨candidate, hcompile⟩ | ⟨str, hcompile⟩
    · exact ⟨.candidate run candidate hcompile,
        (compileCandidate_spec hcanonical hcompile).1.keepsPlan⟩
    · exact ⟨.structural str run hcompile, (compileStructural_keepsPlan hcanonical hcompile).1⟩
  obtain ⟨hmade, hkeeps⟩ := hfirst
  have hplan := hmade.sound hunitId hedgeId hgraph hnone
  obtain ⟨final, hfinal⟩ := Sound.revisions hedgeId h hplan
  have hchain := hplan.keeps_revisions hedgeId h hfinal.current
  refine ⟨final, hfinal.current, ?_, ?_⟩
  · intro step hstep hcalls
    exact hchain.covered step.stepId hcalls (hkeeps.covered step hstep)
  · intro step hstep source hsource hcalls
    exact hchain.realised _ hcalls (hkeeps.realised step hstep source hsource)

/-- The new unit stands for the step of the removed one, and reading and writing are untouched. -/
theorem replan_keeps : ∃ (hashes : SemanticHashes) (graph : SemanticExecutionGraph)
    (plan last : SemanticPlan), Revisions hashes plan [⟨graph, replan graph⟩] last ∧
      ∃ final, last.semanticExecutionGraph = some final ∧
        (∀ step ∈ threeSteps, ∃ unit ∈ final.workUnits, step.stepId ∈ unit.sourceStepIds) ∧
        Realised final.workUnits final.edges ("read", "write") := by
  obtain ⟨graph, last, hcompile, hchain⟩ := exists_replan
  have hconditions :
      (compileStructural namedHashes (fun _ => "") (smallRun threeSteps)).toOption.map
      (fun graph => decide ((∀ step ∈ threeSteps,
        (RevisionCall.mk graph (replan graph)).KeepsStep step.stepId) ∧
          (RevisionCall.mk graph (replan graph)).Spares ("read", "write"))) = some true := by
    decide +kernel
  rw [hcompile] at hconditions
  obtain ⟨hkeeps, hspares⟩ := of_decide_eq_true (Option.some.inj hconditions)
  obtain ⟨final, hfinal, hcovered, hrealised⟩ := revisions_keep_planned_work
    exists_unitId.choose_spec exists_edgeId.choose_spec rfl (.inr ⟨_, hcompile⟩) rfl rfl hchain
  refine ⟨_, graph, _, last, hchain, final, hfinal, fun step hstep => ?_, ?_⟩
  · exact hcovered step hstep (forall_mem_singleton.mpr (hkeeps step hstep))
  · exact hrealised { stepId := "write", dependsOn := ["read"] } (by simp [smallPlan, threeSteps])
      "read" (mem_singleton_self _) (forall_mem_singleton.mpr hspares)

def removeEdges (graph : SemanticExecutionGraph) (stepId : String) :
    SemanticGraphRevisionProposal where
  proposalId := "proposal"
  parentGraphId := graph.semanticGraphId
  parentGraphAuthoritySha256 := graph.authoritySha256
  revisionNumber := 1
  reason := "replanned"
  provenance := [("source", .str "user")]
  removeEdgeIds := graph.edges.map (·.edgeId)
  removeWorkUnitIds := (graph.workUnits.filter fun unit =>
    unit.sourceStepIds.contains stepId).map (·.workUnitId)

/-- Removing the edge between the two units leaves the dependency without an edge, and
removing a unit leaves its step without a unit. -/
theorem removal_loses_planned_work : ∃ graph,
    compileCandidate plainHashes (smallRun twoSteps) twoUnits = .ok graph ∧
      (∃ last final, Revisions plainHashes (planWith twoSteps graph)
        [⟨graph, removeEdges graph ""⟩] last ∧ last.semanticExecutionGraph = some final ∧
        ¬Realised final.workUnits final.edges ("read", "write")) ∧
      ∃ last final, Revisions plainHashes (planWith twoSteps graph)
        [⟨graph, removeEdges graph "read"⟩] last ∧ last.semanticExecutionGraph = some final ∧
        ¬∃ unit ∈ final.workUnits, "read" ∈ unit.sourceStepIds := by
  have hedge : ((compileCandidate plainHashes (smallRun twoSteps) twoUnits).toOption.bind
      fun graph => (applyRevision plainHashes (planWith twoSteps graph)
        (removeEdges graph "")).childGraph).map (fun final =>
          (final.workUnits.map fun unit => (unit.workUnitId, unit.sourceStepIds), final.edges)) =
      some ([("semantic_work_unit_read", ["read"]), ("semantic_work_unit_write", ["write"])],
        []) := by
    decide +kernel
  have hunit : ((compileCandidate plainHashes (smallRun twoSteps) twoUnits).toOption.bind
      fun graph => (applyRevision plainHashes (planWith twoSteps graph)
        (removeEdges graph "read")).childGraph).map (fun final =>
          final.workUnits.map (·.sourceStepIds)) = some [["write"]] := by
    decide +kernel
  cases hcompile : compileCandidate plainHashes (smallRun twoSteps) twoUnits with
  | error reason =>
    rw [hcompile] at hunit
    cases hunit
  | ok graph =>
    rw [hcompile] at hedge hunit
    obtain ⟨afterEdge, hafterEdge, hedgeFields⟩ := Option.map_eq_some_iff.mp hedge
    obtain ⟨afterUnit, hafterUnit, hunitFields⟩ := Option.map_eq_some_iff.mp hunit
    obtain ⟨edgePlan, hedgeChain, hedgeLast⟩ := revisions_of_childGraph rfl hafterEdge
    obtain ⟨unitPlan, hunitChain, hunitLast⟩ := revisions_of_childGraph rfl hafterUnit
    refine ⟨graph, rfl, ⟨edgePlan, afterEdge, hedgeChain, hedgeLast, ?_⟩,
      ⟨unitPlan, afterUnit, hunitChain, hunitLast, ?_⟩⟩
    · obtain ⟨hunits, hedges⟩ := Prod.mk.inj hedgeFields
      rintro ⟨producer, hproducer, consumer, hconsumer, hsource, htarget, hends⟩
      have hproducerMem : (producer.workUnitId, producer.sourceStepIds) ∈
          afterEdge.workUnits.map fun unit => (unit.workUnitId, unit.sourceStepIds) :=
        mem_map_of_mem hproducer
      have hconsumerMem : (consumer.workUnitId, consumer.sourceStepIds) ∈
          afterEdge.workUnits.map fun unit => (unit.workUnitId, unit.sourceStepIds) :=
        mem_map_of_mem hconsumer
      rw [hunits] at hproducerMem hconsumerMem
      rw [hedges] at hends
      simp only [mem_cons, Prod.mk.injEq, not_mem_nil, or_false]
        at hproducerMem hconsumerMem
      simp only [arcs, map_nil, not_mem_nil, or_false] at hends
      rcases hproducerMem with ⟨hproducerId, hproducerSteps⟩ | ⟨-, hproducerSteps⟩
      · rcases hconsumerMem with ⟨-, hconsumerSteps⟩ | ⟨hconsumerId, -⟩
        · simp [hconsumerSteps] at htarget
        · simp [hproducerId, hconsumerId] at hends
      · simp [hproducerSteps] at hsource
    · rintro ⟨unit, hmem, hstep⟩
      have hsteps : unit.sourceStepIds ∈ afterUnit.workUnits.map (·.sourceStepIds) :=
        mem_map_of_mem hmem
      rw [hunitFields] at hsteps
      rw [mem_singleton.mp hsteps] at hstep
      simp at hstep

end AIpinho.Semantics
