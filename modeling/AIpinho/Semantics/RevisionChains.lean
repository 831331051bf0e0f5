import AIpinho.Lib.Naming
import AIpinho.Semantics.Faithfulness
import AIpinho.Semantics.Revision
import Mathlib.Tactic.DeriveCountable

/-!
# Chains of revisions

Every revision that is applied to a well-formed graph makes a well-formed child. The ids of the
edges that are added are new because they are made from the number of the revision.
-/

namespace AIpinho.Semantics

open List Lib Table

/-- Units and edges that make up a well-formed graph. -/
structure WellFormedGraph (units : List SemanticWorkUnitContract)
    (edges : List SemanticDependencyEdge) : Prop where
  acyclic : Digraph.Acyclic (arcs edges)
  unitIds : (units.map (·.workUnitId)).Nodup
  edgeIds : (edges.map (·.edgeId)).Nodup
  linked : ∀ edge ∈ edges, edge.producerWorkUnitId ∈ units.map (·.workUnitId) ∧
    edge.consumerWorkUnitId ∈ units.map (·.workUnitId)
  signatures : (edges.map (·.signature)).Nodup
  disjoint : units.Pairwise fun a b => a.sourceStepIds.Disjoint b.sourceStepIds

theorem isAcyclicGraph_spec {units : List SemanticWorkUnitContract}
    {edges : List SemanticDependencyEdge} (h : isAcyclicGraph units edges = true) :
    Digraph.Acyclic (arcs edges) ∧ ∀ edge ∈ edges,
      edge.producerWorkUnitId ∈ units.map (·.workUnitId) ∧
        edge.consumerWorkUnitId ∈ units.map (·.workUnitId) := by
  obtain ⟨hacyclic, hends⟩ := Digraph.acyclic_of_isAcyclic h
  exact ⟨hacyclic, fun edge hedge => hends _ (mem_map_of_mem hedge)⟩

theorem WellFormedGraph.perm {units units' : List SemanticWorkUnitContract}
    {edges edges' : List SemanticDependencyEdge} (h : WellFormedGraph units edges)
    (hunits : units'.Perm units) (hedges : edges'.Perm edges) : WellFormedGraph units' edges' where
  acyclic := h.acyclic.of_subset (hedges.map _).subset
  unitIds := (hunits.map _).nodup_iff.mpr h.unitIds
  edgeIds := (hedges.map _).nodup_iff.mpr h.edgeIds
  linked := by
    intro edge hedge
    obtain ⟨hproducer, hconsumer⟩ := h.linked edge (hedges.subset hedge)
    exact ⟨(hunits.map _).symm.subset hproducer, (hunits.map _).symm.subset hconsumer⟩
  signatures := (hedges.map _).nodup_iff.mpr h.signatures
  disjoint := (hunits.pairwise_iff fun hdisjoint => List.Disjoint.symm hdisjoint).mpr h.disjoint

def EdgeIdentity.revision : EdgeIdentity → ℤ
  | .compiled .. => 0
  | .revised _ revisionNumber .. => revisionNumber

def IdsUpTo (hashes : SemanticHashes) (revision : ℤ) (edges : List SemanticDependencyEdge) : Prop :=
  ∀ edge ∈ edges, ∃ identity : EdgeIdentity, identity.revision ≤ revision ∧
    edge.edgeId = "semantic_edge_" ++ hashes.edgeId identity

/-- A graph that the compiler has made. -/
inductive Compiled (hashes : SemanticHashes) (graph : SemanticExecutionGraph) : Prop
  | candidate (run : SemanticRun) (candidate : SemanticWorkDecompositionCandidate)
      (h : compileCandidate hashes run candidate = .ok graph)
  | structural (str : Json → String) (run : SemanticRun)
      (h : compileStructural hashes str run = .ok graph)

theorem WellFormedGraph.of_compiled {hashes : SemanticHashes} {context : CompilerContext}
    {units : List SemanticWorkUnitContract} {edges : List SemanticDependencyEdge}
    (hunitId : Function.Injective hashes.workUnitId) (hedgeId : Function.Injective hashes.edgeId)
    (hunits : CompiledUnits hashes context units) (hedges : CompiledEdges hashes context edges)
    (hacyclic : isAcyclicGraph units edges = true) : WellFormedGraph units edges where
  acyclic := (isAcyclicGraph_spec hacyclic).1
  unitIds := hunits.ids_nodup hunitId
  edgeIds := hedges.ids_nodup hedgeId
  linked := (isAcyclicGraph_spec hacyclic).2
  signatures := hedges.signatures
  disjoint := hunits.disjoint

theorem CompiledEdges.idsUpTo {hashes : SemanticHashes} {context : CompilerContext}
    {edges : List SemanticDependencyEdge} (h : CompiledEdges hashes context edges) :
    IdsUpTo hashes 0 edges :=
  fun edge hedge => ⟨_, le_rfl, h.ids edge hedge⟩

theorem Compiled.wellFormed {hashes : SemanticHashes} {graph : SemanticExecutionGraph}
    (hunitId : Function.Injective hashes.workUnitId) (hedgeId : Function.Injective hashes.edgeId)
    (h : Compiled hashes graph) :
    WellFormedGraph graph.workUnits graph.edges ∧ IdsUpTo hashes 0 graph.edges := by
  cases h with
  | candidate run candidate h =>
    obtain ⟨context, units, edges, hcontext, hunits, hedges, -, -, hacyclic, rfl⟩ :=
      compileCandidate_ok h
    obtain ⟨-, -, hnodup⟩ := compilerContext_ok hcontext
    have hcandidate := (CandidateUnits.nil hashes context).compileUnits hnodup hunits
    have hcompiled := CompiledEdges.nil.compileEdges hedges
    exact ⟨.of_compiled hunitId hedgeId hcandidate.shared hcompiled hacyclic, hcompiled.idsUpTo⟩
  | structural str run h =>
    obtain ⟨context, units, edges, hcontext, hunits, hedges, hacyclic, hgraph, hparts⟩ :=
      compileStructural_ok h
    obtain ⟨-, -, hnodup⟩ := compilerContext_ok hcontext
    have hcompiled := CompiledEdges.nil.dependencyEdges hedges
    rw [hgraph, hparts]
    exact ⟨.of_compiled hunitId hedgeId (structuralUnits_ok hnodup hunits).1 hcompiled hacyclic,
      hcompiled.idsUpTo⟩

section Prepare

variable {hashes : SemanticHashes} {parent : SemanticExecutionGraph}
  {vocabulary : TaskSemanticVocabulary} {proposal : SemanticGraphRevisionProposal}

/-- Edges that a revision adds to those that stay. -/
structure AddedEdges (hashes : SemanticHashes) (parent : SemanticExecutionGraph)
    (proposal : SemanticGraphRevisionProposal) (existing : List SemanticDependencyEdge)
    (added : KeyedEdges) : Prop where
  keys : (added.map Prod.fst).Nodup
  ids : ∀ entry ∈ added, entry.2.edgeId = "semantic_edge_" ++ hashes.edgeId (.revised
    parent.authoritySha256 proposal.revisionNumber entry.1 entry.2.producerWorkUnitId
    entry.2.consumerWorkUnitId entry.2.relation entry.2.required)
  signatures : ((existing ++ added.map Prod.snd).map (·.signature)).Nodup

theorem materializeEdge_id {existing : Table String SemanticWorkUnitContract}
    {added : KeyedUnits} {addition : EdgeAddition} {edge : SemanticDependencyEdge}
    (h : materializeEdge hashes parent proposal existing added addition = .ok edge) :
    edge.edgeId = "semantic_edge_" ++ hashes.edgeId (.revised parent.authoritySha256
      proposal.revisionNumber addition.additionKey edge.producerWorkUnitId
      edge.consumerWorkUnitId edge.relation edge.required) := by
  unfold materializeEdge at h
  split at h
  · rw [demand_bind_ok_iff] at h
    obtain ⟨-, h⟩ := h
    rw [← Except.ok.inj h]
  · cases h

theorem AddedEdges.addEdges {existingUnits : Table String SemanticWorkUnitContract}
    {units : KeyedUnits} {existing : List SemanticDependencyEdge} {additions : List EdgeAddition}
    {added added' : KeyedEdges} (h : AddedEdges hashes parent proposal existing added)
    (hadd : addEdges hashes parent proposal existingUnits units existing added additions =
      .ok added') : AddedEdges hashes parent proposal existing added' := by
  induction additions generalizing added with
  | nil => exact Except.ok.inj hadd ▸ h
  | cons addition rest ih =>
    rw [Semantics.addEdges, demand_bind_ok_iff, value_bind_ok_iff] at hadd
    obtain ⟨⟨-, hkey⟩, edge, hedge, hadd⟩ := hadd
    rw [demand_bind_ok_iff] at hadd
    obtain ⟨hsignature, hadd⟩ := hadd
    refine ih ⟨?_, ?_, ?_⟩ hadd
    · rw [map_append]
      exact nodup_concat_iff.mpr ⟨hkey, h.keys⟩
    · intro entry hentry
      rcases mem_append.mp hentry with hentry | hentry
      · exact h.ids entry hentry
      · rw [mem_singleton.mp hentry]
        exact materializeEdge_id hedge
    · have hvalues : (added ++ [(addition.additionKey, edge)]).map Prod.snd =
          added.map Prod.snd ++ [edge] := map_append
      rw [hvalues, ← append_assoc, map_append]
      exact nodup_concat_iff.mpr ⟨hsignature, h.signatures⟩

theorem AddedEdges.ids_nodup {existing : List SemanticDependencyEdge} {added : KeyedEdges}
    (h : AddedEdges hashes parent proposal existing added)
    (hinj : Function.Injective hashes.edgeId) :
    ((added.map Prod.snd).map (·.edgeId)).Nodup := by
  rw [map_map, nodup_iff_pairwise_ne, pairwise_map]
  have hkeys := pairwise_map.mp (nodup_iff_pairwise_ne.mp h.keys)
  refine hkeys.imp_of_mem ?_
  intro a b ha hb hne heq
  simp only [Function.comp_apply] at heq
  rw [h.ids a ha, h.ids b hb, String.append_right_inj] at heq
  injection hinj heq with _ _ hkey
  exact hne hkey

theorem addUnits_ok {additions : List WorkUnitAddition} {added added' : KeyedUnits}
    (h : addUnits hashes parent vocabulary proposal added additions = .ok added') :
    added'.map Prod.snd =
      added.map Prod.snd ++ additions.map (materializeWorkUnit hashes parent proposal) := by
  induction additions generalizing added with
  | nil => rw [← Except.ok.inj h, map_nil, append_nil]
  | cons addition rest ih =>
    rw [addUnits, demand_bind_ok_iff, checks_bind_ok_iff] at h
    rw [ih h.2.2, map_append, append_assoc]
    rfl

/-- What an accepted proposal makes of a graph whose ids are distinct. -/
structure Prepares (hashes : SemanticHashes) (parent : SemanticExecutionGraph)
    (proposal : SemanticGraphRevisionProposal) (prepared : PreparedRevision) : Prop where
  units : prepared.finalUnits = parent.workUnits.filter
    (fun unit => unit.workUnitId ∉ proposal.removeWorkUnitIds) ++ prepared.addedUnits
  additions : prepared.addedUnits =
    proposal.addWorkUnits.map (materializeWorkUnit hashes parent proposal)
  edges : prepared.finalEdges = parent.edges.filter
    (fun edge => edge.edgeId ∉ proposal.removeEdgeIds) ++ prepared.addedEdges
  unitIds : (prepared.finalUnits.map (·.workUnitId)).Nodup
  disjoint : prepared.finalUnits.Pairwise fun a b => a.sourceStepIds.Disjoint b.sourceStepIds
  acyclic : isAcyclicRevision prepared.finalUnits prepared.finalEdges = true
  added : ∃ added : KeyedEdges, prepared.addedEdges = added.map Prod.snd ∧
    AddedEdges hashes parent proposal (parent.edges.filter
      fun edge => edge.edgeId ∉ proposal.removeEdgeIds) added

theorem prepareRevision_ok {prepared : PreparedRevision}
    (hparent : WellFormedGraph parent.workUnits parent.edges)
    (h : prepareRevision hashes parent vocabulary proposal = .ok prepared) :
    Prepares hashes parent proposal prepared := by
  have hremaining : ((Table.ofItems (·.workUnitId) parent.workUnits).keep
      fun unitId => unitId ∉ proposal.removeWorkUnitIds).values =
      parent.workUnits.filter fun unit => unit.workUnitId ∉ proposal.removeWorkUnitIds := by
    rw [(keyed_ofItems _ _).values_keep, values_ofItems hparent.unitIds]
  have hexisting : ((Table.ofItems (·.edgeId) parent.edges).keep
      fun edgeId => edgeId ∉ proposal.removeEdgeIds).values =
      parent.edges.filter fun edge => edge.edgeId ∉ proposal.removeEdgeIds := by
    rw [(keyed_ofItems _ _).values_keep, values_ofItems hparent.edgeIds]
  simp only [prepareRevision, demand_bind_ok_iff] at h
  obtain ⟨-, -, -, -, -, h⟩ := h
  rw [value_bind_ok_iff] at h
  obtain ⟨added, hunits, h⟩ := h
  simp only [demand_bind_ok_iff] at h
  obtain ⟨hlength, hsteps, h⟩ := h
  rw [value_bind_ok_iff] at h
  obtain ⟨addedEdges, hadded, h⟩ := h
  rw [demand_bind_ok_iff] at h
  obtain ⟨hacyclic, h⟩ := h
  obtain rfl := Except.ok.inj h
  rw [hexisting] at hadded
  have hnone : AddedEdges hashes parent proposal (parent.edges.filter
      fun edge => edge.edgeId ∉ proposal.removeEdgeIds) [] := by
    refine ⟨nodup_nil, by simp, ?_⟩
    rw [map_nil, append_nil]
    exact hparent.signatures.sublist (List.filter_sublist.map _)
  refine ⟨?_, addUnits_ok hunits, ?_, ?_, ?_, hacyclic, addedEdges, rfl, hnone.addEdges hadded⟩
  · rw [← hremaining]
    exact values_insertAll_of_length (by rw [hlength, length_map])
  · exact congrArg (· ++ addedEdges.map Prod.snd) hexisting
  · exact (((keyed_ofItems _ _).keep _).insertAll _).values_nodup
  · exact (nodup_flatMap.mp hsteps).2

/-- A prepared revision of a well formed graph is well formed. -/
theorem Prepares.wellFormed {prepared : PreparedRevision} {number : ℤ}
    (h : Prepares hashes parent proposal prepared) (hinj : Function.Injective hashes.edgeId)
    (hparent : WellFormedGraph parent.workUnits parent.edges)
    (hids : IdsUpTo hashes number parent.edges) (hnumber : proposal.revisionNumber = number + 1) :
    WellFormedGraph prepared.finalUnits prepared.finalEdges ∧
      IdsUpTo hashes (number + 1) prepared.finalEdges := by
  obtain ⟨added, haddedEdges, hadded⟩ := h.added
  have hold : IdsUpTo hashes number (parent.edges.filter
      fun edge => edge.edgeId ∉ proposal.removeEdgeIds) :=
    fun edge hedge => hids edge (mem_of_mem_filter hedge)
  have hnew : ∀ edge ∈ prepared.addedEdges, ∃ identity : EdgeIdentity,
      identity.revision = number + 1 ∧
        edge.edgeId = "semantic_edge_" ++ hashes.edgeId identity := by
    intro edge hedge
    rw [haddedEdges] at hedge
    obtain ⟨entry, hentry, rfl⟩ := mem_map.mp hedge
    exact ⟨.revised parent.authoritySha256 proposal.revisionNumber entry.1 _ _ _ _, hnumber,
      hadded.ids entry hentry⟩
  refine ⟨⟨(isAcyclicGraph_spec h.acyclic).1, h.unitIds, ?_, (isAcyclicGraph_spec h.acyclic).2, ?_,
    h.disjoint⟩, ?_⟩
  · rw [h.edges, map_append]
    refine List.nodup_append.mpr ⟨hparent.edgeIds.sublist (List.filter_sublist.map _), ?_, ?_⟩
    · rw [haddedEdges]
      exact hadded.ids_nodup hinj
    · -- an edge that stays was named in an earlier revision
      intro oldId holdId newId hnewId heq
      obtain ⟨old, holdEdge, rfl⟩ := mem_map.mp holdId
      obtain ⟨new, hnewEdge, rfl⟩ := mem_map.mp hnewId
      obtain ⟨oldIdentity, hle, holdName⟩ := hold old holdEdge
      obtain ⟨newIdentity, hrevision, hnewName⟩ := hnew new hnewEdge
      rw [holdName, hnewName, String.append_right_inj] at heq
      rw [hinj heq] at hle
      omega
  · rw [h.edges, haddedEdges]
    exact hadded.signatures
  · intro edge hedge
    rw [h.edges] at hedge
    rcases mem_append.mp hedge with hedge | hedge
    · obtain ⟨identity, hle, hname⟩ := hold edge hedge
      exact ⟨identity, by omega, hname⟩
    · obtain ⟨identity, hrevision, hname⟩ := hnew edge hedge
      exact ⟨identity, hrevision.le, hname⟩

theorem buildChild_perm (hashes : SemanticHashes) (parent : SemanticExecutionGraph)
    (proposal : SemanticGraphRevisionProposal) (prepared : PreparedRevision) :
    (buildChild hashes parent proposal prepared).workUnits.Perm prepared.finalUnits ∧
      (buildChild hashes parent proposal prepared).edges.Perm prepared.finalEdges :=
  ⟨perm_insertionSort _ _, perm_insertionSort _ _⟩

theorem applyRevision_applied {plan : SemanticPlan} {revision : SemanticGraphRevision}
    {child : SemanticExecutionGraph} (h : applyRevision hashes plan proposal =
      { status := .applied, revision := some revision, childGraph := some child }) :
    ∃ parent vocabulary prepared, plan.semanticExecutionGraph = some parent ∧
      checkProposal plan parent proposal = .ok () ∧
      prepareRevision hashes parent vocabulary proposal = .ok prepared ∧
      child = buildChild hashes parent proposal prepared ∧
      revision = buildRevision hashes parent child proposal prepared := by
  unfold applyRevision at h
  split at h
  · cases h
  rename_i parent vocabulary hparent
  split at h
  · cases h
  rename_i hcheck
  split at h
  · cases h
  rename_i prepared hprepared
  simp only [SemanticGraphRevisionApplication.mk.injEq, Option.some.injEq, true_and, and_true]
    at h
  obtain ⟨hrevision, rfl⟩ := h
  refine ⟨parent, vocabulary, prepared, ?_, hcheck, hprepared, rfl, hrevision.symm⟩
  unfold revisionParent at hparent
  split at hparent
  · cases hparent
  rename_i graph hgraph
  rw [demand_bind_ok_iff] at hparent
  obtain ⟨-, hparent⟩ := hparent
  split at hparent
  · cases hparent
  simp only [demand_bind_ok_iff, Except.ok.injEq, Prod.mk.injEq] at hparent
  rw [hgraph, hparent.2.2.1]

end Prepare

/-- Revisions that lead from one graph to another: their numbers go up from a first one,
and the parent of each is the revision before it and its child. -/
def Linked (parentRevisionId : Option String) (number : ℤ) (graph last : String × String) :
    List SemanticGraphRevision → Prop
  | [] => last = graph
  | revision :: rest =>
    revision.revisionNumber = number ∧ revision.parentRevisionId = parentRevisionId ∧
      (revision.parentGraphId, revision.parentGraphAuthoritySha256) = graph ∧
        Linked (some revision.revisionId) (number + 1)
          (revision.childGraphId, revision.childGraphAuthoritySha256) last rest

section

variable {parentRevisionId : Option String} {number : ℤ} {graph last : String × String}
  {revisions : List SemanticGraphRevision}

theorem Linked.concat (h : Linked parentRevisionId number graph last revisions)
    {revision : SemanticGraphRevision}
    (hnumber : revision.revisionNumber = number + revisions.length)
    (hparent : revision.parentRevisionId =
      ((revisions.getLast?.map (·.revisionId)).or parentRevisionId))
    (hgraph : (revision.parentGraphId, revision.parentGraphAuthoritySha256) = last) :
    Linked parentRevisionId number graph
      (revision.childGraphId, revision.childGraphAuthoritySha256) (revisions ++ [revision]) := by
  induction revisions generalizing parentRevisionId number graph with
  | nil =>
    refine ⟨by simpa using hnumber, by simpa using hparent, ?_, rfl⟩
    rw [hgraph]
    exact h
  | cons first rest ih =>
    obtain ⟨hfirst, hfirstParent, hfirstGraph, hrest⟩ := h
    refine ⟨hfirst, hfirstParent, hfirstGraph, ih hrest ?_ ?_⟩
    · rw [hnumber, length_cons]
      push_cast
      omega
    · rw [hparent, getLast?_cons]
      cases rest.getLast? <;> rfl

theorem Linked.getLast?_revisionNumber (h : Linked parentRevisionId number graph last revisions)
    {revision : SemanticGraphRevision}
    (hlast : revisions.getLast? = some revision) :
    revision.revisionNumber + 1 = number + revisions.length := by
  induction revisions generalizing parentRevisionId number graph with
  | nil => cases hlast
  | cons first rest ih =>
    obtain ⟨hfirst, -, -, hrest⟩ := h
    rw [getLast?_cons] at hlast
    cases hend : rest.getLast? with
    | none =>
      rw [hend] at hlast
      rw [getLast?_eq_none_iff.mp hend]
      obtain rfl : first = revision := by simpa using hlast
      simp [hfirst]
    | some other =>
      rw [hend] at hlast
      obtain rfl : other = revision := by simpa using hlast
      have hnumber := ih hrest hend
      rw [length_cons]
      push_cast
      omega

end

theorem Linked.nextRevision {plan : SemanticPlan} {graph last : String × String}
    (h : Linked none 1 graph last plan.semanticGraphRevisions) :
    plan.nextRevision = (1 + (plan.semanticGraphRevisions.length : ℤ),
      plan.semanticGraphRevisions.getLast?.map (·.revisionId)) := by
  unfold SemanticPlan.nextRevision
  cases hlast : plan.semanticGraphRevisions.getLast? with
  | none =>
    rw [getLast?_eq_none_iff.mp hlast]
    rfl
  | some revision =>
    rw [← h.getLast?_revisionNumber hlast]
    rfl

/-- A plan whose revisions lead from a first graph to its graph, which is well formed. -/
structure Sound (hashes : SemanticHashes) (first : String × String) (plan : SemanticPlan)
    (graph : SemanticExecutionGraph) : Prop where
  current : plan.semanticExecutionGraph = some graph
  wellFormed : WellFormedGraph graph.workUnits graph.edges
  ids : IdsUpTo hashes plan.semanticGraphRevisions.length graph.edges
  linked : Linked none 1 first graph.ref plan.semanticGraphRevisions

theorem Compiled.sound {hashes : SemanticHashes} {graph : SemanticExecutionGraph}
    (h : Compiled hashes graph) (hunitId : Function.Injective hashes.workUnitId)
    (hedgeId : Function.Injective hashes.edgeId) {plan : SemanticPlan}
    (hgraph : plan.semanticExecutionGraph = some graph)
    (hnone : plan.semanticGraphRevisions = []) : Sound hashes graph.ref plan graph := by
  obtain ⟨hwellFormed, hids⟩ := h.wellFormed hunitId hedgeId
  refine ⟨hgraph, hwellFormed, ?_, ?_⟩
  · rw [hnone]
    exact hids
  · rw [hnone]
    rfl

theorem Sound.revised {hashes : SemanticHashes} (hinj : Function.Injective hashes.edgeId)
    {first : String × String} {plan : SemanticPlan} {parent child : SemanticExecutionGraph}
    (hplan : Sound hashes first plan parent) {proposal : SemanticGraphRevisionProposal}
    {revision : SemanticGraphRevision} (happlied : applyRevision hashes plan proposal =
      { status := .applied, revision := some revision, childGraph := some child }) :
    Sound hashes first (plan.revised revision child) child := by
  obtain ⟨graph, vocabulary, prepared, hgraph, hcheck, hprepare, hchild, hrevision⟩ :=
    applyRevision_applied happlied
  obtain rfl : graph = parent := Option.some.inj (hgraph.symm.trans hplan.current)
  simp only [checkProposal, demand_bind_ok_iff] at hcheck
  obtain ⟨⟨hparentId, hparentSha⟩, -, hnumber, hparentRevision, -⟩ := hcheck
  rw [hplan.linked.nextRevision] at hnumber hparentRevision
  have hprepares := prepareRevision_ok hplan.wellFormed hprepare
  obtain ⟨hwellFormed, hids⟩ := hprepares.wellFormed hinj hplan.wellFormed hplan.ids
    (by rw [hnumber, add_comm])
  obtain ⟨hunits, hedges⟩ := buildChild_perm hashes graph proposal prepared
  rw [← hchild] at hunits hedges
  refine ⟨rfl, hwellFormed.perm hunits hedges, ?_, ?_⟩
  · intro edge hedge
    rw [SemanticPlan.revised, length_append, length_singleton]
    push_cast
    exact hids edge (hedges.subset hedge)
  · have hnext : revision.revisionNumber = 1 + plan.semanticGraphRevisions.length ∧
        revision.parentRevisionId = plan.semanticGraphRevisions.getLast?.map (·.revisionId) ∧
        (revision.parentGraphId, revision.parentGraphAuthoritySha256) = graph.ref ∧
        (revision.childGraphId, revision.childGraphAuthoritySha256) = child.ref := by
      rw [hrevision]
      exact ⟨hnumber, hparentRevision, rfl, rfl⟩
    obtain ⟨hnext, hnextParent, hnextGraph, hnextChild⟩ := hnext
    rw [← hnextChild]
    exact hplan.linked.concat hnext (hnextParent.trans (Option.or_none).symm) hnextGraph

theorem Sound.revisions {hashes : SemanticHashes} (hinj : Function.Injective hashes.edgeId)
    {first : String × String} {plan last : SemanticPlan} {calls : List RevisionCall}
    (h : Revisions hashes plan calls last)
    {graph : SemanticExecutionGraph} (hplan : Sound hashes first plan graph) :
    ∃ final, Sound hashes first last final := by
  induction h generalizing graph with
  | nil plan => exact ⟨graph, hplan⟩
  | cons _ happlied _ ih => exact ih (hplan.revised hinj happlied)

theorem Revisions.length {hashes : SemanticHashes} {plan last : SemanticPlan}
    {calls : List RevisionCall} (h : Revisions hashes plan calls last) :
    last.semanticGraphRevisions.length = plan.semanticGraphRevisions.length + calls.length := by
  induction h with
  | nil plan => rfl
  | cons _ _ _ ih =>
    rw [ih, SemanticPlan.revised, length_append, length_singleton, length_cons]
    omega

/-- Unless the hashes have collisions, every chain of revisions that is applied to a
compiled graph ends with a well-formed graph, and the revisions are numbered 1, 2, 3, …
and linked to their parents. -/
theorem revisions_wellFormed {hashes : SemanticHashes}
    (hunitId : Function.Injective hashes.workUnitId) (hedgeId : Function.Injective hashes.edgeId)
    {graph : SemanticExecutionGraph} (hcompiled : Compiled hashes graph)
    {plan last : SemanticPlan} (hgraph : plan.semanticExecutionGraph = some graph)
    (hnone : plan.semanticGraphRevisions = [])
    {calls : List RevisionCall} (h : Revisions hashes plan calls last) :
    ∃ final, last.semanticExecutionGraph = some final ∧
      WellFormedGraph final.workUnits final.edges ∧
      last.semanticGraphRevisions.length = calls.length ∧
      Linked none 1 graph.ref final.ref last.semanticGraphRevisions := by
  have hplan := hcompiled.sound hunitId hedgeId hgraph hnone
  obtain ⟨final, hfinal⟩ := Sound.revisions hedgeId h hplan
  have hlength := h.length
  rw [hnone, length_nil, Nat.zero_add] at hlength
  exact ⟨final, hfinal.current, hfinal.wellFormed, hlength, hfinal.linked⟩

deriving instance Countable for SemanticEdgeRelation
deriving instance Countable for ClassificationStatus
deriving instance Countable for WorkUnitAddition
deriving instance Countable, DecidableEq for WorkUnitIdentity
deriving instance Countable, DecidableEq for EdgeIdentity

def planWith (steps : List CanonicalExecutionStep) (graph : SemanticExecutionGraph) :
    SemanticPlan :=
  { (smallRun steps).plan with semanticExecutionGraph := some graph }

theorem revisions_of_childGraph {hashes : SemanticHashes} {plan : SemanticPlan}
    {parent child : SemanticExecutionGraph} {proposal : SemanticGraphRevisionProposal}
    (hparent : plan.semanticExecutionGraph = some parent)
    (h : (applyRevision hashes plan proposal).childGraph = some child) :
    ∃ last, Revisions hashes plan [⟨parent, proposal⟩] last ∧
      last.semanticExecutionGraph = some child := by
  have happlied : ∃ revision, applyRevision hashes plan proposal =
      { status := .applied, revision := some revision, childGraph := some child } := by
    unfold applyRevision at h ⊢
    split at h
    · cases h
    split at h
    · cases h
    split at h
    · cases h
    obtain rfl := Option.some.inj h
    exact ⟨_, rfl⟩
  obtain ⟨revision, happlied⟩ := happlied
  exact ⟨_, @Revisions.cons _ _ _ ⟨parent, proposal⟩ _ _ _ hparent happlied (.nil _), rfl⟩

/-- A plan to read, write and report. -/
def threeSteps : List CanonicalExecutionStep :=
  [{ stepId := "read" }, { stepId := "write", dependsOn := ["read"] },
    { stepId := "report", dependsOn := ["write"] }]

def summaryUnit : WorkUnitAddition where
  additionKey := "summary"
  sourceStepIds := ["report"]
  semanticGoal := "summarise"

/-- The unit of the report is replaced by a new one, with a new edge to it. -/
def replan (graph : SemanticExecutionGraph) : SemanticGraphRevisionProposal where
  proposalId := "proposal"
  parentGraphId := graph.semanticGraphId
  parentGraphAuthoritySha256 := graph.authoritySha256
  revisionNumber := 1
  reason := "replanned"
  provenance := [("source", .str "user")]
  addWorkUnits := [summaryUnit]
  addEdges :=
    [⟨"summarised", "semantic_work_unit_write", "addition:summary", .orderingConstraint, true, []⟩]
  removeEdgeIds := ["semantic_edge_reported"]
  removeWorkUnitIds := ["semantic_work_unit_report"]

def unitNames : List (WorkUnitIdentity × String) :=
  ["read", "write", "report"].map (fun stepId =>
      (.compiled "run" "vocabulary" [stepId], stepId)) ++
    [(.revised "graph" 1 summaryUnit, "summary")]

def edgeNames : List (EdgeIdentity × String) :=
  [(.compiled "run" "semantic_work_unit_read" "semantic_work_unit_write" .orderingConstraint,
      "written"),
    (.compiled "run" "semantic_work_unit_write" "semantic_work_unit_report" .orderingConstraint,
      "reported"),
    (.revised "graph" 1 "summarised" "semantic_work_unit_write" "semantic_work_unit_summary"
      .orderingConstraint true, "summarised")]

theorem exists_unitId : ∃ other : WorkUnitIdentity → String,
    Function.Injective fun identity => (unitNames.lookup identity).getD (other identity) :=
  exists_names_extending (by decide)

theorem exists_edgeId : ∃ other : EdgeIdentity → String,
    Function.Injective fun identity => (edgeNames.lookup identity).getD (other identity) :=
  exists_names_extending (by decide)

/-- Hashes without collisions that give the units and edges of the plan and of its revision
these names. -/
noncomputable def namedHashes : SemanticHashes :=
  { plainHashes with
    graph := fun _ => "graph"
    workUnitId := fun identity => (unitNames.lookup identity).getD (exists_unitId.choose identity)
    edgeId := fun identity => (edgeNames.lookup identity).getD (exists_edgeId.choose identity) }

theorem exists_replan : ∃ graph last,
    compileStructural namedHashes (fun _ => "") (smallRun threeSteps) = .ok graph ∧
      Revisions namedHashes (planWith threeSteps graph) [⟨graph, replan graph⟩] last := by
  have hchild : ((compileStructural namedHashes (fun _ => "") (smallRun threeSteps)).toOption.bind
      fun graph => (applyRevision namedHashes (planWith threeSteps graph)
        (replan graph)).childGraph).map (fun child => child.workUnits.map (·.workUnitId)) =
      some ["semantic_work_unit_read", "semantic_work_unit_summary",
        "semantic_work_unit_write"] := by
    decide +kernel
  cases hcompile : compileStructural namedHashes (fun _ => "") (smallRun threeSteps) with
  | error reason =>
    rw [hcompile] at hchild
    cases hchild
  | ok graph =>
    rw [hcompile] at hchild
    obtain ⟨child, happlied, -⟩ := Option.map_eq_some_iff.mp hchild
    obtain ⟨last, hchain, -⟩ := revisions_of_childGraph rfl happlied
    exact ⟨graph, last, rfl, hchain⟩

/-- What is left when a unit is replaced is well formed. -/
theorem replan_wellFormed : ∃ (hashes : SemanticHashes) (graph : SemanticExecutionGraph)
    (plan last : SemanticPlan), Revisions hashes plan [⟨graph, replan graph⟩] last ∧
      ∃ final, last.semanticExecutionGraph = some final ∧
        WellFormedGraph final.workUnits final.edges ∧ last.semanticGraphRevisions.length = 1 ∧
        Linked none 1 graph.ref final.ref last.semanticGraphRevisions := by
  obtain ⟨graph, last, hcompile, hchain⟩ := exists_replan
  exact ⟨_, graph, _, last, hchain, revisions_wellFormed exists_unitId.choose_spec
    exists_edgeId.choose_spec (.structural _ _ hcompile) rfl rfl hchain⟩

end AIpinho.Semantics
