import AIpinho.Semantics.CompletionTruth
import AIpinho.Semantics.Faithfulness
import Mathlib.Data.List.Find

/-!
# The evidence behind a semantic success

A success is safe to report if the contracts are bound to the graph and admit every required
edge and every join. It is not asked whether the demand and the offer that a compatibility names
belong to its edge.
-/

namespace AIpinho.Semantics

open List Lib
open AIpinho.Runtime (isSpace)

/-- A demand has its own hash and names the graph and the ends of its edge in it. -/
structure DemandBound (hashes : SemanticHashes) (graph : SemanticExecutionGraph)
    (demand : EdgeSemanticDemand) : Prop where
  hash : demand.authoritySha256 = hashes.demand demand.toDemandContent
  graphId : demand.semanticGraphId = graph.semanticGraphId
  graphSha256 : demand.semanticGraphAuthoritySha256 = graph.authoritySha256
  ends : ∃ edge, graph.edge? demand.edgeId = some edge ∧
    demand.producerWorkUnitId = edge.producerWorkUnitId ∧
    demand.consumerWorkUnitId = edge.consumerWorkUnitId

/-- An offer has its own hash and names the graph. -/
structure OfferBound (hashes : SemanticHashes) (graph : SemanticExecutionGraph)
    (offer : SemanticOffer) : Prop where
  hash : offer.authoritySha256 = hashes.offer offer.toOfferContent
  graphId : offer.semanticGraphId = graph.semanticGraphId
  graphSha256 : offer.semanticGraphAuthoritySha256 = graph.authoritySha256

/-- A compatibility has its own hash, names the graph and the ends of its edge in it, and has the
hashes of the first demand and of the last offer with the ids that it names. -/
structure CompatibilityBound (hashes : SemanticHashes) (graph : SemanticExecutionGraph)
    (contracts : GraphContracts) (compatibility : OfferDemandCompatibility) : Prop where
  hash : compatibility.authoritySha256 =
    hashes.compatibility compatibility.toCompatibilityContent
  graphId : compatibility.semanticGraphId = graph.semanticGraphId
  graphSha256 : compatibility.semanticGraphAuthoritySha256 = graph.authoritySha256
  ends : ∃ edge, graph.edge? compatibility.edgeId = some edge ∧
    compatibility.producerWorkUnitId = edge.producerWorkUnitId ∧
    compatibility.consumerWorkUnitId = edge.consumerWorkUnitId
  demand : ∃ demand, contracts.edgeSemanticDemands.find? (fun demand =>
      demand.demandId = compatibility.demandId) = some demand ∧
    compatibility.demandAuthoritySha256 = demand.authoritySha256
  offer : ∃ offer, contracts.semanticOffers.reverse.find? (fun offer =>
      offer.offerId = compatibility.offerId) = some offer ∧
    compatibility.offerAuthoritySha256 = offer.authoritySha256

/-- A join has its own hash and names the graph. -/
structure JoinBound (hashes : SemanticHashes) (graph : SemanticExecutionGraph)
    (join : SemanticJoinEvaluation) : Prop where
  hash : join.authoritySha256 = hashes.join join.toJoinContent
  graphId : join.semanticGraphId = graph.semanticGraphId
  graphSha256 : join.semanticGraphAuthoritySha256 = graph.authoritySha256

/-- Contracts that are bound to a graph, one for each edge or unit. -/
structure ContractsBound (hashes : SemanticHashes) (graph : SemanticExecutionGraph)
    (contracts : GraphContracts) : Prop where
  demandEdges : (contracts.edgeSemanticDemands.map (·.edgeId)).Nodup
  offerUnits : (contracts.semanticOffers.map (·.producerWorkUnitId)).Nodup
  compatibilityEdges : (contracts.offerDemandCompatibilities.map (·.edgeId)).Nodup
  joinUnits : (contracts.semanticJoinEvaluations.map (·.consumerWorkUnitId)).Nodup
  demands : ∀ demand ∈ contracts.edgeSemanticDemands, DemandBound hashes graph demand
  offers : ∀ offer ∈ contracts.semanticOffers, OfferBound hashes graph offer
  compatibilities : ∀ compatibility ∈ contracts.offerDemandCompatibilities,
    CompatibilityBound hashes graph contracts compatibility
  joins : ∀ join ∈ contracts.semanticJoinEvaluations, JoinBound hashes graph join

section Contracts

variable {hashes : SemanticHashes} {graph : SemanticExecutionGraph} {contracts : GraphContracts}

theorem demandFault_eq_none_iff {demand : EdgeSemanticDemand} :
    demandFault hashes graph demand = none ↔ DemandBound hashes graph demand := by
  unfold demandFault
  by_cases hhash : demand.authoritySha256 = hashes.demand demand.toDemandContent
  · rw [if_neg (not_not.mpr hhash)]
    cases hedge : graph.edge? demand.edgeId with
    | none =>
      refine iff_of_false (by simp) fun h => ?_
      obtain ⟨edge, hsome, -⟩ := h.ends
      rw [hedge] at hsome
      cases hsome
    | some edge =>
      simp only [ite_eq_left_iff, reduceCtorEq, imp_false, not_not]
      constructor
      · rintro ⟨hid, hsha, hproducer, hconsumer⟩
        exact ⟨hhash, hid, hsha, edge, hedge, hproducer, hconsumer⟩
      · intro h
        obtain ⟨edge', hsome, hproducer, hconsumer⟩ := h.ends
        obtain rfl := Option.some.inj (hedge.symm.trans hsome)
        exact ⟨h.graphId, h.graphSha256, hproducer, hconsumer⟩
  · rw [if_pos hhash]
    exact iff_of_false (by simp) fun h => hhash h.hash

theorem offerFault_eq_none_iff {offer : SemanticOffer} :
    offerFault hashes graph offer = none ↔ OfferBound hashes graph offer := by
  unfold offerFault
  split
  · rename_i hhash
    exact iff_of_false (by simp) fun h => hhash h.hash
  rename_i hhash
  split
  · rename_i hgraph
    exact iff_of_true rfl ⟨not_not.mp hhash, hgraph.1, hgraph.2⟩
  · rename_i hgraph
    exact iff_of_false (by simp) fun h => hgraph ⟨h.graphId, h.graphSha256⟩

theorem joinFault_eq_none_iff {join : SemanticJoinEvaluation} :
    joinFault hashes graph join = none ↔ JoinBound hashes graph join := by
  unfold joinFault
  split
  · rename_i hhash
    exact iff_of_false (by simp) fun h => hhash h.hash
  rename_i hhash
  split
  · rename_i hgraph
    exact iff_of_true rfl ⟨not_not.mp hhash, hgraph.1, hgraph.2⟩
  · rename_i hgraph
    exact iff_of_false (by simp) fun h => hgraph ⟨h.graphId, h.graphSha256⟩

/-- Where all offers are in order, the offer with an id is the last one that has it. -/
theorem offerById?_eq
    (hoffers : ∀ offer ∈ contracts.semanticOffers, offerFault hashes graph offer = none)
    (offerId : String) : offerById? hashes graph contracts offerId =
      contracts.semanticOffers.reverse.find? fun offer => offer.offerId = offerId := by
  refine find?_congr fun offer hoffer => ?_
  rw [hoffers offer (mem_reverse.mp hoffer)]
  simp

theorem compatibilityFault_eq_none_iff
    (hoffers : ∀ offer ∈ contracts.semanticOffers, OfferBound hashes graph offer)
    {compatibility : OfferDemandCompatibility} :
    compatibilityFault hashes graph contracts compatibility = none ↔
      CompatibilityBound hashes graph contracts compatibility := by
  unfold compatibilityFault
  rw [offerById?_eq fun offer hoffer => offerFault_eq_none_iff.mpr (hoffers offer hoffer)]
  constructor
  · intro h
    split at h
    · cases h
    rename_i hhash
    split at h
    · rename_i edge demand offer hedge hdemand hoffer
      split at h
      · rename_i hbound
        obtain ⟨hid, hsha, hproducer, hconsumer, hdemandSha, hofferSha⟩ := hbound
        exact ⟨not_not.mp hhash, hid, hsha, ⟨edge, hedge, hproducer, hconsumer⟩,
          ⟨demand, hdemand, hdemandSha⟩, ⟨offer, hoffer, hofferSha⟩⟩
      · cases h
    · cases h
  · intro h
    obtain ⟨edge, hedge, hproducer, hconsumer⟩ := h.ends
    obtain ⟨demand, hdemand, hdemandSha⟩ := h.demand
    obtain ⟨offer, hoffer, hofferSha⟩ := h.offer
    rw [if_neg (not_not.mpr h.hash), hedge, hdemand, hoffer]
    exact if_pos ⟨h.graphId, h.graphSha256, hproducer, hconsumer, hdemandSha, hofferSha⟩

theorem invalidContracts_eq_nil_iff :
    invalidContracts hashes graph contracts = [] ↔ ContractsBound hashes graph contracts := by
  have hduplicate : ∀ (p : Prop) [Decidable p] (code : String),
      (if p then [] else [code]) = [] ↔ p := by
    intro p _ code
    split <;> simp_all
  simp only [invalidContracts, append_eq_nil_iff, hduplicate, filterMap_eq_nil_iff,
    demandFault_eq_none_iff, offerFault_eq_none_iff, joinFault_eq_none_iff]
  constructor
  · rintro ⟨⟨⟨⟨⟨⟨⟨h₁, h₂⟩, h₃⟩, h₄⟩, h₅⟩, hoffers⟩, h₇⟩, h₈⟩
    simp only [compatibilityFault_eq_none_iff hoffers] at h₇
    exact ⟨h₁, h₂, h₃, h₄, h₅, hoffers, h₇, h₈⟩
  · rintro ⟨h₁, h₂, h₃, h₄, h₅, hoffers, h₇, h₈⟩
    simp only [compatibilityFault_eq_none_iff hoffers]
    exact ⟨⟨⟨⟨⟨⟨⟨h₁, h₂⟩, h₃⟩, h₄⟩, h₅⟩, hoffers⟩, h₇⟩, h₈⟩

namespace ContractsBound

variable (h : ContractsBound hashes graph contracts)
include h

theorem demandOf?_eq_some_iff {edgeId : String} {demand : EdgeSemanticDemand} :
    demandOf? hashes graph contracts edgeId = some demand ↔
      demand ∈ contracts.edgeSemanticDemands ∧ demand.edgeId = edgeId :=
  find?_reverse_eq_some_iff h.demandEdges fun demand hdemand => by
    rw [demandFault_eq_none_iff.mpr (h.demands demand hdemand)]
    rfl

theorem compatibilityOf?_eq_some_iff {edgeId : String} {compatibility : OfferDemandCompatibility} :
    compatibilityOf? hashes graph contracts edgeId = some compatibility ↔
      compatibility ∈ contracts.offerDemandCompatibilities ∧ compatibility.edgeId = edgeId :=
  find?_reverse_eq_some_iff h.compatibilityEdges fun compatibility hmem => by
    rw [(compatibilityFault_eq_none_iff h.offers).mpr (h.compatibilities compatibility hmem)]
    rfl

theorem joinOf?_eq_some_iff {consumer : String} {join : SemanticJoinEvaluation} :
    joinOf? hashes graph contracts consumer = some join ↔
      join ∈ contracts.semanticJoinEvaluations ∧ join.consumerWorkUnitId = consumer :=
  find?_reverse_eq_some_iff h.joinUnits fun join hjoin => by
    rw [joinFault_eq_none_iff.mpr (h.joins join hjoin)]
    rfl

theorem edgeVerdict_eq_admitted_iff {edgeId : String} :
    edgeVerdict hashes graph contracts edgeId = .admitted ↔
      (∃ demand ∈ contracts.edgeSemanticDemands, demand.edgeId = edgeId ∧
        demand.isPartial = false) ∧
      ∃ compatibility ∈ contracts.offerDemandCompatibilities, compatibility.edgeId = edgeId ∧
        compatibility.decision = .admitted := by
  have hspec : edgeVerdict hashes graph contracts edgeId = .admitted ↔
      (∃ demand, demandOf? hashes graph contracts edgeId = some demand ∧ demand.isPartial = false) ∧
      ∃ compatibility, compatibilityOf? hashes graph contracts edgeId = some compatibility ∧
        compatibility.decision = .admitted := by
    unfold edgeVerdict
    cases demandOf? hashes graph contracts edgeId with
    | none => simp
    | some demand =>
      cases hknown : demand.isPartial with
      | true => simp [hknown]
      | false =>
        cases compatibilityOf? hashes graph contracts edgeId with
        | none => simp [hknown]
        | some compatibility =>
          cases hdecision : compatibility.decision <;> simp [hknown, hdecision]
  simp only [hspec, h.demandOf?_eq_some_iff, h.compatibilityOf?_eq_some_iff, and_assoc]

theorem joinVerdict_eq_admitted_iff {consumer : String} :
    joinVerdict hashes graph contracts consumer = .admitted ↔
      ∃ join ∈ contracts.semanticJoinEvaluations, join.consumerWorkUnitId = consumer ∧
        join.decision = .admitted ∧
        join.requiredEdgeIds.Perm (graph.incomingRequired consumer) := by
  have hspec : joinVerdict hashes graph contracts consumer = .admitted ↔
      ∃ join, joinOf? hashes graph contracts consumer = some join ∧ join.decision = .admitted ∧
        join.requiredEdgeIds.Perm (graph.incomingRequired consumer) := by
    unfold joinVerdict
    cases joinOf? hashes graph contracts consumer with
    | none => simp
    | some join =>
      by_cases hperm : join.requiredEdgeIds.Perm (graph.incomingRequired consumer)
      · have hsorted := insertionSort_eq_iff_perm.mpr hperm
        cases hdecision : join.decision <;> simp [hdecision, hperm, hsorted]
      · have hsorted := mt insertionSort_eq_iff_perm.mp hperm
        simp [hperm, hsorted]
  simp only [hspec, h.joinOf?_eq_some_iff, and_assoc]

end ContractsBound

theorem joinVerdict_ne_partialDemand (consumer : String) :
    joinVerdict hashes graph contracts consumer ≠ .partialDemand := by
  unfold joinVerdict
  cases joinOf? hashes graph contracts consumer with
  | none => simp
  | some join =>
    dsimp only
    split
    · simp
    · cases join.decision <;> simp

/-- The contracts are ready exactly if all required edges and joins are admitted. -/
theorem contractStatus_eq_ready_iff : (contractStatus hashes graph contracts).1 = .ready ↔
      (∀ edgeId ∈ graph.requiredEdges.map (·.edgeId),
        edgeVerdict hashes graph contracts edgeId = .admitted) ∧
      ∀ consumer ∈ graph.requiredJoinConsumers,
        joinVerdict hashes graph contracts consumer = .admitted := by
  have hready : (contractStatus hashes graph contracts).1 = .ready ↔
      (edgesWith hashes graph contracts [.blocked] = [] ∧
        edgesWith hashes graph contracts [.unresolved, .partialDemand] = [] ∧
        edgesWith hashes graph contracts [.partialDemand] = [] ∧
        edgesWith hashes graph contracts [.constrained] = []) ∧
      joinsWith hashes graph contracts .blocked = [] ∧
      joinsWith hashes graph contracts .unresolved = [] ∧
      joinsWith hashes graph contracts .constrained = [] := by
    unfold contractStatus
    split
    · simp; tauto
    split
    · simp; tauto
    split
    · simp; tauto
    · simp_all
  rw [hready]
  simp only [edgesWith, joinsWith, filter_eq_nil_iff, decide_eq_true_eq, mem_cons,
    not_mem_nil, or_false]
  refine and_congr ?_ ?_
  · constructor
    · rintro ⟨hblocked, hunresolved, -, hconstrained⟩ edgeId hedge
      have h₁ := hblocked edgeId hedge
      have h₂ := hunresolved edgeId hedge
      have h₃ := hconstrained edgeId hedge
      cases hverdict : edgeVerdict hashes graph contracts edgeId <;> simp_all
    · intro hadmitted
      refine ⟨?_, ?_, ?_, ?_⟩ <;> intro edgeId hedge <;> simp [hadmitted edgeId hedge]
  · constructor
    · rintro ⟨hblocked, hunresolved, hconstrained⟩ consumer hconsumer
      have h₁ := hblocked consumer hconsumer
      have h₂ := hunresolved consumer hconsumer
      have h₃ := hconstrained consumer hconsumer
      have h₄ := @joinVerdict_ne_partialDemand hashes graph contracts consumer
      cases hverdict : joinVerdict hashes graph contracts consumer <;> simp_all
    · intro hadmitted
      refine ⟨?_, ?_, ?_⟩ <;> intro consumer hconsumer <;> simp [hadmitted consumer hconsumer]

end Contracts

/-- Contracts that admit all required edges and all joins. -/
structure AllAdmitted (graph : SemanticExecutionGraph) (contracts : GraphContracts) : Prop where
  demands : ∀ edge ∈ graph.edges, edge.required = true →
    ∃ demand ∈ contracts.edgeSemanticDemands, demand.edgeId = edge.edgeId ∧
      demand.isPartial = false
  compatibilities : ∀ edge ∈ graph.edges, edge.required = true →
    ∃ compatibility ∈ contracts.offerDemandCompatibilities,
      compatibility.edgeId = edge.edgeId ∧ compatibility.decision = .admitted
  /-- Each unit with more than one required edge has an admitted join over them. -/
  joins : ∀ consumer, 1 < (graph.incomingRequired consumer).length →
    ∃ join ∈ contracts.semanticJoinEvaluations, join.consumerWorkUnitId = consumer ∧
      join.decision = .admitted ∧ join.requiredEdgeIds.Perm (graph.incomingRequired consumer)

variable {graph : SemanticExecutionGraph} {hashes : SemanticHashes}

theorem SemanticExecutionGraph.mem_requiredEdges {edge : SemanticDependencyEdge} :
    edge ∈ graph.requiredEdges ↔ edge ∈ graph.edges ∧ edge.required = true :=
  (mem_insertionSort _).trans mem_filter

theorem SemanticExecutionGraph.requiredEdges_ne_nil {edge : SemanticDependencyEdge}
    (hedge : edge ∈ graph.edges) (hrequired : edge.required = true) : graph.requiredEdges ≠ [] :=
  ne_nil_of_mem (SemanticExecutionGraph.mem_requiredEdges.mpr ⟨hedge, hrequired⟩)

theorem SemanticExecutionGraph.mem_requiredJoinConsumers {consumer : String} :
    consumer ∈ graph.requiredJoinConsumers ↔ 1 < (graph.incomingRequired consumer).length := by
  rw [requiredJoinConsumers, mem_insertionSort, mem_filter, mem_eraseDups,
    decide_eq_true_eq, and_iff_right_iff_imp]
  intro hlength
  rw [incomingRequired, length_map] at hlength
  obtain ⟨edge, hedge⟩ := exists_mem_of_length_pos (Nat.zero_lt_of_lt hlength)
  rw [mem_filter, decide_eq_true_eq] at hedge
  exact mem_map.mpr ⟨edge, hedge⟩

theorem ContractsBound.contractStatus_eq_ready_iff {contracts : GraphContracts}
    (h : ContractsBound hashes graph contracts) :
    (contractStatus hashes graph contracts).1 = .ready ↔ AllAdmitted graph contracts := by
  rw [Semantics.contractStatus_eq_ready_iff]
  simp only [h.edgeVerdict_eq_admitted_iff, h.joinVerdict_eq_admitted_iff,
    SemanticExecutionGraph.mem_requiredJoinConsumers, forall_mem_map,
    SemanticExecutionGraph.mem_requiredEdges, and_imp]
  constructor
  · rintro ⟨hedges, hjoins⟩
    exact ⟨fun edge hedge hrequired => (hedges edge hedge hrequired).1,
      fun edge hedge hrequired => (hedges edge hedge hrequired).2, hjoins⟩
  · rintro ⟨hdemands, hcompatibilities, hjoins⟩
    exact ⟨fun edge hedge hrequired =>
      ⟨hdemands edge hedge hrequired, hcompatibilities edge hedge hrequired⟩, hjoins⟩

theorem facetContent_safe_iff {plan : SemanticPlan}
    (hgraph : plan.semanticExecutionGraph = some graph) :
    (facetContent hashes plan).safeToReportSuccess = true ↔ hashes.verifyGraph graph = true ∧
      (graph.requiredEdges = [] ∨ plan.isInvalidated = false ∧
        ContractsBound hashes graph plan.toGraphContracts ∧
        AllAdmitted graph plan.toGraphContracts) := by
  unfold facetContent
  rw [hgraph]
  dsimp only
  split
  · rename_i hverify
    simp_all
  rename_i hverify
  rw [Bool.not_eq_true, Bool.not_eq_false'] at hverify
  split
  · rename_i hnone
    simp [hverify, List.isEmpty_iff.mp hnone]
  rename_i hsome
  rw [List.isEmpty_iff] at hsome
  split
  · rename_i hinvalidated
    simp [hsome, hinvalidated]
  rename_i hinvalidated
  rw [Bool.not_eq_true] at hinvalidated
  split
  · rename_i hinvalid
    simp [hsome, mt invalidContracts_eq_nil_iff.mpr hinvalid]
  · rename_i hvalid
    have hbound := invalidContracts_eq_nil_iff.mp (not_not.mp hvalid)
    simp [contractFacet, hbound.contractStatus_eq_ready_iff, hverify, hsome, hinvalidated, hbound]

def FacetContent.parts (facet : FacetContent) : List String :=
  facet.admittedEdgeIds ++ facet.constrainedEdgeIds ++ facet.blockedEdgeIds ++
    facet.unresolvedEdgeIds

/-- The four lists share out the required edges. -/
structure FacetContent.Partitions (facet : FacetContent) (graph : SemanticExecutionGraph) :
    Prop where
  nodup : facet.parts.Nodup
  mem_iff : ∀ edgeId, edgeId ∈ facet.parts ↔
    ∃ edge ∈ graph.edges, edge.required = true ∧ edge.edgeId = edgeId

def FacetContent.IsInvalid (facet : FacetContent) : Prop :=
  facet.status = .blocked ∧ (facet.reasonCodes = ["SEMANTIC_TRUTH_GRAPH_AUTHORITY_INVALID"] ∨
    facet.reasonCodes = ["SEMANTIC_TRUTH_CONTRACT_AUTHORITY_INVALID"])

theorem mem_uniqueTexts {value : String} {values : List String} :
    value ∈ uniqueTexts values ↔ value ∈ values ∧ strip isSpace value ≠ "" := by
  rw [uniqueTexts, mem_eraseDups, mem_filter, decide_eq_true_eq]

theorem uniqueTexts_nodup (values : List String) : (uniqueTexts values).Nodup := eraseDups_nodup _

/-- Required edges have an identifier. -/
def SemanticExecutionGraph.RequiredNamed (graph : SemanticExecutionGraph) : Prop :=
  ∀ edge ∈ graph.edges, edge.required = true → strip isSpace edge.edgeId ≠ ""

theorem partitions_iff {facet : FacetContent} (hnodup : facet.parts.Nodup)
    (hparts : ∀ edgeId, edgeId ∈ facet.parts ↔
      edgeId ∈ graph.requiredEdges.map (·.edgeId) ∧ strip isSpace edgeId ≠ "") :
    facet.Partitions graph ↔ graph.RequiredNamed := by
  have hrequired : ∀ edgeId, edgeId ∈ graph.requiredEdges.map (·.edgeId) ↔
      ∃ edge ∈ graph.edges, edge.required = true ∧ edge.edgeId = edgeId := by
    intro edgeId
    simp only [mem_map, SemanticExecutionGraph.mem_requiredEdges, and_assoc]
  constructor
  · intro h edge hedge hedgeRequired
    exact ((hparts _).mp ((h.mem_iff _).mpr ⟨edge, hedge, hedgeRequired, rfl⟩)).2
  · intro hnamed
    refine ⟨hnodup, fun edgeId => ?_⟩
    rw [hparts, hrequired, and_iff_left_iff_imp]
    rintro ⟨edge, hedge, hedgeRequired, rfl⟩
    exact hnamed edge hedge hedgeRequired

theorem contractFacet_parts {contracts : GraphContracts} {activeRevisionId : Option String} :
    (contractFacet hashes graph contracts activeRevisionId).unique.parts.Nodup ∧
      ∀ edgeId, edgeId ∈ (contractFacet hashes graph contracts activeRevisionId).unique.parts ↔
        edgeId ∈ graph.requiredEdges.map (·.edgeId) ∧ strip isSpace edgeId ≠ "" := by
  constructor
  · simp only [FacetContent.parts, FacetContent.unique, contractFacet, List.nodup_append,
      uniqueTexts_nodup, true_and, mem_append, mem_uniqueTexts, edgesWith, mem_filter,
      decide_eq_true_eq, mem_cons, not_mem_nil, or_false]
    grind
  · intro edgeId
    simp only [FacetContent.parts, FacetContent.unique, contractFacet, mem_append,
      mem_uniqueTexts, edgesWith, mem_filter, decide_eq_true_eq, mem_cons,
      not_mem_nil, or_false]
    cases edgeVerdict hashes graph contracts edgeId <;> simp

theorem contractFacet_not_isInvalid (hashes : SemanticHashes) (graph : SemanticExecutionGraph)
    (contracts : GraphContracts) (activeRevisionId : Option String) :
    ¬(contractFacet hashes graph contracts activeRevisionId).unique.IsInvalid := by
  rintro ⟨-, hreason⟩
  simp only [FacetContent.unique, contractFacet, contractStatus] at hreason
  split at hreason
  · revert hreason
    decide
  split at hreason
  · revert hreason
    decide
  split at hreason
  · revert hreason
    decide
  · revert hreason
    decide

theorem partitions_facetContent_iff {plan : SemanticPlan}
    (hgraph : plan.semanticExecutionGraph = some graph) :
    (¬(facetContent hashes plan).unique.IsInvalid →
        (facetContent hashes plan).unique.Partitions graph) ↔
      (hashes.verifyGraph graph = true →
        plan.isInvalidated = true ∨ ContractsBound hashes graph plan.toGraphContracts →
          graph.RequiredNamed) := by
  unfold facetContent
  rw [hgraph]
  dsimp only
  split
  · rename_i hverify
    refine iff_of_true (fun hvalid => absurd ?_ hvalid) (fun h => by simp [h] at hverify)
    exact ⟨rfl, .inl (show uniqueTexts ["SEMANTIC_TRUTH_GRAPH_AUTHORITY_INVALID"] = _ by decide)⟩
  rename_i hverify
  rw [Bool.not_eq_true, Bool.not_eq_false'] at hverify
  split
  · rename_i hnone
    rw [List.isEmpty_iff] at hnone
    have hnamed : graph.RequiredNamed := fun edge hedge hrequired =>
      absurd hnone (SemanticExecutionGraph.requiredEdges_ne_nil hedge hrequired)
    refine iff_of_true (fun _ => (partitions_iff ?_ ?_).mpr hnamed) (fun _ _ => hnamed)
    · exact nodup_nil
    · intro edgeId
      simp [FacetContent.parts, FacetContent.unique, uniqueTexts, hnone]
  have hlisted : ∀ facet : FacetContent, ¬facet.IsInvalid → (plan.isInvalidated = true ∨
      ContractsBound hashes graph plan.toGraphContracts) → facet.parts.Nodup →
      (∀ edgeId, edgeId ∈ facet.parts ↔
        edgeId ∈ graph.requiredEdges.map (·.edgeId) ∧ strip isSpace edgeId ≠ "") →
      ((¬facet.IsInvalid → facet.Partitions graph) ↔ (hashes.verifyGraph graph = true →
        plan.isInvalidated = true ∨ ContractsBound hashes graph plan.toGraphContracts →
          graph.RequiredNamed)) := by
    intro facet hvalid hcases hnodup hparts
    rw [imp_iff_right hvalid, imp_iff_right hverify, imp_iff_right hcases]
    exact partitions_iff hnodup hparts
  split
  · rename_i hinvalidated
    refine hlisted _ ?_ (.inl hinvalidated) (uniqueTexts_nodup _) fun _ => mem_uniqueTexts
    rintro ⟨hblocked, -⟩
    cases hblocked
  rename_i hinvalidated
  split
  · rename_i hinvalid
    refine iff_of_true (fun hvalid => absurd ?_ hvalid) (fun _ hcases => ?_)
    · exact ⟨rfl,
        .inr (show uniqueTexts ["SEMANTIC_TRUTH_CONTRACT_AUTHORITY_INVALID"] = _ by decide)⟩
    · rcases hcases with h | hbound
      · exact absurd h hinvalidated
      · exact absurd (invalidContracts_eq_nil_iff.mpr hbound) hinvalid
  · rename_i hvalid
    have hbound := invalidContracts_eq_nil_iff.mp (not_not.mp hvalid)
    exact hlisted _ (contractFacet_not_isInvalid _ _ _ _) (.inr hbound) contractFacet_parts.1
      contractFacet_parts.2

def Evidenced (contracts : GraphContracts) (edge : SemanticDependencyEdge) : Prop :=
  ∃ demand ∈ contracts.edgeSemanticDemands, demand.edgeId = edge.edgeId ∧
    demand.isPartial = false ∧ ∃ compatibility ∈ contracts.offerDemandCompatibilities,
      compatibility.edgeId = edge.edgeId ∧ compatibility.decision = .admitted ∧
      compatibility.demandId = demand.demandId ∧ ∃ offer ∈ contracts.semanticOffers,
        offer.producerWorkUnitId = edge.producerWorkUnitId ∧
        compatibility.offerId = offer.offerId

/-- What a facet promises about the contracts of a graph. -/
structure FacetContent.Truthful (facet : FacetContent) (graph : SemanticExecutionGraph)
    (contracts : GraphContracts) : Prop where
  evidenced : facet.safeToReportSuccess = true → ∀ edge ∈ graph.edges, edge.required = true →
    Evidenced contracts edge
  /-- It has an admitted join over the required edges where there is more than one. -/
  joined : facet.safeToReportSuccess = true → ∀ consumer,
    1 < (graph.incomingRequired consumer).length →
      ∃ join ∈ contracts.semanticJoinEvaluations, join.consumerWorkUnitId = consumer ∧
        join.decision = .admitted ∧ join.requiredEdgeIds.Perm (graph.incomingRequired consumer)
  /-- The four lists share out the required edges. -/
  partitions : ¬facet.IsInvalid → facet.Partitions graph

/-- The compatibility of the edge names, by its id, a demand that only other edges have or an
offer that only other units have made. -/
def Crossed (contracts : GraphContracts) (edge : SemanticDependencyEdge) : Prop :=
  ∃ compatibility ∈ contracts.offerDemandCompatibilities, compatibility.edgeId = edge.edgeId ∧
    ((∀ demand ∈ contracts.edgeSemanticDemands, demand.demandId = compatibility.demandId →
        demand.edgeId ≠ edge.edgeId) ∨
      ∀ offer ∈ contracts.semanticOffers, offer.offerId = compatibility.offerId →
        offer.producerWorkUnitId ≠ edge.producerWorkUnitId)

/-- Where the contracts are bound and admit all required edges, an edge has its evidence exactly
if it is not crossed. -/
theorem ContractsBound.evidenced_iff {hashes : SemanticHashes} {contracts : GraphContracts}
    (hbound : ContractsBound hashes graph contracts) (hall : AllAdmitted graph contracts)
    {edge : SemanticDependencyEdge} (hedge : edge ∈ graph.edges)
    (hrequired : edge.required = true) : Evidenced contracts edge ↔ ¬Crossed contracts edge := by
  obtain ⟨demand, hdemand, hdemandEdge, hwhole⟩ := hall.demands edge hedge hrequired
  obtain ⟨compatibility, hmem, hmemEdge, hdecision⟩ := hall.compatibilities edge hedge hrequired
  -- there is only one demand and one compatibility for the edge
  have honlyDemand : ∀ other ∈ contracts.edgeSemanticDemands, other.edgeId = edge.edgeId →
      other = demand := fun other hother heq =>
    inj_on_of_nodup_map hbound.demandEdges hother hdemand (heq.trans hdemandEdge.symm)
  have honly : ∀ other ∈ contracts.offerDemandCompatibilities, other.edgeId = edge.edgeId →
      other = compatibility := fun other hother heq =>
    inj_on_of_nodup_map hbound.compatibilityEdges hother hmem (heq.trans hmemEdge.symm)
  constructor
  · rintro ⟨named, hnamed, hnamedEdge, -, used, hused, husedEdge, -, hdemandId, offer, hoffer,
      hproducer, hofferId⟩ ⟨other, hother, hotherEdge, hcrossed⟩
    obtain rfl := (honly other hother hotherEdge).trans (honly used hused husedEdge).symm
    rcases hcrossed with hcrossed | hcrossed
    · exact hcrossed named hnamed hdemandId.symm hnamedEdge
    · exact hcrossed offer hoffer hofferId.symm hproducer
  · intro hstraight
    have hown : ¬((∀ other ∈ contracts.edgeSemanticDemands,
        other.demandId = compatibility.demandId → other.edgeId ≠ edge.edgeId) ∨
        ∀ offer ∈ contracts.semanticOffers, offer.offerId = compatibility.offerId →
          offer.producerWorkUnitId ≠ edge.producerWorkUnitId) :=
      fun hcrossed => hstraight ⟨compatibility, hmem, hmemEdge, hcrossed⟩
    push Not at hown
    obtain ⟨⟨named, hnamed, hnamedId, hnamedEdge⟩, offer, hoffer, hofferId, hproducer⟩ := hown
    obtain rfl := honlyDemand named hnamed hnamedEdge
    exact ⟨named, hnamed, hnamedEdge, hwhole, compatibility, hmem, hmemEdge, hdecision,
      hnamedId.symm, offer, hoffer, hproducer, hofferId.symm⟩

/-- A facet is truthful exactly if, unless a hash or a binding is wrong, no required edge has a
blank id and, where all required edges and joins are admitted, no required edge is crossed. -/
theorem evaluate_truthful_iff {hashes : SemanticHashes} {sha256 digits : FacetContent → String}
    {run : SemanticRun} {graph : SemanticExecutionGraph}
    (hgraph : run.plan.semanticExecutionGraph = some graph) :
    (evaluate hashes sha256 digits run).toFacetContent.Truthful graph run.plan.toGraphContracts ↔
      (hashes.verifyGraph graph = true →
        run.plan.isInvalidated = true ∨ ContractsBound hashes graph run.plan.toGraphContracts →
          graph.RequiredNamed) ∧
      (hashes.verifyGraph graph = true → run.plan.isInvalidated = false →
        ContractsBound hashes graph run.plan.toGraphContracts →
        AllAdmitted graph run.plan.toGraphContracts → ∀ edge ∈ graph.edges, edge.required = true →
            ¬Crossed run.plan.toGraphContracts edge) := by
  have hsafe := @facetContent_safe_iff graph hashes run.plan hgraph
  have hparts := @partitions_facetContent_iff graph hashes run.plan hgraph
  constructor
  · intro h
    refine ⟨hparts.mp h.partitions, ?_⟩
    intro hverify hinvalidated hbound hall edge hedge hrequired
    rw [← hbound.evidenced_iff hall hedge hrequired]
    exact h.evidenced (hsafe.mpr ⟨hverify, .inr ⟨hinvalidated, hbound, hall⟩⟩) edge hedge hrequired
  · rintro ⟨hnamed, hstraight⟩
    have hadmitted : (evaluate hashes sha256 digits run).safeToReportSuccess = true →
        ∀ edge ∈ graph.edges, edge.required = true →
          AllAdmitted graph run.plan.toGraphContracts ∧
            Evidenced run.plan.toGraphContracts edge := by
      intro hreport edge hedge hrequired
      obtain ⟨hverify, hcases⟩ := hsafe.mp hreport
      rcases hcases with hnone | ⟨hinvalidated, hbound, hall⟩
      · exact absurd hnone (SemanticExecutionGraph.requiredEdges_ne_nil hedge hrequired)
      · exact ⟨hall, (hbound.evidenced_iff hall hedge hrequired).mpr
          (hstraight hverify hinvalidated hbound hall edge hedge hrequired)⟩
    refine ⟨fun hreport edge hedge hrequired => (hadmitted hreport edge hedge hrequired).2, ?_,
      hparts.mpr hnamed⟩
    intro hreport consumer hlength
    have hmem := SemanticExecutionGraph.mem_requiredJoinConsumers.mpr hlength
    rw [SemanticExecutionGraph.requiredJoinConsumers, mem_insertionSort, mem_filter,
      mem_eraseDups] at hmem
    obtain ⟨edge, hedge, -⟩ := mem_map.mp hmem.1
    rw [SemanticExecutionGraph.mem_requiredEdges] at hedge
    exact (hadmitted hreport edge hedge.1 hedge.2).1.joins consumer hlength

def plainUnit (stepId : String) : SemanticWorkUnitContract where
  workUnitId := stepId
  sourceStepIds := [stepId]
  semanticGoal := "do " ++ stepId
  workModes := ["coding"]
  classificationStatus := .interpreted
  requiredCapabilities := []
  requestedEffects := []
  prohibitedEffects := []
  expectedOutputs := []
  sourceInputs := []
  required := true
  containsSideEffect := false
  vocabularyBinding := codingVocabulary.binding

def plainEdge (producer consumer : String) (required : Bool) : SemanticDependencyEdge where
  edgeId := producer ++ ">" ++ consumer
  producerWorkUnitId := producer
  consumerWorkUnitId := consumer
  relation := .evidenceDependency
  required := required
  sourceRefs := []

def plainGraph (units : List String) (edges : List SemanticDependencyEdge) :
    SemanticExecutionGraph :=
  let content : GraphContent := {
    taskRunId := "run"
    taskId := some "task"
    sourcePlanId := "plan"
    sourceExecutionId := "execution"
    sourceSemanticsSha256 := "source"
    vocabularyBinding := codingVocabulary.binding
    workUnits := units.map plainUnit
    edges := edges
    status := .ready
    reasonCodes := []
    schemaVersion := "semantic_execution_graph.v1" }
  { content with
    semanticGraphId := "graph"
    authoritySha256 := plainHashes.graph content }

def plainDemand (graph : SemanticExecutionGraph) (edge : SemanticDependencyEdge) :
    EdgeSemanticDemand where
  demandId := "demand " ++ edge.edgeId
  authoritySha256 := "demand:" ++ edge.edgeId
  edgeId := edge.edgeId
  semanticGraphId := graph.semanticGraphId
  semanticGraphAuthoritySha256 := graph.authoritySha256
  producerWorkUnitId := edge.producerWorkUnitId
  consumerWorkUnitId := edge.consumerWorkUnitId
  vocabularyBinding := graph.vocabularyBinding
  isPartial := false
  consumerRequiredCapabilities := []
  requiredDownstreamUses := []
  requiredUseSafety := []
  requiredSemanticProperties := []
  requiredEvidenceDomains := []
  requiredUpstreamEffects := []
  prohibitedUpstreamEffects := []
  evidenceRequired := true
  baseConstraints := []
  riskConstraints := []
  sourceConsumerStepIds := []
  sourceRefs := []
  reasonCodes := []

def plainOffer (graph : SemanticExecutionGraph) (producer : String) : SemanticOffer where
  offerId := "offer " ++ producer
  authoritySha256 := "offer:" ++ producer
  semanticGraphId := graph.semanticGraphId
  semanticGraphAuthoritySha256 := graph.authoritySha256
  producerWorkUnitId := producer

def plainCompatibility (graph : SemanticExecutionGraph) (edge demanded : SemanticDependencyEdge)
    (offering : String) : OfferDemandCompatibility where
  compatibilityId := "compatibility " ++ edge.edgeId
  authoritySha256 := "compatibility:" ++ edge.edgeId
  edgeId := edge.edgeId
  semanticGraphId := graph.semanticGraphId
  semanticGraphAuthoritySha256 := graph.authoritySha256
  producerWorkUnitId := edge.producerWorkUnitId
  consumerWorkUnitId := edge.consumerWorkUnitId
  offerId := "offer " ++ offering
  offerAuthoritySha256 := "offer:" ++ offering
  demandId := "demand " ++ demanded.edgeId
  demandAuthoritySha256 := "demand:" ++ demanded.edgeId
  decision := .admitted

/-- A required and an optional edge. The only offer is that of the producer of the optional edge,
and the compatibility of the required edge has some demand and some offer. -/
def offeringRun (demanded : SemanticDependencyEdge) (offering : String) : SemanticRun :=
  let needed := plainEdge "read" "write" true
  let spare := plainEdge "search" "report" false
  let graph := plainGraph ["read", "write", "search", "report"] [needed, spare]
  { runId := "run"
    taskId := "task"
    plan := {
      planId := "plan"
      semanticExecutionGraph := some graph
      edgeSemanticDemands := [plainDemand graph needed, plainDemand graph spare]
      semanticOffers := [plainOffer graph offering]
      offerDemandCompatibilities := [plainCompatibility graph needed demanded offering] } }

/-- The compatibility of the required edge names the demand of its edge and the offer of
its producer. -/
theorem own_evidence_truthful : ∃ graph,
    (offeringRun (plainEdge "read" "write" true) "read").plan.semanticExecutionGraph = some graph ∧
    (evaluate plainHashes (fun _ => "") (fun _ => "")
      (offeringRun (plainEdge "read" "write" true) "read")).toFacetContent.Truthful graph
        (offeringRun (plainEdge "read" "write" true) "read").plan.toGraphContracts := by
  refine ⟨_, rfl, (evaluate_truthful_iff rfl).mpr ⟨fun _ _ edge hedge hrequired => ?_,
    fun _ _ _ _ edge hedge hrequired ⟨compatibility, hcompatibility, _, hcrossed⟩ => ?_⟩⟩
  · rcases mem_pair.mp hedge with rfl | rfl
    · decide
    · cases hrequired
  · obtain rfl := mem_singleton.mp hcompatibility
    rcases mem_pair.mp hedge with rfl | rfl
    · rcases hcrossed with hcrossed | hcrossed
      · exact hcrossed _ mem_cons_self rfl rfl
      · exact hcrossed _ mem_cons_self rfl rfl
    · cases hrequired

/-- The compatibility of the required edge names the demand of the optional edge and the
offer of its producer. Each contract is bound to the graph, and a success is safe to
report that has no evidence. -/
theorem crossed_evidence_reported : ∃ graph,
    (offeringRun (plainEdge "search" "report" false) "search").plan.semanticExecutionGraph =
      some graph ∧
    ContractsBound plainHashes graph
      (offeringRun (plainEdge "search" "report" false) "search").plan.toGraphContracts ∧
    ¬(evaluate plainHashes (fun _ => "") (fun _ => "")
      (offeringRun (plainEdge "search" "report" false) "search")).toFacetContent.Truthful graph
        (offeringRun (plainEdge "search" "report" false) "search").plan.toGraphContracts := by
  refine ⟨_, rfl, invalidContracts_eq_nil_iff.mp (by decide +kernel), fun htruthful => ?_⟩
  have hsafe : (evaluate plainHashes (fun _ => "") (fun _ => "")
      (offeringRun (plainEdge "search" "report" false) "search")).safeToReportSuccess = true := by
    decide +kernel
  obtain ⟨-, -, -, -, -, -, -, -, -, offer, hoffer, hproducer, -⟩ :=
    htruthful.evidenced hsafe (plainEdge "read" "write" true) mem_cons_self rfl
  obtain rfl := mem_singleton.mp hoffer
  exact absurd hproducer (by decide)

end AIpinho.Semantics
