import AIpinho.Lib.Keyed
import AIpinho.Semantics.Evidence
import AIpinho.Semantics.NWayTopology
import Mathlib.Data.List.Find

/-!
# Joins as meets

The decisions about edges are ordered from `blocked` to `admitted`. A join is the meet of
the decisions about the required edges, whatever order the graph and the plan list their
items in.
-/

namespace AIpinho.Semantics

open List Lib
open AIpinho.Runtime (isSpace)

section Checks

variable {hashes : SemanticHashes} {graph : SemanticExecutionGraph}

theorem checkDemand_ok_iff {seen : List EdgeSemanticDemand} {item : EdgeSemanticDemand} :
    checkDemand hashes graph seen item = .ok () ↔
      item.edgeId ∉ seen.map (·.edgeId) ∧ demandFault hashes graph item = none := by
  unfold checkDemand demandFault
  simp only [demand_bind_ok_iff, demandSome_bind_ok_iff, demand_ok_iff]
  by_cases hhash : item.authoritySha256 = hashes.demand item.toDemandContent
  · cases graph.edge? item.edgeId with
    | none => simp [hhash]
    | some edge =>
      simp [hhash]
      tauto
  · simp [hhash, Ne.symm hhash]

theorem checkOffer_ok_iff {seen : List SemanticOffer} {item : SemanticOffer} :
    checkOffer hashes graph seen item = .ok () ↔
      item.producerWorkUnitId ∉ seen.map (·.producerWorkUnitId) ∧
        (offerFault hashes graph item = none ∧
          item.producerWorkUnitId ∈ graph.workUnits.map (·.workUnitId)) := by
  unfold checkOffer offerFault
  simp only [demand_bind_ok_iff, demand_ok_iff]
  by_cases hhash : item.authoritySha256 = hashes.offer item.toOfferContent
  · simp [hhash]
    tauto
  · simp [hhash, Ne.symm hhash]

theorem checkCompatibility_ok_iff {contracts : GraphContracts}
    (hoffers : ∀ offer ∈ contracts.semanticOffers, offerFault hashes graph offer = none)
    {seen : List OfferDemandCompatibility} {item : OfferDemandCompatibility} :
    checkCompatibility hashes graph contracts.edgeSemanticDemands contracts.semanticOffers seen
        item = .ok () ↔
      item.edgeId ∉ seen.map (·.edgeId) ∧
        compatibilityFault hashes graph contracts item = none := by
  unfold checkCompatibility compatibilityFault
  rw [offerById?_eq hoffers]
  simp only [demand_bind_ok_iff, demandSome_bind_ok_iff, demand_ok_iff]
  by_cases hhash : item.authoritySha256 = hashes.compatibility item.toCompatibilityContent
  · cases graph.edge? item.edgeId with
    | none => simp [hhash]
    | some edge =>
      cases contracts.edgeSemanticDemands.find? fun other => other.demandId = item.demandId with
      | none => simp [hhash]
      | some named =>
        cases contracts.semanticOffers.reverse.find? fun other => other.offerId = item.offerId with
        | none => simp [hhash]
        | some offered =>
          simp [hhash]
          tauto
  · simp [hhash, Ne.symm hhash]

end Checks

/-- What `_context` asks of a plan. -/
structure PassesContext (hashes : SemanticHashes) (graph : SemanticExecutionGraph)
    (contracts : GraphContracts) : Prop where
  verified : hashes.verifyGraph graph = true
  demandEdges : (contracts.edgeSemanticDemands.map (·.edgeId)).Nodup
  demands : ∀ demand ∈ contracts.edgeSemanticDemands, demandFault hashes graph demand = none
  offerUnits : (contracts.semanticOffers.map (·.producerWorkUnitId)).Nodup
  offers : ∀ offer ∈ contracts.semanticOffers, offerFault hashes graph offer = none
  /-- They are made by units of the graph. -/
  offering : ∀ offer ∈ contracts.semanticOffers,
    offer.producerWorkUnitId ∈ graph.workUnits.map (·.workUnitId)
  compatibilityEdges : (contracts.offerDemandCompatibilities.map (·.edgeId)).Nodup
  compatibilities : ∀ compatibility ∈ contracts.offerDemandCompatibilities,
    compatibilityFault hashes graph contracts compatibility = none

theorem nwayContext_ok_iff {hashes : SemanticHashes} {plan : SemanticPlan}
    {context : NWayContext} :
    nwayContext hashes plan = .ok context ↔ plan.semanticExecutionGraph = some context.graph ∧
      context.compatibilities = plan.offerDemandCompatibilities ∧
      PassesContext hashes context.graph plan.toGraphContracts := by
  unfold nwayContext
  simp only [demandSome_bind_ok_iff, demand_bind_ok_iff]
  simp only [value_bind_ok_iff, collectEach_ok_iff fun _ _ => checkDemand_ok_iff,
    collectEach_ok_iff fun _ _ => checkOffer_ok_iff]
  constructor
  · rintro ⟨graph, hgraph, hverified, demands, ⟨rfl, hdemandEdges, hdemands⟩, offers,
      ⟨rfl, hofferUnits, hoffers⟩, compatibilities, hcollected, hcontext⟩
    have hbound := fun offer hoffer => (hoffers offer hoffer).1
    obtain ⟨rfl, hedges, hcompatibilities⟩ := (collectEach_ok_iff fun _ _ =>
      @checkCompatibility_ok_iff hashes graph plan.toGraphContracts hbound _ _).mp hcollected
    cases hcontext
    exact ⟨hgraph, rfl, hverified, hdemandEdges, hdemands, hofferUnits, hbound,
      fun offer hoffer => (hoffers offer hoffer).2, hedges, hcompatibilities⟩
  · rintro ⟨hgraph, hcompatibilities, hpasses⟩
    refine ⟨context.graph, hgraph, hpasses.verified, _,
      ⟨rfl, hpasses.demandEdges, hpasses.demands⟩, _, ⟨rfl, hpasses.offerUnits,
        fun offer hoffer => ⟨hpasses.offers offer hoffer, hpasses.offering offer hoffer⟩⟩,
      plan.offerDemandCompatibilities, ?_, ?_⟩
    · have hbound := hpasses.offers
      exact (collectEach_ok_iff fun _ _ =>
        @checkCompatibility_ok_iff hashes context.graph plan.toGraphContracts hbound _ _).mpr
          ⟨rfl, hpasses.compatibilityEdges, hpasses.compatibilities⟩
    · rw [← hcompatibilities]

def decisionOf (compatibilities : List OfferDemandCompatibility) (edgeId : String) : Decision :=
  ((compatibilities.find? fun compatibility => compatibility.edgeId = edgeId).map
    (·.decision)).getD .insufficientEvidence

theorem NWayContext.decisionOf_eq (context : NWayContext) (edgeId : String) :
    decisionOf context.compatibilities edgeId =
      ((context.compatibilityFor edgeId).map (·.decision)).getD .insufficientEvidence :=
  rfl

def idsWith (compatibilities : List OfferDemandCompatibility) (decision : Decision)
    (edges : List SemanticDependencyEdge) : List String :=
  (edges.map (·.edgeId)).filter fun edgeId => decisionOf compatibilities edgeId = decision

def compatibilityIdsOf (context : NWayContext) (edges : List SemanticDependencyEdge) :
    List String :=
  edges.filterMap fun edge => (context.compatibilityFor edge.edgeId).map (·.compatibilityId)

def constrainedTexts (context : NWayContext) (texts : OfferDemandCompatibility → List String)
    (edges : List SemanticDependencyEdge) : List String :=
  edges.flatMap fun edge =>
    match context.compatibilityFor edge.edgeId with
    | none => []
    | some compatibility =>
      if compatibility.decision = .admittedWithConstraints then texts compatibility else []

section Loops

variable (context : NWayContext)

theorem foldl_addRequired (edges : List SemanticDependencyEdge) (lists : JoinLists) :
    edges.foldl (JoinLists.addRequired context) lists = { lists with
        admitted := lists.admitted ++ idsWith context.compatibilities .admitted edges
        constrained :=
          lists.constrained ++ idsWith context.compatibilities .admittedWithConstraints edges
        blocked := lists.blocked ++ idsWith context.compatibilities .blocked edges
        unresolved :=
          lists.unresolved ++ idsWith context.compatibilities .insufficientEvidence edges
        compatibilityIds := lists.compatibilityIds ++ compatibilityIdsOf context edges
        effectiveConstraints :=
          lists.effectiveConstraints ++ constrainedTexts context (·.effectiveConstraints) edges
        disclosures := lists.disclosures ++ constrainedTexts context (·.disclosures) edges } := by
  induction edges generalizing lists with
  | nil => simp [idsWith, compatibilityIdsOf, constrainedTexts]
  | cons edge edges ih =>
    rw [foldl_cons, ih]
    unfold JoinLists.addRequired
    cases hfor : context.compatibilityFor edge.edgeId with
    | none => simp [idsWith, compatibilityIdsOf, constrainedTexts, context.decisionOf_eq, hfor]
    | some compatibility =>
      cases hcase : compatibility.decision <;>
        simp [idsWith, compatibilityIdsOf, constrainedTexts, context.decisionOf_eq, hfor, hcase]

theorem foldl_addOptional (edges : List SemanticDependencyEdge) (lists : JoinLists) :
    edges.foldl (JoinLists.addOptional context) lists = { lists with
        optionalNonadmitted := lists.optionalNonadmitted ++
          (edges.map (·.edgeId)).filter fun edgeId =>
            decisionOf context.compatibilities edgeId ∈
              [Decision.blocked, .insufficientEvidence]
        compatibilityIds := lists.compatibilityIds ++ compatibilityIdsOf context edges } := by
  induction edges generalizing lists with
  | nil => simp [compatibilityIdsOf]
  | cons edge edges ih =>
    rw [foldl_cons, ih]
    unfold JoinLists.addOptional
    cases hfor : context.compatibilityFor edge.edgeId with
    | none => simp [compatibilityIdsOf, context.decisionOf_eq, hfor]
    | some compatibility =>
      cases hcase : compatibility.decision <;>
        simp [compatibilityIdsOf, context.decisionOf_eq, hfor, hcase]

/-- What the two loops fill. -/
theorem lists_eq (consumer : String) : context.lists consumer =
      let required := context.graph.incomingOf consumer true
      let optional := context.graph.incomingOf consumer false
      { admitted := idsWith context.compatibilities .admitted required
        constrained := idsWith context.compatibilities .admittedWithConstraints required
        blocked := idsWith context.compatibilities .blocked required
        unresolved := idsWith context.compatibilities .insufficientEvidence required
        optionalNonadmitted := (optional.map (·.edgeId)).filter fun edgeId =>
          decisionOf context.compatibilities edgeId ∈ [Decision.blocked, .insufficientEvidence]
        compatibilityIds := compatibilityIdsOf context required ++
          compatibilityIdsOf context optional
        effectiveConstraints := constrainedTexts context (·.effectiveConstraints) required
        disclosures := constrainedTexts context (·.disclosures) required } := by
  rw [NWayContext.lists, foldl_addRequired, foldl_addOptional]
  simp only [nil_append]

end Loops

/-- The place of a decision, from `blocked` up. -/
def Decision.rank : Decision → ℕ
  | .blocked => 0
  | .insufficientEvidence => 1
  | .admittedWithConstraints => 2
  | .admitted => 3

theorem Decision.rank_injective : Function.Injective Decision.rank := by
  intro d e h
  cases d <;> cases e <;> first | rfl | cases h

/-- `blocked` is below `insufficient_evidence`, `insufficient_evidence` is below
`admitted_with_constraints`, and that is below `admitted`. -/
instance : LinearOrder Decision :=
  LinearOrder.lift' Decision.rank Decision.rank_injective

theorem Decision.le_iff_rank_le {d e : Decision} : d ≤ e ↔ d.rank ≤ e.rank := Iff.rfl

theorem Decision.lt_iff_rank_lt {d e : Decision} : d < e ↔ d.rank < e.rank := Iff.rfl

variable {edges : List SemanticDependencyEdge}

theorem mem_idsWith {compatibilities : List OfferDemandCompatibility} {decision : Decision}
    {edgeId : String} :
    edgeId ∈ idsWith compatibilities decision edges ↔
      edgeId ∈ edges.map (·.edgeId) ∧ decisionOf compatibilities edgeId = decision := by
  rw [idsWith, mem_filter, decide_eq_true_eq]

theorem idsWith_eq_nil_iff {compatibilities : List OfferDemandCompatibility} {decision : Decision} :
    idsWith compatibilities decision edges = [] ↔
      ∀ edge ∈ edges, decisionOf compatibilities edge.edgeId ≠ decision := by
  simp [idsWith]

theorem idsWith_perm (compatibilities : List OfferDemandCompatibility)
    (edges : List SemanticDependencyEdge) :
    (idsWith compatibilities .admitted edges ++
      idsWith compatibilities .admittedWithConstraints edges ++
      idsWith compatibilities .blocked edges ++
      idsWith compatibilities .insufficientEvidence edges).Perm (edges.map (·.edgeId)) := by
  refine perm_iff_count.mpr fun edgeId => ?_
  have hcount : ∀ decision, (idsWith compatibilities decision edges).count edgeId =
      if decisionOf compatibilities edgeId = decision then (edges.map (·.edgeId)).count edgeId
      else 0 := by
    intro decision
    split
    · rename_i hdecision
      exact count_filter (decide_eq_true hdecision)
    · rename_i hdecision
      exact count_eq_zero.mpr fun hmem => hdecision (mem_idsWith.mp hmem).2
  simp only [count_append, hcount]
  cases decisionOf compatibilities edgeId <;> simp

theorem isGLB_of_reached {decisions : Set Decision} {decision : Decision}
    (hreached : decision ∈ decisions) (hbelow : ∀ other < decision, other ∉ decisions) :
    IsGLB decisions decision :=
  IsLeast.isGLB ⟨hreached, fun other hother => not_lt.mp fun hlt => hbelow other hlt hother⟩

/-- The cascade over the lists computes the meet of the decisions about the required edges. -/
theorem decide_isGLB (context : NWayContext) (consumer : String) :
    IsGLB {decision | ∃ edge ∈ context.graph.incomingOf consumer true,
      decisionOf context.compatibilities edge.edgeId = decision}
      (context.lists consumer).decide.1 := by
  have hreached : ∀ decision,
      idsWith context.compatibilities decision (context.graph.incomingOf consumer true) ≠ [] ↔
        decision ∈ {decision | ∃ edge ∈ context.graph.incomingOf consumer true,
          decisionOf context.compatibilities edge.edgeId = decision} := by
    intro decision
    rw [Ne, idsWith_eq_nil_iff]
    simp
  rw [lists_eq]
  simp only [JoinLists.decide, hreached]
  split
  · rename_i hblocked
    exact isGLB_of_reached hblocked fun other hother => by
      cases other <;> simp [Decision.lt_iff_rank_lt, Decision.rank] at hother
  split
  · rename_i hblocked hunresolved
    refine isGLB_of_reached hunresolved fun other hother => ?_
    cases other with
    | blocked => exact hblocked
    | _ => simp [Decision.lt_iff_rank_lt, Decision.rank] at hother
  split
  · rename_i hblocked hunresolved hconstrained
    refine isGLB_of_reached hconstrained fun other hother => ?_
    cases other with
    | blocked => exact hblocked
    | insufficientEvidence => exact hunresolved
    | _ => simp [Decision.lt_iff_rank_lt, Decision.rank] at hother
  · rename_i hblocked hunresolved hconstrained
    constructor
    · intro other hother
      cases other with
      | blocked => exact absurd hother hblocked
      | insufficientEvidence => exact absurd hother hunresolved
      | admittedWithConstraints => exact absurd hother hconstrained
      | admitted => exact le_refl _
    · intro bound _
      cases bound <;> simp [Decision.le_iff_rank_le, Decision.rank]

def EvaluatedJoin.edgeIdsWith (join : EvaluatedJoin) : Decision → List String
  | .admitted => join.admittedEdgeIds
  | .admittedWithConstraints => join.constrainedEdgeIds
  | .blocked => join.blockedEdgeIds
  | .insufficientEvidence => join.unresolvedEdgeIds

variable (graph : SemanticExecutionGraph)

def SemanticExecutionGraph.requiredInto (consumer : String) : List SemanticDependencyEdge :=
  graph.edges.filter fun edge => edge.consumerWorkUnitId = consumer ∧ edge.required = true

/-- A join is the meet of the required edges that lead to a unit, and its lists share them
out by decision. -/
structure EvaluatedJoin.IsMeet (join : EvaluatedJoin) (graph : SemanticExecutionGraph)
    (compatibilities : List OfferDemandCompatibility) (consumer : String) : Prop where
  decision : IsGLB {decision | ∃ edge ∈ graph.requiredInto consumer,
    decisionOf compatibilities edge.edgeId = decision} join.decision
  required : join.requiredEdgeIds.Perm ((graph.requiredInto consumer).map (·.edgeId))
  /-- The four lists together have each required edge once. -/
  parts : (join.admittedEdgeIds ++ join.constrainedEdgeIds ++ join.blockedEdgeIds ++
    join.unresolvedEdgeIds).Perm join.requiredEdgeIds
  listed : ∀ decision edgeId, edgeId ∈ join.edgeIdsWith decision ↔
    edgeId ∈ join.requiredEdgeIds ∧ decisionOf compatibilities edgeId = decision

/-- The same edges and decisions in another order. The graph has another hash then, and the
contracts are bound to it. The demands and the offers can be any. -/
structure Reordered (plan plan' : SemanticPlan) (graph graph' : SemanticExecutionGraph) : Prop where
  workUnits : (graph.workUnits.map (·.workUnitId)).Perm (graph'.workUnits.map (·.workUnitId))
  edges : graph.edges.Perm graph'.edges
  compatibilities :
    (plan.offerDemandCompatibilities.map fun item => (item.edgeId, item.decision)).Perm
      (plan'.offerDemandCompatibilities.map fun item => (item.edgeId, item.decision))

theorem sortedTexts_perm (texts : List String) : (sortedTexts texts).Perm texts :=
  perm_insertionSort _ texts

/-- The incoming edges that the first loop goes over are the required edges into the unit. -/
theorem SemanticExecutionGraph.incomingOf_perm (consumer : String) :
    (graph.incomingOf consumer true).Perm (graph.requiredInto consumer) := by
  refine (perm_insertionSort _ _).trans (List.Perm.of_eq ?_)
  rw [incoming, filter_filter, requiredInto]
  refine filter_congr fun edge _ => ?_
  rw [Bool.decide_and, Bool.and_comm]

theorem SemanticExecutionGraph.map_incomingOf (consumer : String) (required : Bool) :
    (graph.incomingOf consumer required).map (·.edgeId) =
      sortedTexts (((graph.incoming consumer).filter fun edge =>
        edge.required = required).map (·.edgeId)) :=
  map_insertionSort _ _ _ _ fun _ _ _ _ => Iff.rfl

theorem NWayContext.edgeIdsWith_join (context : NWayContext) (hashes : SemanticHashes)
    (consumer : String) (decision : Decision) :
    (context.join hashes consumer).edgeIdsWith decision = sortedTexts
      (idsWith context.compatibilities decision (context.graph.incomingOf consumer true)) := by
  cases decision <;> simp [EvaluatedJoin.edgeIdsWith, NWayContext.join, lists_eq]

theorem NWayContext.join_isMeet (context : NWayContext) (hashes : SemanticHashes)
    (consumer : String) :
    (context.join hashes consumer).IsMeet context.graph context.compatibilities consumer := by
  have hperm := context.graph.incomingOf_perm consumer
  have hlisted := context.edgeIdsWith_join hashes consumer
  refine ⟨?_, hperm.map _, ?_, fun decision edgeId => ?_⟩
  · have hmeet := decide_isGLB context consumer
    simp only [hperm.mem_iff] at hmeet
    exact hmeet
  · have hparts := idsWith_perm context.compatibilities (context.graph.incomingOf consumer true)
    refine List.Perm.trans ?_ hparts
    have hsorted := fun decision => (List.Perm.of_eq (hlisted decision)).trans
      (sortedTexts_perm _)
    exact (((hsorted .admitted).append (hsorted .admittedWithConstraints)).append
      (hsorted .blocked)).append (hsorted .insufficientEvidence)
  · rw [hlisted, (sortedTexts_perm _).mem_iff, mem_idsWith]
    rfl

theorem decisionOf_of_perm {items items' : List OfferDemandCompatibility}
    (hnodup : (items.map (·.edgeId)).Nodup)
    (hperm : (items.map fun item => (item.edgeId, item.decision)).Perm
      (items'.map fun item => (item.edgeId, item.decision))) (edgeId : String) :
    decisionOf items edgeId = decisionOf items' edgeId := by
  have hfind : ∀ items : List OfferDemandCompatibility, decisionOf items edgeId =
      (((items.map fun item => (item.edgeId, item.decision)).find? fun pair =>
        pair.1 = edgeId).map (·.2)).getD .insufficientEvidence := by
    intro items
    rw [find?_map, Option.map_map]
    rfl
  rw [hfind, hfind, List.find?_eq_find?_of_perm hperm]
  rintro first ⟨hfirst, hfirstId⟩ second ⟨hsecond, hsecondId⟩
  obtain ⟨item, hitem, rfl⟩ := mem_map.mp hfirst
  obtain ⟨other, hother, rfl⟩ := mem_map.mp hsecond
  rw [decide_eq_true_eq] at hfirstId hsecondId
  rw [inj_on_of_nodup_map hnodup hitem hother (hfirstId.trans hsecondId.symm)]

section Reordered

variable {hashes : SemanticHashes} {context context' : NWayContext} {consumer : String}

theorem join_of_reordered
    (hnodup : (context.compatibilities.map (·.edgeId)).Nodup)
    (hcompatibilities : (context.compatibilities.map fun item => (item.edgeId, item.decision)).Perm
        (context'.compatibilities.map fun item => (item.edgeId, item.decision)))
    (hedges : context.graph.edges.Perm context'.graph.edges) :
    (context'.join hashes consumer).decision = (context.join hashes consumer).decision ∧
      (context'.join hashes consumer).requiredEdgeIds =
        (context.join hashes consumer).requiredEdgeIds ∧
      ∀ decision, (context'.join hashes consumer).edgeIdsWith decision =
        (context.join hashes consumer).edgeIdsWith decision := by
  have hdecision := decisionOf_of_perm hnodup hcompatibilities
  have hincoming : (context.graph.requiredInto consumer).Perm
      (context'.graph.requiredInto consumer) := hedges.filter _
  refine ⟨?_, ?_, fun decision => ?_⟩
  · have hmeet := (context.join_isMeet hashes consumer).decision
    have hmeet' := (context'.join_isMeet hashes consumer).decision
    simp only [← hdecision, ← hincoming.mem_iff] at hmeet'
    exact hmeet'.unique hmeet
  · change (context'.graph.incomingOf consumer true).map (·.edgeId) =
      (context.graph.incomingOf consumer true).map (·.edgeId)
    rw [SemanticExecutionGraph.map_incomingOf, SemanticExecutionGraph.map_incomingOf]
    exact insertionSort_eq_iff_perm.mpr (((hedges.symm.filter _).filter _).map _)
  · rw [NWayContext.edgeIdsWith_join, NWayContext.edgeIdsWith_join]
    have hids : ((context'.graph.incomingOf consumer true).map (·.edgeId)).Perm
        ((context.graph.incomingOf consumer true).map (·.edgeId)) :=
      ((context'.graph.incomingOf_perm consumer).trans
        (hincoming.symm.trans (context.graph.incomingOf_perm consumer).symm)).map _
    refine insertionSort_eq_iff_perm.mpr ?_
    simp only [idsWith, ← hdecision]
    exact hids.filter _

end Reordered

theorem evaluateJoin_eq {hashes : SemanticHashes} {plan : SemanticPlan} {context : NWayContext}
    {consumer : String} (hcontext : nwayContext hashes plan = .ok context)
    (hknown : consumer ∈ context.graph.workUnits.map (·.workUnitId))
    (hincoming : ∃ edge ∈ context.graph.edges, edge.consumerWorkUnitId = consumer) :
    evaluateJoin hashes plan consumer = .evaluated (context.join hashes consumer) := by
  obtain ⟨edge, hedge, hconsumer⟩ := hincoming
  have hmem : edge ∈ context.graph.incoming consumer :=
    mem_filter.mpr ⟨hedge, decide_eq_true hconsumer⟩
  have hsome : (context.graph.incoming consumer).isEmpty = false :=
    isEmpty_eq_false_iff.mpr (ne_nil_of_mem hmem)
  rw [evaluateJoin, hcontext]
  simp [hknown, hsome]

/-- Where the contracts pass, a unit to which edges lead has a join, which is the meet of
the required edges and shares them out, in whatever order they are listed. -/
theorem evaluateJoin_meets {hashes : SemanticHashes} {plan : SemanticPlan} {context : NWayContext}
    {consumer : String} (hcontext : nwayContext hashes plan = .ok context)
    (hknown : consumer ∈ context.graph.workUnits.map (·.workUnitId))
    (hincoming : ∃ edge ∈ context.graph.edges, edge.consumerWorkUnitId = consumer) :
    ∃ join, evaluateJoin hashes plan consumer = .evaluated join ∧
      join.IsMeet context.graph plan.offerDemandCompatibilities consumer ∧
      ∀ plan' context', nwayContext hashes plan' = .ok context' →
        Reordered plan plan' context.graph context'.graph →
        ∃ join', evaluateJoin hashes plan' consumer = .evaluated join' ∧
          join'.decision = join.decision ∧ join'.requiredEdgeIds = join.requiredEdgeIds ∧
          ∀ decision, join'.edgeIdsWith decision = join.edgeIdsWith decision := by
  obtain ⟨-, hcompatibilities, hpasses⟩ := nwayContext_ok_iff.mp hcontext
  refine ⟨_, evaluateJoin_eq hcontext hknown hincoming, ?_, ?_⟩
  · rw [← hcompatibilities]
    exact context.join_isMeet hashes consumer
  · rintro plan' context' hcontext' ⟨hworkUnits, hedges, hreordered⟩
    obtain ⟨-, hcompatibilities', -⟩ := nwayContext_ok_iff.mp hcontext'
    obtain ⟨edge, hedge, hconsumer⟩ := hincoming
    refine ⟨_, evaluateJoin_eq hcontext' (hworkUnits.mem_iff.mp hknown)
      ⟨edge, hedges.mem_iff.mp hedge, hconsumer⟩, ?_⟩
    have hnodup := hpasses.compatibilityEdges
    rw [← hcompatibilities] at hnodup
    rw [← hcompatibilities, ← hcompatibilities'] at hreordered
    exact join_of_reordered hnodup hreordered hedges

/-- Units of which the last is led to by the others. -/
def meetingUnits : List String :=
  ["read", "search", "lint", "write"]

def meetingPlan (edges : List SemanticDependencyEdge)
    (decide : SemanticDependencyEdge → Decision × List String × List String) : SemanticPlan :=
  let graph := plainGraph meetingUnits edges
  { planId := "plan"
    semanticExecutionGraph := some graph
    edgeSemanticDemands := edges.map (plainDemand graph)
    semanticOffers := meetingUnits.map (plainOffer graph)
    offerDemandCompatibilities := edges.map fun edge =>
      { plainCompatibility graph edge edge edge.producerWorkUnitId with
        decision := (decide edge).1
        effectiveConstraints := (decide edge).2.1
        disclosures := (decide edge).2.2 } }

def meetingContext (edges : List SemanticDependencyEdge)
    (decide : SemanticDependencyEdge → Decision × List String × List String) : NWayContext where
  graph := plainGraph meetingUnits edges
  compatibilities := (meetingPlan edges decide).offerDemandCompatibilities

theorem nwayContext_meetingPlan
    {decide : SemanticDependencyEdge → Decision × List String × List String}
    (hpasses : (nwayContext plainHashes (meetingPlan edges decide)).toOption.isSome = true) :
    nwayContext plainHashes (meetingPlan edges decide) = .ok (meetingContext edges decide) := by
  obtain ⟨⟨graph, compatibilities⟩, hcontext⟩ := exists_ok_of_toOption_isSome hpasses
  obtain ⟨hgraph, hcompatibilities, -⟩ := nwayContext_ok_iff.mp hcontext
  cases hgraph
  cases hcompatibilities
  exact hcontext

def meetingEdges : List SemanticDependencyEdge :=
  [plainEdge "read" "write" true, plainEdge "search" "write" true, plainEdge "lint" "write" false]

theorem write_mem_meetingUnits : "write" ∈ (meetingUnits.map plainUnit).map (·.workUnitId) := by
  decide

def conflicting (edge : SemanticDependencyEdge) : Decision × List String × List String :=
  if edge.producerWorkUnitId = "read" then (.insufficientEvidence, [], [])
  else if edge.producerWorkUnitId = "search" then (.blocked, [], [])
  else (.admitted, [], [])

/-- The same join in two orders. -/
theorem meetingPlan_meets : ∃ join,
    evaluateJoin plainHashes (meetingPlan meetingEdges conflicting) "write" = .evaluated join ∧
    join.IsMeet (plainGraph meetingUnits meetingEdges)
      (meetingPlan meetingEdges conflicting).offerDemandCompatibilities "write" ∧
    ∃ join', evaluateJoin plainHashes (meetingPlan meetingEdges.reverse conflicting) "write" =
      .evaluated join' ∧ join'.decision = join.decision := by
  have hcontext := @nwayContext_meetingPlan meetingEdges conflicting (by decide +kernel)
  have hcontext' := @nwayContext_meetingPlan meetingEdges.reverse conflicting (by decide +kernel)
  obtain ⟨join, hjoin, hmeet, hreordered⟩ := evaluateJoin_meets hcontext write_mem_meetingUnits
    ⟨_, mem_cons_self, rfl⟩
  obtain ⟨join', hjoin', hdecision, -⟩ := hreordered _ _ hcontext'
    ⟨List.Perm.refl _, (reverse_perm meetingEdges).symm, by decide +kernel⟩
  exact ⟨join, hjoin, hmeet, join', hjoin', hdecision⟩

end AIpinho.Semantics
