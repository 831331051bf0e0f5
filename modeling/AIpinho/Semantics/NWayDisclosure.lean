import AIpinho.Semantics.NWayJoins

/-!
# What joins disclose

A join lists the constraints of the required edges that are admitted with constraints. The loop
over the optional edges drops what their compatibilities ask for, and the truth facet does not
look at them.
-/

namespace AIpinho.Semantics

open List Lib SemanticExecutionGraph
open AIpinho.Runtime (isSpace)

theorem NWayContext.compatibilityFor_eq_some_iff {context : NWayContext}
    (hnodup : (context.compatibilities.map (·.edgeId)).Nodup) {edgeId : String}
    {item : OfferDemandCompatibility} :
    context.compatibilityFor edgeId = some item ↔
      item ∈ context.compatibilities ∧ item.edgeId = edgeId :=
  find?_key_eq_some_iff hnodup

section Lists

variable {context : NWayContext} (hnodup : (context.compatibilities.map (·.edgeId)).Nodup)
include hnodup

theorem mem_constrainedTexts {texts : OfferDemandCompatibility → List String}
    {edges : List SemanticDependencyEdge} {text : String} :
    text ∈ constrainedTexts context texts edges ↔
      ∃ edge ∈ edges, ∃ item ∈ context.compatibilities, item.edgeId = edge.edgeId ∧
        item.decision = .admittedWithConstraints ∧ text ∈ texts item := by
  rw [constrainedTexts, mem_flatMap]
  refine exists_congr fun edge => and_congr_right fun _ => ?_
  constructor
  · intro htext
    cases hfor : context.compatibilityFor edge.edgeId with
    | none => simp [hfor] at htext
    | some item =>
      obtain ⟨hitem, hedge⟩ := (context.compatibilityFor_eq_some_iff hnodup).mp hfor
      by_cases hdecision : item.decision = .admittedWithConstraints
      · exact ⟨item, hitem, hedge, hdecision, by simpa [hfor, hdecision] using htext⟩
      · simp [hfor, hdecision] at htext
  · rintro ⟨item, hitem, hedge, hdecision, htext⟩
    have hfor := (context.compatibilityFor_eq_some_iff hnodup).mpr ⟨hitem, hedge⟩
    simpa [hfor, hdecision] using htext

theorem decisionOf_eq_of_mem {item : OfferDemandCompatibility}
    (hitem : item ∈ context.compatibilities) :
    decisionOf context.compatibilities item.edgeId = item.decision := by
  have hfor := (context.compatibilityFor_eq_some_iff hnodup).mpr ⟨hitem, rfl⟩
  rw [context.decisionOf_eq, hfor, Option.map_some, Option.getD_some]

theorem mem_compatibilityIds {hashes : SemanticHashes} {consumer : String}
    {edge : SemanticDependencyEdge} (hedge : edge ∈ context.graph.edges)
    (hconsumer : edge.consumerWorkUnitId = consumer) {item : OfferDemandCompatibility}
    (hitem : item ∈ context.compatibilities) (hid : item.edgeId = edge.edgeId) :
    item.compatibilityId ∈ (context.join hashes consumer).compatibilityIds := by
  have hfor := (context.compatibilityFor_eq_some_iff hnodup).mpr ⟨hitem, hid⟩
  have hincoming : edge ∈ context.graph.incomingOf consumer edge.required := by
    rw [SemanticExecutionGraph.incomingOf, mem_insertionSort, mem_filter,
      SemanticExecutionGraph.incoming, mem_filter]
    simp [hedge, hconsumer]
  have hlisted : item.compatibilityId ∈
      compatibilityIdsOf context (context.graph.incomingOf consumer edge.required) :=
    mem_filterMap.mpr ⟨edge, hincoming, by rw [hfor]; rfl⟩
  simp only [NWayContext.join, lists_eq, (sortedTexts_perm _).mem_iff, mem_append]
  cases hrequired : edge.required with
  | true => exact .inl (hrequired ▸ hlisted)
  | false => exact .inr (hrequired ▸ hlisted)

theorem mem_uniqueTexts_constrainedTexts {texts : OfferDemandCompatibility → List String}
    {consumer text : String} :
    text ∈ uniqueTexts (constrainedTexts context texts (context.graph.incomingOf consumer true)) ↔
      strip isSpace text ≠ "" ∧ ∃ edge ∈ context.graph.requiredInto consumer,
        ∃ item ∈ context.compatibilities, item.edgeId = edge.edgeId ∧
          item.decision = .admittedWithConstraints ∧ text ∈ texts item := by
  rw [mem_uniqueTexts, mem_constrainedTexts hnodup, and_comm]
  simp only [(context.graph.incomingOf_perm consumer).mem_iff]

end Lists

variable {hashes : SemanticHashes} {graph : SemanticExecutionGraph}

variable {plan : SemanticPlan}

theorem evaluateJoin_eq_evaluated_iff {context : NWayContext}
    (hcontext : nwayContext hashes plan = .ok context) {consumer : String} {join : EvaluatedJoin} :
    evaluateJoin hashes plan consumer = .evaluated join ↔
      consumer ∈ context.graph.workUnits.map (·.workUnitId) ∧
      (∃ edge ∈ context.graph.edges, edge.consumerWorkUnitId = consumer) ∧
      join = context.join hashes consumer := by
  constructor
  · intro hevaluated
    rw [evaluateJoin, hcontext] at hevaluated
    dsimp only at hevaluated
    split at hevaluated
    · cases hevaluated
    rename_i hknown
    split at hevaluated
    · cases hevaluated
    rename_i hsome
    rw [List.isEmpty_iff] at hsome
    obtain ⟨edge, hedge⟩ := exists_mem_of_ne_nil _ hsome
    obtain ⟨hedge, hconsumer⟩ := mem_filter.mp hedge
    cases hevaluated
    exact ⟨not_not.mp hknown, ⟨edge, hedge, of_decide_eq_true hconsumer⟩, rfl⟩
  · rintro ⟨hknown, hincoming, rfl⟩
    exact evaluateJoin_eq hcontext hknown hincoming

theorem admits_iff (context : NWayContext) (hashes : SemanticHashes) (consumer : String) :
    .admittedWithConstraints ≤ (context.join hashes consumer).decision ↔
      ∀ edge ∈ context.graph.requiredInto consumer,
        .admittedWithConstraints ≤ decisionOf context.compatibilities edge.edgeId := by
  rw [le_isGLB_iff (context.join_isMeet hashes consumer).decision]
  simp [lowerBounds]

theorem join?_eq_some_iff {context : NWayContext}
    (hcontext : nwayContext hashes plan = .ok context) {consumer : String}
    {join : SemanticJoinEvaluation} :
    (evaluateJoin hashes plan consumer).join? = some join ↔
      consumer ∈ context.graph.workUnits.map (·.workUnitId) ∧
      (∃ edge ∈ context.graph.edges, edge.consumerWorkUnitId = consumer) ∧
      (context.join hashes consumer).toSemanticJoinEvaluation = join := by
  have hevaluated : (evaluateJoin hashes plan consumer).join? = some join ↔ ∃ evaluated,
      evaluateJoin hashes plan consumer = .evaluated evaluated ∧
        evaluated.toSemanticJoinEvaluation = join := by
    cases evaluateJoin hashes plan consumer <;> simp [JoinResult.join?]
  rw [hevaluated]
  simp only [evaluateJoin_eq_evaluated_iff hcontext]
  constructor
  · rintro ⟨evaluated, ⟨hknown, hincoming, rfl⟩, hjoin⟩
    exact ⟨hknown, hincoming, hjoin⟩
  · rintro ⟨hknown, hincoming, hjoin⟩
    exact ⟨_, ⟨hknown, hincoming, rfl⟩, hjoin⟩

theorem mem_projectedJoins_iff {context : NWayContext}
    (hcontext : nwayContext hashes plan = .ok context) {join : SemanticJoinEvaluation} :
    join ∈ projectedJoins hashes plan ↔ ∃ consumer,
      consumer ∈ context.graph.workUnits.map (·.workUnitId) ∧
      (∃ edge ∈ context.graph.edges, edge.consumerWorkUnitId = consumer) ∧
      (context.join hashes consumer).toSemanticJoinEvaluation = join := by
  have hconsumers : ∀ consumer, consumer ∈ context.graph.consumers ↔
      ∃ edge ∈ context.graph.edges, edge.consumerWorkUnitId = consumer := by
    intro consumer
    rw [SemanticExecutionGraph.consumers, (sortedTexts_perm _).mem_iff, mem_eraseDups, mem_map]
  rw [projectedJoins, (nwayContext_ok_iff.mp hcontext).1]
  simp only [mem_filterMap, hconsumers, join?_eq_some_iff hcontext]
  refine exists_congr fun consumer => ?_
  tauto

theorem nodup_projectedJoins {context : NWayContext}
    (hcontext : nwayContext hashes plan = .ok context) :
    ((projectedJoins hashes plan).map (·.consumerWorkUnitId)).Nodup := by
  have hnodup : context.graph.consumers.Nodup :=
    (sortedTexts_perm _).nodup_iff.mpr (eraseDups_nodup _)
  rw [projectedJoins, (nwayContext_ok_iff.mp hcontext).1, map_filterMap]
  refine hnodup.filterMap fun first second consumer hfirst hsecond => ?_
  have hconsumer : ∀ unit, consumer ∈ ((evaluateJoin hashes plan unit).join?).map
      (·.consumerWorkUnitId) → consumer = unit := by
    intro unit hunit
    obtain ⟨join, hjoin, rfl⟩ := Option.map_eq_some_iff.mp hunit
    obtain ⟨-, -, rfl⟩ := (join?_eq_some_iff hcontext).mp hjoin
    rfl
  exact (hconsumer first hfirst).symm.trans (hconsumer second hsecond)

/-- Contracts that pass are in order for the truth facet, with the projected joins. -/
theorem contractsBound_withJoins {context : NWayContext}
    (hcontext : nwayContext hashes plan = .ok context) :
    ContractsBound hashes context.graph (plan.withJoins hashes).toGraphContracts := by
  obtain ⟨-, -, hpasses⟩ := nwayContext_ok_iff.mp hcontext
  have hoffers : ∀ offer ∈ plan.semanticOffers, OfferBound hashes context.graph offer :=
    fun offer hoffer => offerFault_eq_none_iff.mp (hpasses.offers offer hoffer)
  refine ⟨hpasses.demandEdges, hpasses.offerUnits, hpasses.compatibilityEdges,
    nodup_projectedJoins hcontext, fun demand hdemand => ?_, hoffers,
    fun compatibility hcompatibility => ?_, ?_⟩
  · exact demandFault_eq_none_iff.mp (hpasses.demands demand hdemand)
  · exact (@compatibilityFault_eq_none_iff hashes context.graph
      (plan.withJoins hashes).toGraphContracts hoffers compatibility).mp
      (hpasses.compatibilities compatibility hcompatibility)
  · intro join hjoin
    obtain ⟨consumer, -, -, rfl⟩ := (mem_projectedJoins_iff hcontext).mp hjoin
    exact ⟨rfl, rfl, rfl⟩

theorem contractFacet_disclosures {contracts : GraphContracts} {revision : Option String}
    (hready : (contractStatus hashes graph contracts).1 = .ready) :
    (contractFacet hashes graph contracts revision).disclosures = [] := by
  obtain ⟨hedges, hjoins⟩ := contractStatus_eq_ready_iff.mp hready
  have hedge : edgesWith hashes graph contracts [.constrained] = [] :=
    filter_eq_nil_iff.mpr fun edgeId hmem => by simp [hedges edgeId hmem]
  have hjoin : joinsWith hashes graph contracts .constrained = [] :=
    filter_eq_nil_iff.mpr fun consumer hmem => by simp [hjoins consumer hmem]
  simp [contractFacet, hedge, hjoin]

theorem facetContent_ready_iff (hgraph : plan.semanticExecutionGraph = some graph) :
    (facetContent hashes plan).status = .ready ↔
      (facetContent hashes plan).safeToReportSuccess = true := by
  unfold facetContent
  rw [hgraph]
  dsimp only
  split
  · simp
  split
  · simp
  split
  · simp
  split
  · simp
  · have hstatus : ∀ revision,
        (contractFacet hashes graph plan.toGraphContracts revision).safeToReportSuccess = true ↔
          (contractStatus hashes graph plan.toGraphContracts).1 = .ready := fun revision =>
      decide_eq_true_iff
    exact (hstatus _).symm

theorem facetContent_disclosures (hready : (facetContent hashes plan).status = .ready) :
    (facetContent hashes plan).disclosures = [] := by
  unfold facetContent at hready ⊢
  split
  · rfl
  rename_i graph hgraph
  rw [hgraph] at hready
  dsimp only at hready
  split
  · rfl
  split
  · rfl
  split
  · rfl
  split
  · rfl
  · rename_i hverified hrequired hinvalidated hbound
    rw [if_neg hverified, if_neg hrequired, if_neg hinvalidated, if_neg hbound] at hready
    exact contractFacet_disclosures hready

theorem incomingRequired_perm (graph : SemanticExecutionGraph) (consumer : String) :
    (graph.incomingRequired consumer).Perm
      ((graph.requiredInto consumer).map (·.edgeId)) := by
  refine List.Perm.map _ ?_
  have hrequired : graph.requiredEdges.Perm (graph.edges.filter (·.required)) :=
    perm_insertionSort _ _
  refine (hrequired.filter _).trans (List.Perm.of_eq ?_)
  rw [filter_filter, SemanticExecutionGraph.requiredInto]
  exact filter_congr fun edge _ => by simp

/-- The required edges of a graph are admitted, and their demands are complete. -/
structure RequiredAdmitted (graph : SemanticExecutionGraph) (plan : SemanticPlan) : Prop where
  demands : ∀ edge ∈ graph.edges, edge.required = true →
    ∃ demand ∈ plan.edgeSemanticDemands, demand.edgeId = edge.edgeId ∧ demand.isPartial = false
  decisions : ∀ edge ∈ graph.edges, edge.required = true →
    decisionOf plan.offerDemandCompatibilities edge.edgeId = .admitted
  known : ∀ consumer ∈ graph.requiredJoinConsumers,
    consumer ∈ graph.workUnits.map (·.workUnitId)

theorem mem_requiredInto {consumer : String} {edge : SemanticDependencyEdge} :
    edge ∈ graph.requiredInto consumer ↔
      edge ∈ graph.edges ∧ edge.consumerWorkUnitId = consumer ∧ edge.required = true := by
  rw [SemanticExecutionGraph.requiredInto, mem_filter, decide_eq_true_eq]

theorem decisionOf_eq_iff {context : NWayContext}
    (hnodup : (context.compatibilities.map (·.edgeId)).Nodup) {edgeId : String}
    {decision : Decision} (hevidence : decision ≠ .insufficientEvidence) :
    decisionOf context.compatibilities edgeId = decision ↔
      ∃ item ∈ context.compatibilities, item.edgeId = edgeId ∧ item.decision = decision := by
  constructor
  · intro hdecision
    rw [context.decisionOf_eq] at hdecision
    cases hfor : context.compatibilityFor edgeId with
    | none => exact absurd (by simpa [hfor] using hdecision.symm) hevidence
    | some item =>
      obtain ⟨hitem, hedge⟩ := (context.compatibilityFor_eq_some_iff hnodup).mp hfor
      exact ⟨item, hitem, hedge, by simpa [hfor] using hdecision⟩
  · rintro ⟨item, hitem, rfl, hdecision⟩
    rw [decisionOf_eq_of_mem hnodup hitem, hdecision]

theorem allAdmitted_withJoins_iff {context : NWayContext}
    (hcontext : nwayContext hashes plan = .ok context) :
    AllAdmitted context.graph (plan.withJoins hashes).toGraphContracts ↔
      RequiredAdmitted context.graph plan := by
  obtain ⟨-, hcompatibilities, hpasses⟩ := nwayContext_ok_iff.mp hcontext
  have hnodup := hpasses.compatibilityEdges
  rw [← hcompatibilities] at hnodup
  constructor
  · intro hall
    refine ⟨hall.demands, fun edge hedge hrequired => ?_, fun consumer hconsumer => ?_⟩
    · rw [← hcompatibilities, decisionOf_eq_iff hnodup (by decide), hcompatibilities]
      exact hall.compatibilities edge hedge hrequired
    · obtain ⟨join, hjoin, rfl, -, -⟩ := hall.joins consumer
        (mem_requiredJoinConsumers.mp hconsumer)
      obtain ⟨consumer, hknown, -, rfl⟩ := (mem_projectedJoins_iff hcontext).mp hjoin
      exact hknown
  · rintro ⟨hdemands, hdecisions, hknown⟩
    refine ⟨hdemands, fun edge hedge hrequired => ?_, fun consumer hlength => ?_⟩
    · have hdecision := hdecisions edge hedge hrequired
      rw [← hcompatibilities, decisionOf_eq_iff hnodup (by decide), hcompatibilities] at hdecision
      exact hdecision
    · have hmem := hknown consumer
        (mem_requiredJoinConsumers.mpr hlength)
      have hperm := incomingRequired_perm context.graph consumer
      rw [hperm.length_eq, length_map] at hlength
      obtain ⟨edge, hedge⟩ := exists_mem_of_length_pos (Nat.zero_lt_of_lt hlength)
      obtain ⟨hedge, hconsumer, hrequired⟩ := mem_requiredInto.mp hedge
      have hmeet := context.join_isMeet hashes consumer
      refine ⟨_, (mem_projectedJoins_iff hcontext).mpr
        ⟨consumer, hmem, ⟨edge, hedge, hconsumer⟩, rfl⟩, rfl, ?_, ?_⟩
      · -- all decisions about required edges are the same
        have hset : {decision | ∃ edge ∈ context.graph.requiredInto consumer,
            decisionOf context.compatibilities edge.edgeId = decision} = {.admitted} := by
          ext decision
          constructor
          · rintro ⟨other, hother, rfl⟩
            obtain ⟨hother, -, hrequired⟩ := mem_requiredInto.mp hother
            rw [hcompatibilities]
            exact hdecisions other hother hrequired
          · rintro rfl
            refine ⟨edge, mem_requiredInto.mpr ⟨hedge, hconsumer, hrequired⟩, ?_⟩
            rw [hcompatibilities]
            exact hdecisions edge hedge hrequired
        have hdecision := hmeet.decision
        rw [hset] at hdecision
        exact hdecision.unique isGLB_singleton
      · exact hmeet.required.trans hperm.symm

/-- A compatibility that a join uses: it is the one of an incoming edge, and it is listed. -/
structure EvaluatedJoin.Uses (join : EvaluatedJoin) (graph : SemanticExecutionGraph)
    (plan : SemanticPlan) (item : OfferDemandCompatibility) : Prop where
  stored : item ∈ plan.offerDemandCompatibilities
  incoming : ∃ edge ∈ graph.edges, edge.consumerWorkUnitId = join.consumerWorkUnitId ∧
    edge.edgeId = item.edgeId
  listed : item.compatibilityId ∈ join.compatibilityIds

/-- Joins disclose what they rely on, and the truth facet is not ready without it. -/
structure DisclosesConstraints (hashes : SemanticHashes) (sha256 digits : FacetContent → String)
    (graph : SemanticExecutionGraph) (run : SemanticRun) : Prop where
  /-- An admitting join has the constraints and the disclosures of all compatibilities that
  it uses and that are admitted with constraints. -/
  joins : ∀ consumer join, evaluateJoin hashes run.plan consumer = .evaluated join →
    join.decision = .admitted ∨ join.decision = .admittedWithConstraints →
    ∀ item, join.Uses graph run.plan item → item.decision = .admittedWithConstraints →
      (∀ text ∈ item.effectiveConstraints, text ∈ join.effectiveConstraints) ∧
      ∀ text ∈ item.disclosures, text ∈ join.disclosures
  /-- A facet is ready without disclosures only if no join over several required edges uses
  a compatibility that is admitted with constraints. -/
  facet : ∀ facet, facet = evaluate hashes sha256 digits
      { run with plan := run.plan.withJoins hashes } →
    facet.status = .ready → facet.disclosures = [] →
    ∀ consumer ∈ graph.requiredJoinConsumers, ∀ join,
      evaluateJoin hashes run.plan consumer = .evaluated join →
      ∀ item, join.Uses graph run.plan item → item.decision ≠ .admittedWithConstraints

/-- The texts of a kind are not blank, and they are among those that the required edges into
the same unit ask for. -/
def SharesTexts (graph : SemanticExecutionGraph) (plan : SemanticPlan)
    (texts : OfferDemandCompatibility → List String) (consumer : String)
    (item : OfferDemandCompatibility) : Prop :=
  ∀ text ∈ texts item, strip isSpace text ≠ "" ∧ ∃ edge ∈ graph.requiredInto consumer,
    ∃ other ∈ plan.offerDemandCompatibilities, other.edgeId = edge.edgeId ∧
      other.decision = .admittedWithConstraints ∧ text ∈ texts other

/-- Required edges ask for all that optional edges ask for. -/
structure ConstraintsShared (graph : SemanticExecutionGraph) (plan : SemanticPlan) : Prop where
  /-- Where all required edges into a unit are admitted, an edge into it that is admitted with
constraints has no constraint and no disclosure that is blank or that no required edge has. -/
  joins : ∀ edge ∈ graph.edges, edge.consumerWorkUnitId ∈ graph.workUnits.map (·.workUnitId) →
    (∀ other ∈ graph.requiredInto edge.consumerWorkUnitId,
      .admittedWithConstraints ≤ decisionOf plan.offerDemandCompatibilities other.edgeId) →
    ∀ item ∈ plan.offerDemandCompatibilities, item.edgeId = edge.edgeId →
      item.decision = .admittedWithConstraints →
      SharesTexts graph plan (·.effectiveConstraints) edge.consumerWorkUnitId item ∧
      SharesTexts graph plan (·.disclosures) edge.consumerWorkUnitId item
  /-- Where all required edges of the graph are admitted and the result still stands, no
  optional edge into a unit with several required edges is admitted with constraints. -/
  facet : plan.isInvalidated = false → RequiredAdmitted graph plan → ∀ edge ∈ graph.edges,
    edge.required = false → edge.consumerWorkUnitId ∈ graph.requiredJoinConsumers →
      decisionOf plan.offerDemandCompatibilities edge.edgeId ≠ .admittedWithConstraints

section Run

variable {hashes : SemanticHashes} {sha256 digits : FacetContent → String} {run : SemanticRun}
  {context : NWayContext}

theorem evaluate_ready_iff (hcontext : nwayContext hashes run.plan = .ok context)
    {facet : SemanticTruthFacet} (hfacet : facet = evaluate hashes sha256 digits
      { run with plan := run.plan.withJoins hashes }) :
    facet.status = .ready ∧ facet.disclosures = [] ↔ context.graph.requiredEdges = [] ∨
        run.plan.isInvalidated = false ∧ RequiredAdmitted context.graph run.plan := by
  obtain ⟨hgraph, -, hpasses⟩ := nwayContext_ok_iff.mp hcontext
  have hready := @facetContent_ready_iff hashes context.graph (run.plan.withJoins hashes) hgraph
  rw [@facetContent_safe_iff context.graph hashes (run.plan.withJoins hashes) hgraph] at hready
  have hinvalidated : (run.plan.withJoins hashes).isInvalidated = run.plan.isInvalidated := rfl
  rw [hinvalidated, allAdmitted_withJoins_iff hcontext] at hready
  have hbound := contractsBound_withJoins hcontext
  simp only [hpasses.verified, hbound, true_and] at hready
  rw [← hready, hfacet]
  refine and_iff_left_of_imp fun hstatus => ?_
  change uniqueTexts (facetContent hashes (run.plan.withJoins hashes)).disclosures = []
  rw [facetContent_disclosures hstatus]
  rfl

variable {item : OfferDemandCompatibility}

theorem sharesTexts_iff (hcontext : nwayContext hashes run.plan = .ok context)
    {texts : OfferDemandCompatibility → List String} {consumer : String} :
    SharesTexts context.graph run.plan texts consumer item ↔ ∀ text ∈ texts item, text ∈ uniqueTexts
        (constrainedTexts context texts (context.graph.incomingOf consumer true)) := by
  obtain ⟨-, hcompatibilities, hpasses⟩ := nwayContext_ok_iff.mp hcontext
  have hnodup := hpasses.compatibilityEdges
  rw [← hcompatibilities] at hnodup
  simp only [mem_uniqueTexts_constrainedTexts hnodup, hcompatibilities]
  rfl

theorem join_lists_iff (hcontext : nwayContext hashes run.plan = .ok context) {consumer : String} :
    (∀ text ∈ item.effectiveConstraints,
        text ∈ (context.join hashes consumer).effectiveConstraints) ∧
      (∀ text ∈ item.disclosures, text ∈ (context.join hashes consumer).disclosures) ↔
    SharesTexts context.graph run.plan (·.effectiveConstraints) consumer item ∧
      SharesTexts context.graph run.plan (·.disclosures) consumer item := by
  rw [sharesTexts_iff hcontext, sharesTexts_iff hcontext]
  simp only [NWayContext.join, lists_eq]

theorem admits_iff_eq {decision : Decision} :
    decision = .admitted ∨ decision = .admittedWithConstraints ↔
      .admittedWithConstraints ≤ decision := by
  cases decision <;> simp [Decision.le_iff_rank_le, Decision.rank]

theorem join_uses_iff (hcontext : nwayContext hashes run.plan = .ok context) {consumer : String} :
    (context.join hashes consumer).Uses context.graph run.plan item ↔
      item ∈ run.plan.offerDemandCompatibilities ∧
      ∃ edge ∈ context.graph.edges, edge.consumerWorkUnitId = consumer ∧
        edge.edgeId = item.edgeId := by
  obtain ⟨-, hcompatibilities, hpasses⟩ := nwayContext_ok_iff.mp hcontext
  have hnodup := hpasses.compatibilityEdges
  rw [← hcompatibilities] at hnodup
  constructor
  · intro huses
    exact ⟨huses.stored, huses.incoming⟩
  · rintro ⟨hitem, edge, hedge, hconsumer, hid⟩
    refine ⟨hitem, ⟨edge, hedge, hconsumer, hid⟩, ?_⟩
    rw [← hcompatibilities] at hitem
    exact mem_compatibilityIds hnodup hedge hconsumer hitem hid.symm

/-- Joins disclose what they rely on exactly if the required edges ask for all that the optional
ones ask for, no blank text is asked for, and no join relies on an optional edge that is admitted
with constraints. -/
theorem disclosesConstraints_iff (hcontext : nwayContext hashes run.plan = .ok context) :
    DisclosesConstraints hashes sha256 digits context.graph run ↔
      ConstraintsShared context.graph run.plan := by
  obtain ⟨-, hcompatibilities, hpasses⟩ := nwayContext_ok_iff.mp hcontext
  have hnodup := hpasses.compatibilityEdges
  rw [← hcompatibilities] at hnodup
  constructor
  · rintro ⟨hjoins, hfacet⟩
    constructor
    · intro edge hedge hknown hadmitted item hitem hid hconstrained
      rw [← hcompatibilities] at hadmitted
      have hevaluated := evaluateJoin_eq hcontext hknown ⟨edge, hedge, rfl⟩
      have hdecision := admits_iff_eq.mpr ((admits_iff context hashes _).mpr hadmitted)
      have huses := (join_uses_iff hcontext).mpr ⟨hitem, edge, hedge, rfl, hid.symm⟩
      exact (join_lists_iff hcontext).mp (hjoins _ _ hevaluated hdecision item huses hconstrained)
    · intro hstands hrequired edge hedge _ hconsumer hdecision
      obtain ⟨hstatus, hdisclosures⟩ :=
        (evaluate_ready_iff hcontext rfl).mpr (.inr ⟨hstands, hrequired⟩)
      have hevaluated := evaluateJoin_eq hcontext (hrequired.known _ hconsumer) ⟨edge, hedge, rfl⟩
      rw [← hcompatibilities, decisionOf_eq_iff hnodup (by decide)] at hdecision
      obtain ⟨item, hitem, hid, hconstrained⟩ := hdecision
      rw [hcompatibilities] at hitem
      have huses := (join_uses_iff hcontext).mpr ⟨hitem, edge, hedge, rfl, hid.symm⟩
      exact hfacet _ rfl hstatus hdisclosures _ hconsumer _ hevaluated item huses hconstrained
  · rintro ⟨hjoins, hfacet⟩
    constructor
    · intro consumer join hevaluated hdecision item huses hconstrained
      obtain ⟨hknown, -, rfl⟩ := (evaluateJoin_eq_evaluated_iff hcontext).mp hevaluated
      obtain ⟨hitem, edge, hedge, rfl, hid⟩ := (join_uses_iff hcontext).mp huses
      have hadmitted := (admits_iff context hashes _).mp (admits_iff_eq.mp hdecision)
      rw [hcompatibilities] at hadmitted
      exact (join_lists_iff hcontext).mpr
        (hjoins edge hedge hknown hadmitted item hitem hid.symm hconstrained)
    · intro facet hfacetEq hstatus hdisclosures consumer hconsumer join hevaluated item huses
        hconstrained
      obtain ⟨-, -, rfl⟩ := (evaluateJoin_eq_evaluated_iff hcontext).mp hevaluated
      obtain ⟨hitem, edge, hedge, rfl, hid⟩ := (join_uses_iff hcontext).mp huses
      have hdecision : decisionOf run.plan.offerDemandCompatibilities edge.edgeId =
          .admittedWithConstraints := by
        rw [← hcompatibilities, decisionOf_eq_iff hnodup (by decide), hcompatibilities]
        exact ⟨item, hitem, hid.symm, hconstrained⟩
      rcases (evaluate_ready_iff hcontext hfacetEq).mp ⟨hstatus, hdisclosures⟩ with
        hnone | ⟨hstands, hrequired⟩
      · have hlength := mem_requiredJoinConsumers.mp hconsumer
        simp [SemanticExecutionGraph.incomingRequired, hnone] at hlength
      · cases hkind : edge.required with
        | false => exact hfacet hstands hrequired edge hedge hkind hconsumer hdecision
        | true =>
          have hadmitted := hrequired.decisions edge hedge hkind
          rw [hdecision] at hadmitted
          cases hadmitted

end Run

def meetingRun (decide : SemanticDependencyEdge → Decision × List String × List String) :
    SemanticRun where
  runId := "run"
  taskId := "task"
  plan := meetingPlan meetingEdges decide

def alike (_ : SemanticDependencyEdge) : Decision × List String × List String :=
  (.admittedWithConstraints, ["read only"], [])

/-- What the optional edge asks for is asked for by the required edges. -/
theorem shared_constraint_disclosed : DisclosesConstraints plainHashes (fun _ => "") (fun _ => "")
      (plainGraph meetingUnits meetingEdges) (meetingRun alike) := by
  have hcontext := @nwayContext_meetingPlan meetingEdges alike (by decide +kernel)
  have hconsumer : ∀ edge ∈ meetingEdges, edge.consumerWorkUnitId = "write" := by decide +kernel
  refine (@disclosesConstraints_iff plainHashes _ _ (meetingRun alike) _ hcontext).mpr ⟨?_, ?_⟩
  · intro edge hedge _ _ item hitem _ _
    obtain ⟨other, -, rfl⟩ := mem_map.mp hitem
    have hrequired : plainEdge "read" "write" true ∈
        (plainGraph meetingUnits meetingEdges).requiredInto edge.consumerWorkUnitId :=
      mem_requiredInto.mpr ⟨mem_cons_self, (hconsumer edge hedge).symm, rfl⟩
    refine ⟨fun text htext => ?_, fun text htext => by cases htext⟩
    obtain rfl := mem_singleton.mp htext
    exact ⟨by decide +kernel, _, hrequired, _, mem_map_of_mem mem_cons_self, rfl, rfl,
      mem_singleton.mpr rfl⟩
  · intro _ hadmitted
    have hdecision := hadmitted.decisions (plainEdge "read" "write" true) mem_cons_self rfl
    exact absurd hdecision (by decide +kernel)

def constrainedOption (edge : SemanticDependencyEdge) : Decision × List String × List String :=
  if edge.required then (.admitted, [], [])
  else (.admittedWithConstraints, ["lint findings are advisory"], ["missing_truth:lint scope"])

theorem nwayContext_constrainedOption :
    nwayContext plainHashes (meetingRun constrainedOption).plan =
      .ok (meetingContext meetingEdges constrainedOption) :=
  nwayContext_meetingPlan (by decide)

/-- The contracts pass, the join over the three edges is admitted, and it does not list the
constraint. -/
theorem optional_constraint_dropped : nwayContext plainHashes (meetingRun constrainedOption).plan =
      .ok (meetingContext meetingEdges constrainedOption) ∧
    ¬DisclosesConstraints plainHashes (fun _ => "") (fun _ => "")
      (plainGraph meetingUnits meetingEdges) (meetingRun constrainedOption) := by
  refine ⟨nwayContext_constrainedOption, ?_⟩
  rintro ⟨hjoins, -⟩
  have hevaluated := evaluateJoin_eq nwayContext_constrainedOption write_mem_meetingUnits
    ⟨_, mem_cons_self, rfl⟩
  have hlisted : "lint findings are advisory" ∉ ((meetingContext meetingEdges
      constrainedOption).join plainHashes "write").effectiveConstraints := by decide +kernel
  have hdecision : ((meetingContext meetingEdges constrainedOption).join plainHashes
      "write").decision = .admitted := by decide +kernel
  have hedge := mem_cons_of_mem (plainEdge "read" "write" true)
    (mem_cons_of_mem (plainEdge "search" "write" true)
      (mem_singleton.mpr (Eq.refl (plainEdge "lint" "write" false))))
  have huses := (join_uses_iff nwayContext_constrainedOption).mpr
    ⟨mem_map_of_mem hedge, _, hedge, rfl, rfl⟩
  exact hlisted ((hjoins _ _ hevaluated (.inl hdecision) _ huses rfl).1 _ mem_cons_self)

end AIpinho.Semantics
