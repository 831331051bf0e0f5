import AIpinho.Semantics.Activation
import AIpinho.Semantics.Evidence
import AIpinho.Semantics.RevisionChains

/-!
# The history of activated graphs

Each revision is linked to the one before it, and the graph it was made from is archived with
its contracts. A plan whose contracts are not bound to its graph is never revised.
-/

namespace AIpinho.Semantics

open List Lib

/-- Contracts that are bound to a graph. -/
structure BoundTo (graph : SemanticExecutionGraph) (contracts : GraphContracts) : Prop where
  demands : ∀ demand ∈ contracts.edgeSemanticDemands, demand.graphRef = graph.ref
  offers : ∀ offer ∈ contracts.semanticOffers, offer.graphRef = graph.ref
  compatibilities : ∀ compatibility ∈ contracts.offerDemandCompatibilities,
    compatibility.graphRef = graph.ref
  neighborhoods : ∀ neighborhood ∈ contracts.semanticTopologyNeighborhoods,
    neighborhood.graphRef = graph.ref
  joins : ∀ join ∈ contracts.semanticJoinEvaluations, join.graphRef = graph.ref

theorem validateContracts_ok_iff {κ : Type} {kind : String} {verify : κ → Bool}
    {ref : κ → String × String} {parent : SemanticExecutionGraph} {contracts : List κ} :
    validateContracts kind verify ref parent contracts = .ok () ↔
      ∀ contract ∈ contracts, verify contract = true ∧ ref contract = parent.ref := by
  simp only [validateContracts, checkEach_ok_iff, demand_bind_ok_iff, demand_ok_iff]

variable {hashes : SemanticHashes} {graph : SemanticExecutionGraph} {first : SemanticPlan}

theorem validateCurrentContracts_ok {contracts : GraphContracts} {parent : SemanticExecutionGraph}
    (h : validateCurrentContracts hashes contracts parent = .ok ()) : BoundTo parent contracts := by
  simp only [validateCurrentContracts, checks_bind_ok_iff, validateContracts_ok_iff] at h
  obtain ⟨hdemands, hoffers, hcompatibilities, hneighborhoods, hjoins⟩ := h
  exact {
    demands := fun demand hmem => (hdemands demand hmem).2
    offers := fun offer hmem => (hoffers offer hmem).2
    compatibilities := fun compatibility hmem => (hcompatibilities compatibility hmem).2
    neighborhoods := fun neighborhood hmem => (hneighborhoods neighborhood hmem).2
    joins := fun join hmem => (hjoins join hmem).2 }

variable {plan : SemanticPlan} {str : Json → String}

theorem validateRevisionChain_ok {revision : SemanticGraphRevision}
    (h : validateRevisionChain plan revision = .ok ()) :
    (revision.revisionNumber, revision.parentRevisionId) = plan.nextRevision := by
  unfold validateRevisionChain at h
  unfold SemanticPlan.nextRevision
  cases hlast : plan.semanticGraphRevisions.getLast? with
  | none =>
    simp only [hlast, demand_bind_ok_iff] at h
    obtain ⟨hnumber, hparent, -⟩ := h
    rw [hnumber, hparent]
  | some last =>
    simp only [hlast, demand_bind_ok_iff] at h
    obtain ⟨-, hnumber, hparent, -⟩ := h
    rw [hnumber, hparent]

theorem demandContext_ok {edgeId : String} {context : DemandContext}
    (h : demandContext hashes plan edgeId = .ok context) :
    plan.semanticExecutionGraph = some context.graph := by
  unfold demandContext at h
  cases hgraph : plan.semanticExecutionGraph with
  | none =>
    rw [hgraph] at h
    cases h
  | some graph =>
    simp only [hgraph, demand_bind_ok_iff] at h
    obtain ⟨-, h⟩ := h
    split at h
    · cases h
    simp only [demand_bind_ok_iff] at h
    obtain ⟨-, -, h⟩ := h
    split at h
    · cases h
    split at h
    · cases h
    split at h
    · cases h
      rfl
    · cases h

theorem compileForEdge_demand {edgeId : String} {compilation : EdgeSemanticDemandCompilation}
    (h : compileForEdge hashes str plan edgeId = some compilation)
    (hgraph : plan.semanticExecutionGraph = some graph) {demand : EdgeSemanticDemand}
    (hdemand : compilation.demand = some demand) : demand.graphRef = graph.ref := by
  unfold compileForEdge at h
  split at h
  · cases h
    cases hdemand
  rename_i context hcontext
  obtain rfl : context.graph = graph :=
    Option.some.inj ((demandContext_ok hcontext).symm.trans hgraph)
  split at h
  · cases h
  split at h
  · cases h
    cases hdemand
  split at h
  · cases h
    cases hdemand
    rfl
  · cases h
    cases hdemand
    rfl
  · cases h
    cases hdemand

theorem recompileDemands_ok (hgraph : plan.semanticExecutionGraph = some graph)
    {edges : List SemanticDependencyEdge} {demands : List EdgeSemanticDemand}
    (h : recompileDemands hashes str plan edges = some (.ok demands)) :
    ∀ demand ∈ demands, demand.graphRef = graph.ref := by
  induction edges generalizing demands with
  | nil =>
    cases h
    exact fun _ hmem => absurd hmem not_mem_nil
  | cons edge edges ih =>
    unfold recompileDemands at h
    cases hcompile : compileForEdge hashes str plan edge.edgeId with
    | none =>
      simp only [hcompile] at h
      cases h
    | some compilation =>
      simp only [hcompile] at h
      split at h
      · rename_i demand _ hdemand
        obtain ⟨rest, hrest, h⟩ := Option.map_eq_some_iff.mp h
        cases rest with
        | error reason => cases h
        | ok rest =>
          cases h
          rw [forall_mem_cons]
          exact ⟨compileForEdge_demand hcompile hgraph hdemand, ih hrest⟩
      · cases h

/-- What a call has checked when it activates a child. -/
structure Activates (hashes : SemanticHashes) (plan : SemanticPlan) (activation : Activation)
    (demands : List EdgeSemanticDemand) : Prop where
  parent : plan.semanticExecutionGraph = some activation.parent
  verifiedParent : hashes.verifyGraph activation.parent = true
  parentRef : activation.revision.parentRef = activation.parent.ref
  childRef : activation.revision.childRef = activation.child.ref
  next : (activation.revision.revisionNumber, activation.revision.parentRevisionId) =
    plan.nextRevision
  contracts : BoundTo activation.parent plan.toGraphContracts
  demands : ∀ demand ∈ demands, demand.graphRef = activation.child.ref

theorem activationOf_ok {application : SemanticGraphRevisionApplication} {activation : Activation}
    (h : activationOf hashes plan application = .ok activation) :
    plan.semanticExecutionGraph = some activation.parent ∧
      hashes.verifyGraph activation.parent = true := by
  unfold activationOf at h
  split at h
  · split at h
    · cases h
    rename_i parent hparent
    simp only [demand_bind_ok_iff, Except.ok.injEq] at h
    obtain ⟨hverify, -, -, rfl⟩ := h
    exact ⟨hparent, hverify⟩
  · cases h

/-- An activation is refused and leaves the plan, or archives the active contracts. -/
theorem activate_cases (hashes : SemanticHashes) (str : Json → String) (plan : SemanticPlan)
    (application : SemanticGraphRevisionApplication) :
    ((∀ result, (activate hashes str plan application).1 = some result →
        result.status ≠ .activated) ∧ (activate hashes str plan application).2 = plan) ∨
      (∃ result, (activate hashes str plan application).1 = some result ∧
        result.status = .activated) ∧
      ∃ activation demands, Activates hashes plan activation demands ∧
        (activate hashes str plan application).2 =
          plan.activated activation (buildSnapshot hashes plan activation.parent) demands := by
  have hrefused : ∀ (status : ActivationStatus) (reason : String), status ≠ .activated →
      ∀ result, some (refusedActivation status reason) = some result →
        result.status ≠ .activated := by
    rintro status reason hstatus result hresult
    cases hresult
    exact hstatus
  unfold activate
  cases hactivation : activationOf hashes plan application with
  | error reason => exact .inl ⟨hrefused _ reason (by decide), rfl⟩
  | ok activation =>
    simp only
    cases hcheck : checkActivation hashes plan activation with
    | error reason => exact .inl ⟨hrefused _ reason (by decide), rfl⟩
    | ok _ =>
      simp only
      split
      · exact .inl ⟨nofun, rfl⟩
      · exact .inl ⟨hrefused _ _ (by decide), rfl⟩
      · rename_i demands hdemands
        obtain ⟨hparent, hverify⟩ := activationOf_ok hactivation
        simp only [checkActivation, checks_bind_ok_iff, demand_ok_iff] at hcheck
        obtain ⟨hparentRef, hchildRef, hchain, hcontracts⟩ := hcheck
        refine .inr ⟨⟨_, rfl, rfl⟩, activation, demands, ?_, rfl⟩
        exact {
          parent := hparent
          verifiedParent := hverify
          parentRef := hparentRef
          childRef := hchildRef
          next := validateRevisionChain_ok hchain
          contracts := validateCurrentContracts_ok hcontracts
          demands := recompileDemands_ok rfl hdemands }

theorem activate_eq_self {application : SemanticGraphRevisionApplication}
    (h : ∀ result, (activate hashes str plan application).1 = some result →
      result.status ≠ .activated) : (activate hashes str plan application).2 = plan := by
  rcases activate_cases hashes str plan application with
    ⟨-, hsame⟩ | ⟨⟨result, hresult, hstatus⟩, -⟩
  · exact hsame
  · exact absurd hstatus (h result hresult)

/-- A snapshot holds the graph that a revision was made from, with its contracts. -/
structure Archives (hashes : SemanticHashes) (snapshot : SemanticGraphHistorySnapshot)
    (revision : SemanticGraphRevision) : Prop where
  graph : snapshot.graph.ref = revision.parentRef
  verified : hashes.verifyGraph snapshot.graph = true
  contracts : BoundTo snapshot.graph snapshot.toGraphContracts

/-- What the revisions of a plan have made of it: they lead from one graph to another, and
there is one more snapshot for each. -/
structure Revised (hashes : SemanticHashes) (first plan : SemanticPlan)
    (graph active : SemanticExecutionGraph) (snapshots : List SemanticGraphHistorySnapshot) :
    Prop where
  initial : first.semanticExecutionGraph = some graph
  current : plan.semanticExecutionGraph = some active
  linked : Linked none 1 graph.ref active.ref plan.semanticGraphRevisions
  history : plan.semanticGraphHistory = first.semanticGraphHistory ++ snapshots
  archived : List.Forall₂ (Archives hashes) snapshots plan.semanticGraphRevisions

theorem Revised.refl (hashes : SemanticHashes) (hgraph : plan.semanticExecutionGraph = some graph)
    (hnone : plan.semanticGraphRevisions = []) :
    Revised hashes plan plan graph graph [] where
  initial := hgraph
  current := hgraph
  linked := by
    rw [hnone]
    rfl
  history := (append_nil _).symm
  archived := by
    rw [hnone]
    exact .nil

theorem Revised.activated {active : SemanticExecutionGraph}
    {snapshots : List SemanticGraphHistorySnapshot}
    (h : Revised hashes first plan graph active snapshots) {activation : Activation}
    {demands : List EdgeSemanticDemand} (hactivates : Activates hashes plan activation demands) :
    Revised hashes first
      (plan.activated activation (buildSnapshot hashes plan activation.parent) demands)
      graph activation.child
      (snapshots ++ [buildSnapshot hashes plan activation.parent]) where
  initial := h.initial
  current := rfl
  linked := by
    have hparent : activation.parent = active :=
      Option.some.inj (hactivates.parent.symm.trans h.current)
    obtain ⟨hnumber, hparentRevision⟩ := Prod.mk.inj (hactivates.next.trans h.linked.nextRevision)
    rw [← hactivates.childRef]
    refine h.linked.concat hnumber (hparentRevision.trans Option.or_none.symm) ?_
    rw [← hparent]
    exact hactivates.parentRef
  history := by
    rw [← append_assoc, ← h.history]
    rfl
  archived := by
    refine rel_append h.archived (.cons ?_ .nil)
    exact {
      graph := hactivates.parentRef.symm
      verified := hactivates.verifiedParent
      contracts := hactivates.contracts }

/-- The plan is the first, or was revised from it and is bound to its active contracts. -/
def KeepsHistory (hashes : SemanticHashes) (first plan : SemanticPlan) : Prop :=
  plan = first ∨ ∃ graph active snapshots,
    Revised hashes first plan graph active snapshots ∧ BoundTo active plan.toGraphContracts

theorem KeepsHistory.activate (hnone : first.semanticGraphRevisions = [])
    (h : KeepsHistory hashes first plan) (str : Json → String)
    (application : SemanticGraphRevisionApplication) :
    KeepsHistory hashes first (Semantics.activate hashes str plan application).2 := by
  rcases activate_cases hashes str plan application with
    ⟨-, hsame⟩ | ⟨-, activation, demands, hactivates, hplan⟩
  · rw [hsame]
    exact h
  · have hrevised : ∃ graph active snapshots, Revised hashes first plan graph active snapshots := by
      rcases h with rfl | ⟨graph, active, snapshots, hrevised, -⟩
      · exact ⟨_, _, _, Revised.refl hashes hactivates.parent hnone⟩
      · exact ⟨graph, active, snapshots, hrevised⟩
    obtain ⟨graph, active, snapshots, hrevised⟩ := hrevised
    rw [hplan]
    refine .inr ⟨graph, activation.child, _, hrevised.activated hactivates, ?_⟩
    exact {
      demands := hactivates.demands
      offers := fun _ hmem => absurd hmem not_mem_nil
      compatibilities := fun _ hmem => absurd hmem not_mem_nil
      neighborhoods := fun _ hmem => absurd hmem not_mem_nil
      joins := fun _ hmem => absurd hmem not_mem_nil }

theorem KeepsHistory.activateAll (hnone : first.semanticGraphRevisions = [])
    (h : KeepsHistory hashes first plan) (str : Json → String)
    (applications : List SemanticGraphRevisionApplication) :
    KeepsHistory hashes first (Semantics.activateAll hashes str plan applications) := by
  induction applications generalizing plan with
  | nil => exact h
  | cons application applications ih => exact ih (h.activate hnone str application)

/-- From a plan without revisions, any sequence of calls of `activate` keeps one history, and
a call that does not activate a child leaves the plan as it is. -/
theorem activations_keep_history (hashes : SemanticHashes) (str : Json → String)
    {first : SemanticPlan} (hnone : first.semanticGraphRevisions = [])
    (applications : List SemanticGraphRevisionApplication) :
    KeepsHistory hashes first (activateAll hashes str first applications) ∧
      ∀ application, (∀ result,
          (activate hashes str (activateAll hashes str first applications) application).1 =
            some result → result.status ≠ .activated) →
        (activate hashes str (activateAll hashes str first applications) application).2 =
          activateAll hashes str first applications :=
  ⟨KeepsHistory.activateAll hnone (.inl rfl) str applications, fun _ => activate_eq_self⟩

def firstRevision (parent child : SemanticExecutionGraph) : SemanticGraphRevisionApplication where
  status := .applied
  revision := some {
    revisionNumber := 1
    parentRevisionId := none
    parentGraphId := parent.semanticGraphId
    parentGraphAuthoritySha256 := parent.authoritySha256
    childGraphId := child.semanticGraphId
    childGraphAuthoritySha256 := child.authoritySha256
    revisionIntentSha256 := "intent"
    reason := "replanned"
    provenance := []
    addedWorkUnitIds := []
    addedEdgeIds := []
    removedWorkUnitIds := []
    removedEdgeIds := []
    edgesRequiringDemandRecompile := []
    revisionId := "first"
    authoritySha256 := "revision:" ++ child.semanticGraphId }
  childGraph := some child

def offeringPlan (graph : SemanticExecutionGraph) (offers : List SemanticOffer) : SemanticPlan :=
  { (smallRun [{ stepId := "read" }, { stepId := "write" }]).plan with
    semanticExecutionGraph := some graph
    semanticOffers := offers }

/-- Two units without an edge. -/
def unlinkedGraph : SemanticExecutionGraph := plainGraph ["read", "write"] []

def linkedGraph : SemanticExecutionGraph :=
  plainGraph ["read", "write"] [plainEdge "read" "write" true]

/-- The first call activates the child and the second one is refused. -/
theorem repeated_revision_keeps_history :
    (activateAll plainHashes (fun _ => "") (offeringPlan unlinkedGraph [])
      [firstRevision unlinkedGraph linkedGraph,
        firstRevision unlinkedGraph linkedGraph]).semanticGraphRevisions.length = 1 ∧
    KeepsHistory plainHashes (offeringPlan unlinkedGraph [])
      (activateAll plainHashes (fun _ => "") (offeringPlan unlinkedGraph [])
        [firstRevision unlinkedGraph linkedGraph, firstRevision unlinkedGraph linkedGraph]) :=
  ⟨by decide +kernel, (activations_keep_history _ _ rfl _).1⟩

/-- The offer of the plan is bound to another graph. A revision is refused for this, and the
offer stays. -/
theorem misbound_offer_stays :
    (activate plainHashes (fun _ => "") (offeringPlan unlinkedGraph [plainOffer linkedGraph "read"])
      (firstRevision unlinkedGraph linkedGraph)).1.map (·.reasonCodes) =
      some ["GRAPH_ACTIVATION_OFFER_GRAPH_BINDING_MISMATCH"] ∧
    (offeringPlan unlinkedGraph [plainOffer linkedGraph "read"]).semanticGraphRevisions = [] ∧
    (activate plainHashes (fun _ => "") (offeringPlan unlinkedGraph [plainOffer linkedGraph "read"])
      (firstRevision unlinkedGraph linkedGraph)).2.semanticExecutionGraph = some unlinkedGraph ∧
    ∃ offer ∈ (activate plainHashes (fun _ => "")
        (offeringPlan unlinkedGraph [plainOffer linkedGraph "read"])
        (firstRevision unlinkedGraph linkedGraph)).2.semanticOffers,
      offer.graphRef ≠ unlinkedGraph.ref := by
  have hrefused : (activate plainHashes (fun _ => "")
      (offeringPlan unlinkedGraph [plainOffer linkedGraph "read"])
      (firstRevision unlinkedGraph linkedGraph)).2 =
      offeringPlan unlinkedGraph [plainOffer linkedGraph "read"] := rfl
  rw [hrefused]
  exact ⟨by decide +kernel, rfl, rfl, _, mem_singleton_self _, by decide +kernel⟩

end AIpinho.Semantics
