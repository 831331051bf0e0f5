import AIpinho.Semantics.Evidence

/-!
# Required edges for explicit dependencies

The structural compilation makes a required edge for each explicit dependency between two units.
A proposed grouping is only asked for some edge, and of several with the same ends and relation
the first is kept.
-/

namespace AIpinho.Semantics

open List Lib Option

def proposedSignature (units : KeyedUnits) (proposed : SemanticDependencyEdgeCandidate) :
    Option (String × String × SemanticEdgeRelation) :=
  match List.lookup proposed.producerUnitKey units,
      List.lookup proposed.consumerUnitKey units with
  | some producer, some consumer =>
    some (producer.workUnitId, consumer.workUnitId, proposed.relation)
  | _, _ => none

def firstRequired (edges : List SemanticDependencyEdge)
    (signature : String × String × SemanticEdgeRelation) : Option Bool :=
  (edges.find? fun edge => edge.signature = signature).map (·.required)

def firstProposed (units : KeyedUnits) (candidates : List SemanticDependencyEdgeCandidate)
    (signature : String × String × SemanticEdgeRelation) : Option Bool :=
  (candidates.find? fun proposed => proposedSignature units proposed = some signature).map
    (·.required)

variable {units : KeyedUnits} {edges : List SemanticDependencyEdge} {hashes : SemanticHashes}

theorem firstProposed_cons {proposed : SemanticDependencyEdgeCandidate}
    {own : String × String × SemanticEdgeRelation}
    (hown : proposedSignature units proposed = some own)
    (rest : List SemanticDependencyEdgeCandidate)
    (signature : String × String × SemanticEdgeRelation) :
    firstProposed units (proposed :: rest) signature =
      if own = signature then some proposed.required else firstProposed units rest signature := by
  rw [firstProposed, find?_cons, hown]
  by_cases h : own = signature
  · simp [h]
  · simp [h, firstProposed]

theorem firstRequired_concat (edges : List SemanticDependencyEdge) (edge : SemanticDependencyEdge)
    (signature : String × String × SemanticEdgeRelation) :
    firstRequired (edges ++ [edge]) signature = (firstRequired edges signature).or
      (if edge.signature = signature then some edge.required else none) := by
  rw [firstRequired, firstRequired, find?_append, find?_singleton]
  by_cases h : edge.signature = signature
  · cases edges.find? fun edge => edge.signature = signature <;> simp [h]
  · simp [h]

theorem firstRequired_isSome_iff {signature : String × String × SemanticEdgeRelation} :
    (firstRequired edges signature).isSome ↔ signature ∈ edges.map (·.signature) := by
  rw [firstRequired, isSome_map, find?_isSome]
  simp

variable {context : CompilerContext}

theorem compileEdges_firstRequired {candidates : List SemanticDependencyEdgeCandidate}
    {edges' : List SemanticDependencyEdge}
    (h : compileEdges hashes context units edges candidates = .ok edges')
    (signature : String × String × SemanticEdgeRelation) :
    firstRequired edges' signature =
      (firstRequired edges signature).or (firstProposed units candidates signature) := by
  induction candidates generalizing edges with
  | nil =>
    rw [← Except.ok.inj h]
    simp [firstProposed]
  | cons proposed rest ih =>
    rw [compileEdges] at h
    split at h
    · rename_i producer consumer hproducer hconsumer
      have hown : proposedSignature units proposed =
          some (producer.workUnitId, consumer.workUnitId, proposed.relation) := by
        rw [proposedSignature, hproducer, hconsumer]
      rw [firstProposed_cons hown]
      split at h
      · cases h
      split at h
      · -- the proposed edge is dropped, since there is one with its signature
        rename_i hold
        rw [ih h]
        split
        · rename_i hsignature
          rw [contains_iff_mem, hsignature, ← firstRequired_isSome_iff] at hold
          obtain ⟨required, hrequired⟩ := isSome_iff_exists.mp hold
          rw [hrequired, some_or, some_or]
        · rfl
      · rw [ih h, firstRequired_concat, Option.or_assoc]
        congr 1
        change (if (producer.workUnitId, consumer.workUnitId, proposed.relation) = signature then
          some proposed.required else none).or _ = _
        split
        · rw [some_or]
        · rw [none_or]
    · cases h

theorem firstRequired_eq_true_iff (hsignatures : (edges.map (·.signature)).Nodup)
    {signature : String × String × SemanticEdgeRelation} :
    firstRequired edges signature = some true ↔
      ∃ edge ∈ edges, edge.signature = signature ∧ edge.required = true := by
  rw [firstRequired, map_eq_some_iff]
  constructor
  · rintro ⟨edge, hfind, hrequired⟩
    exact ⟨edge, mem_of_find?_eq_some hfind, by simpa using find?_some hfind, hrequired⟩
  · rintro ⟨edge, hedge, rfl, hrequired⟩
    refine ⟨edge, ?_, hrequired⟩
    cases hfind : edges.find? fun other => other.signature = edge.signature with
    | none => simpa using find?_eq_none.mp hfind edge hedge
    | some other =>
      have hother : other.signature = edge.signature := by simpa using find?_some hfind
      rw [inj_on_of_nodup_map hsignatures (mem_of_find?_eq_some hfind) hedge hother]

theorem compileEdges_signatures {candidates : List SemanticDependencyEdgeCandidate}
    {edges' : List SemanticDependencyEdge}
    (h : compileEdges hashes context units edges candidates = .ok edges') :
    ∀ proposed ∈ candidates, ∃ signature, proposedSignature units proposed = some signature := by
  induction candidates generalizing edges with
  | nil => simp
  | cons proposed rest ih =>
    rw [compileEdges] at h
    split at h
    · rename_i producer consumer hproducer hconsumer
      have hrest : ∀ proposed ∈ rest, ∃ signature,
          proposedSignature units proposed = some signature := by
        split at h
        · cases h
        split at h
        · exact ih h
        · exact ih h
      exact forall_mem_cons.mpr
        ⟨⟨_, by rw [proposedSignature, hproducer, hconsumer]⟩, hrest⟩
    · cases h

def candidateUnits (hashes : SemanticHashes) (run : SemanticRun)
    (candidate : SemanticWorkDecompositionCandidate) : Except String KeyedUnits := do
  let context ← compilerContext hashes run
  compileUnits hashes context [] candidate.workUnits

/-- A step of the consumer depends on one of the producer, and they are two units. -/
def UnitDependency (canonical : CanonicalExecutionPlan) (units : List SemanticWorkUnitContract)
    (producer consumer : String) : Prop :=
  producer ≠ consumer ∧ ∃ step ∈ canonical.executionSteps, ∃ source ∈ step.dependsOn,
    (∃ unit ∈ units, unit.workUnitId = producer ∧ source ∈ unit.sourceStepIds) ∧
    ∃ unit ∈ units, unit.workUnitId = consumer ∧ step.stepId ∈ unit.sourceStepIds

/-- The evidence for an edge is neither missing nor blocked: there is a demand that is not
partial and an admitted compatibility. -/
def Supported (contracts : GraphContracts) (edge : SemanticDependencyEdge) : Prop :=
  (∃ demand ∈ contracts.edgeSemanticDemands, demand.edgeId = edge.edgeId ∧
    demand.isPartial = false) ∧
  ∃ compatibility ∈ contracts.offerDemandCompatibilities,
    compatibility.edgeId = edge.edgeId ∧ compatibility.decision = .admitted

/-- Explicit dependencies stay required. -/
structure StaysRequired (hashes : SemanticHashes) (canonical : CanonicalExecutionPlan)
    (candidate : SemanticWorkDecompositionCandidate) (units : KeyedUnits)
    (graph : SemanticExecutionGraph) : Prop where
  realised : ∀ producer consumer, UnitDependency canonical graph.workUnits producer consumer →
    ∃ edge ∈ graph.edges, edge.producerWorkUnitId = producer ∧
      edge.consumerWorkUnitId = consumer ∧ edge.required = true
  kept : ∀ proposed ∈ candidate.edges, proposed.required = true → ∃ edge ∈ graph.edges,
    proposedSignature units proposed = some edge.signature ∧ edge.required = true
  /-- A success that is safe to report has evidence for each explicit dependency. -/
  evaluated : ∀ (sha256 digits : FacetContent → String) (run : SemanticRun),
    run.plan.semanticExecutionGraph = some graph →
    (evaluate hashes sha256 digits run).safeToReportSuccess = true →
      ∀ producer consumer, UnitDependency canonical graph.workUnits producer consumer →
        ∃ edge ∈ graph.edges, edge.producerWorkUnitId = producer ∧
          edge.consumerWorkUnitId = consumer ∧ Supported run.plan.toGraphContracts edge

theorem supported_of_safe {plan : SemanticPlan} {graph : SemanticExecutionGraph}
    (hgraph : plan.semanticExecutionGraph = some graph)
    (hsafe : (facetContent hashes plan).safeToReportSuccess = true)
    {edge : SemanticDependencyEdge} (hedge : edge ∈ graph.edges)
    (hrequired : edge.required = true) : Supported plan.toGraphContracts edge := by
  obtain ⟨-, hnone | ⟨-, -, hall⟩⟩ := (facetContent_safe_iff hgraph).mp hsafe
  · exact absurd hnone (SemanticExecutionGraph.requiredEdges_ne_nil hedge hrequired)
  · exact ⟨hall.demands edge hedge hrequired, hall.compatibilities edge hedge hrequired⟩

theorem firstProposed_eq_some_true_iff {proposals : List SemanticDependencyEdgeCandidate}
    (h : compileEdges hashes context units [] proposals = .ok edges)
    (signature : String × String × SemanticEdgeRelation) :
    firstProposed units proposals signature = some true ↔
      ∃ edge ∈ edges, edge.signature = signature ∧ edge.required = true := by
  have hsignatures : (edges.map (·.signature)).Nodup :=
    (CompiledEdges.nil.compileEdges h).signatures
  rw [← firstRequired_eq_true_iff hsignatures, compileEdges_firstRequired h]
  rfl

/-- Explicit dependencies stay required exactly if a required edge is proposed for each
of them, and no required edge is proposed after an optional one with the same ends and
the same relation. -/
theorem staysRequired_iff {hashes : SemanticHashes} {run : SemanticRun}
    {candidate : SemanticWorkDecompositionCandidate} {graph : SemanticExecutionGraph}
    (canonical : CanonicalExecutionPlan) {units : KeyedUnits}
    (hunits : candidateUnits hashes run candidate = .ok units)
    (h : compileCandidate hashes run candidate = .ok graph) :
    StaysRequired hashes canonical candidate units graph ↔
      (∀ producer consumer, UnitDependency canonical (units.map Prod.snd) producer consumer →
        ∃ proposed ∈ candidate.edges, proposed.required = true ∧ ∃ relation,
          proposedSignature units proposed = some (producer, consumer, relation)) ∧
      ∀ proposed ∈ candidate.edges, proposed.required = true → ∀ signature,
        proposedSignature units proposed = some signature →
          firstProposed units candidate.edges signature = some true := by
  obtain ⟨context, units', edges, hcontext, hunits', hedges, -, -, -, rfl⟩ := compileCandidate_ok h
  obtain rfl : units = units' := by
    rw [candidateUnits, value_bind_ok_iff] at hunits
    obtain ⟨context', hcontext', hunits⟩ := hunits
    obtain rfl := Except.ok.inj (hcontext.symm.trans hcontext')
    exact Except.ok.inj (hunits.symm.trans hunits')
  have hfirst := firstProposed_eq_some_true_iff hedges
  constructor
  · rintro ⟨hrealised, hkept, -⟩
    refine ⟨?_, ?_⟩
    · intro producer consumer hdependency
      obtain ⟨edge, hedge, hproducer, hconsumer, hrequired⟩ :=
        hrealised producer consumer hdependency
      obtain ⟨proposed, hfind, hproposed⟩ := map_eq_some_iff.mp
        ((hfirst edge.signature).mpr ⟨edge, hedge, rfl, hrequired⟩)
      have hsignature : proposedSignature units proposed = some edge.signature := by
        simpa using find?_some hfind
      refine ⟨proposed, mem_of_find?_eq_some hfind, hproposed, edge.relation, ?_⟩
      rw [hsignature, SemanticDependencyEdge.signature, hproducer, hconsumer]
    · intro proposed hproposed hrequired signature hsignature
      obtain ⟨edge, hedge, heq, hedgeRequired⟩ := hkept proposed hproposed hrequired
      refine (hfirst signature).mpr ⟨edge, hedge, ?_, hedgeRequired⟩
      rw [hsignature, Option.some.injEq] at heq
      exact heq.symm
  · rintro ⟨hproposes, hfirstRequired⟩
    have hrealised : ∀ producer consumer,
        UnitDependency canonical (units.map Prod.snd) producer consumer →
          ∃ edge ∈ edges, edge.producerWorkUnitId = producer ∧
            edge.consumerWorkUnitId = consumer ∧ edge.required = true := by
      intro producer consumer hdependency
      obtain ⟨proposed, hproposed, hrequired, relation, hsignature⟩ :=
        hproposes producer consumer hdependency
      obtain ⟨edge, hedge, heq, hedgeRequired⟩ :=
        (hfirst _).mp (hfirstRequired proposed hproposed hrequired _ hsignature)
      simp only [SemanticDependencyEdge.signature, Prod.mk.injEq] at heq
      exact ⟨edge, hedge, heq.1, heq.2.1, hedgeRequired⟩
    refine ⟨hrealised, ?_, ?_⟩
    · intro proposed hproposed hrequired
      obtain ⟨signature, hsignature⟩ := compileEdges_signatures hedges proposed hproposed
      obtain ⟨edge, hedge, heq, hedgeRequired⟩ :=
        (hfirst _).mp (hfirstRequired proposed hproposed hrequired _ hsignature)
      exact ⟨edge, hedge, by rw [hsignature, heq], hedgeRequired⟩
    · intro sha256 digits run' hgraph hsafe producer consumer hdependency
      obtain ⟨edge, hedge, hproducer, hconsumer, hrequired⟩ :=
        hrealised producer consumer hdependency
      exact ⟨edge, hedge, hproducer, hconsumer, supported_of_safe hgraph hsafe hedge hrequired⟩

/-- The two steps in two units, with the edge between them required. -/
theorem twoUnits_staysRequired_iff : ∃ units graph,
    candidateUnits plainHashes (smallRun twoSteps) twoUnits = .ok units ∧
    compileCandidate plainHashes (smallRun twoSteps) twoUnits = .ok graph ∧
    (StaysRequired plainHashes (smallPlan twoSteps) twoUnits units graph ↔ (∀ producer consumer,
        UnitDependency (smallPlan twoSteps) (units.map Prod.snd) producer consumer →
          ∃ proposed ∈ twoUnits.edges, proposed.required = true ∧ ∃ relation,
            proposedSignature units proposed = some (producer, consumer, relation)) ∧
      ∀ proposed ∈ twoUnits.edges, proposed.required = true → ∀ signature,
        proposedSignature units proposed = some signature →
          firstProposed units twoUnits.edges signature = some true) := by
  obtain ⟨units, hunits⟩ := exists_ok_of_toOption_isSome
    (show (candidateUnits plainHashes (smallRun twoSteps) twoUnits).toOption.isSome = true by
      decide +kernel)
  obtain ⟨graph, hgraph⟩ := exists_ok_of_toOption_isSome
    (show (compileCandidate plainHashes (smallRun twoSteps) twoUnits).toOption.isSome = true by
      decide +kernel)
  exact ⟨units, graph, hunits, hgraph, staysRequired_iff (smallPlan twoSteps) hunits hgraph⟩

/-- The two steps in two units, with the edge between them proposed as an optional one
first and as a required one then. -/
def optionalFirst : SemanticWorkDecompositionCandidate :=
  grouping [unitForStep "read", unitForStep "write"]
    [{ producerUnitKey := "read", consumerUnitKey := "write", relation := .orderingConstraint,
       required := false },
     { producerUnitKey := "read", consumerUnitKey := "write", relation := .orderingConstraint }]

/-- The required edge is dropped, and a success is safe to report without any evidence. -/
theorem optionalFirst_drops_required : ∃ units graph,
    candidateUnits plainHashes (smallRun twoSteps) optionalFirst = .ok units ∧
    compileCandidate plainHashes (smallRun twoSteps) optionalFirst = .ok graph ∧
    (evaluate plainHashes (fun _ => "") (fun _ => "")
      { smallRun twoSteps with plan := { (smallRun twoSteps).plan with
          semanticExecutionGraph := some graph } }).safeToReportSuccess = true ∧
    ¬StaysRequired plainHashes (smallPlan twoSteps) optionalFirst units graph := by
  obtain ⟨units, hunits⟩ := exists_ok_of_toOption_isSome
    (show (candidateUnits plainHashes (smallRun twoSteps) optionalFirst).toOption.isSome = true by
      decide +kernel)
  have hfields : (compileCandidate plainHashes (smallRun twoSteps) optionalFirst).toOption.map
      (fun graph => (graph.edges.map (·.required), (evaluate plainHashes (fun _ => "")
        (fun _ => "") { smallRun twoSteps with plan := { (smallRun twoSteps).plan with
          semanticExecutionGraph := some graph } }).safeToReportSuccess)) =
      some ([false], true) := by
    decide +kernel
  cases hcompile : compileCandidate plainHashes (smallRun twoSteps) optionalFirst with
  | error reason =>
    rw [hcompile] at hfields
    cases hfields
  | ok graph =>
    rw [hcompile] at hfields
    simp only [Except.toOption, map_some, Option.some.injEq, Prod.mk.injEq] at hfields
    refine ⟨units, graph, hunits, rfl, hfields.2, fun hstays => ?_⟩
    obtain ⟨edge, hedge, -, hrequired⟩ := hstays.kept _ (mem_cons_of_mem _ mem_cons_self)
      rfl
    have hmem : edge.required ∈ graph.edges.map (·.required) := List.mem_map_of_mem hedge
    rw [hfields.1, hrequired] at hmem
    cases mem_singleton.mp hmem

end AIpinho.Semantics
