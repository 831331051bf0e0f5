import AIpinho.Lib.Table
import AIpinho.Semantics.Plan

/-!
# Compiling the demands of edges

`EdgeSemanticDemandCompilerService.compile_for_edge` reads what the canonical steps of a
consumer say they require, checks it against the vocabulary of the plan and makes it the
demand of the edge.
-/

namespace AIpinho.Semantics

open Lib
open AIpinho.Runtime (isSpace)

/-- What `_collect_explicit_requirements` returns. -/
structure ExplicitRequirements where
  requiredDownstreamUses : List String
  requiredUseSafety : List (String × List Json)
  requiredSemanticProperties : List (String × List Json)
  requiredEvidenceDomains : List String
  requiredUpstreamEffects : List String
  prohibitedUpstreamEffects : List String
  baseConstraints : List String
  riskConstraints : List String
  evidenceRequiredValues : List Bool
  sourceRefs : List String

/-- `_extend_list`: the texts that a value adds, for a `str` of JSON values. -/
def extendList (str : Json → String) : Option Json → List String
  | some (.list items) => (items.map str).filter fun text => strip isSpace text ≠ ""
  | _ => []

abbrev StateTable := Table String (List Json)

def mergeMapping (target : StateTable) : Option Json → StateTable
  | some (.obj fields) => fields.foldl (fun target field =>
      match field.2 with
      | .list states => target.insert field.1 ((target.get? field.1).getD [] ++ states)
      | _ => target) target
  | _ => target

/-- Whether a value can be a key of a `dict`. -/
def isHashable : Json → Bool
  | .list _ | .obj _ => false
  | _ => true

/-- `_normalized_mapping`, or nothing if a state is no key: `dict.fromkeys` raises. -/
def normalizedMapping (mapping : StateTable) : Option (List (String × List Json)) :=
  if mapping.entries.all fun entry => entry.2.all isHashable then
    some ((mapping.entries.insertionSort fun a b => a.1 ≤ b.1).map fun entry =>
      (entry.1, entry.2.eraseDups))
  else none

def typedFields : List String :=
  ["required_downstream_uses", "required_use_safety", "required_semantic_properties",
    "required_evidence_domains", "required_upstream_effects", "prohibited_upstream_effects",
    "base_constraints", "risk_constraints", "evidence_required"]

/-- `_collect_explicit_requirements`, for the steps of the consumer that are in the plan. -/
def collectRequirements (str : Json → String) (steps : List CanonicalExecutionStep) :
    Option ExplicitRequirements :=
  let texts : String → List String := fun name =>
    (steps.flatMap fun step => extendList str (step.metadata.lookup name)).eraseDups
  let states : String → Option (List (String × List Json)) := fun name =>
    normalizedMapping (steps.foldl (fun target step =>
      mergeMapping target (step.metadata.lookup name)) ⟨[], List.nodup_nil⟩)
  match states "required_use_safety", states "required_semantic_properties" with
  | some useSafety, some properties => some {
      requiredDownstreamUses := texts "required_downstream_uses"
      requiredUseSafety := useSafety
      requiredSemanticProperties := properties
      requiredEvidenceDomains := texts "required_evidence_domains"
      requiredUpstreamEffects := texts "required_upstream_effects"
      prohibitedUpstreamEffects := texts "prohibited_upstream_effects"
      baseConstraints := texts "base_constraints"
      riskConstraints := texts "risk_constraints"
      evidenceRequiredValues := steps.filterMap fun step =>
        match step.metadata.lookup "evidence_required" with
        | some (.bool required) => some required
        | _ => none
      sourceRefs := ((steps.filter fun step =>
        typedFields.any fun name => (step.metadata.lookup name).isSome).map fun step =>
          "canonical_execution_step:" ++ step.stepId).eraseDups }
  | _, _ => none

variable (vocabulary : TaskSemanticVocabulary)

/-- The states that can be required of the concepts of some types, as `governed_view`
lists them. -/
def requirementStates (types : List SemanticConceptType) (name : String) : List Json :=
  let concepts := types.flatMap fun type => vocabulary.concepts.filter (·.conceptType = type)
  (((Table.ofItems (·.conceptId) concepts).get? name).map (·.requirementStates)).getD []

def propertyTypes : List SemanticConceptType :=
  [.epistemicProperty, .behavioralProperty, .structuralProperty, .relationship]

def statesAllowed (types : List SemanticConceptType) (required : List (String × List Json)) :
    Bool :=
  required.all fun entry =>
    let allowed := requirementStates vocabulary types entry.1
    !allowed.isEmpty && entry.2.all allowed.contains

/-- `_valid_constraint`. -/
def isValidConstraint (families : List String) (value : String) : Bool :=
  isConceptId value &&
    families.any fun family => (family ++ "_").toList.isPrefixOf value.toList

def validateRequirements (explicit : ExplicitRequirements) : Except String Unit := do
  demand (∀ use ∈ explicit.requiredDownstreamUses, use ∈ governedIds vocabulary .downstreamUse)
    "EDGE_SEMANTIC_DEMAND_DOWNSTREAM_USE_UNGOVERNED"
  demand (statesAllowed vocabulary [.useSafety] explicit.requiredUseSafety)
    "EDGE_SEMANTIC_DEMAND_USE_SAFETY_INVALID"
  demand (statesAllowed vocabulary propertyTypes explicit.requiredSemanticProperties)
    "EDGE_SEMANTIC_DEMAND_SEMANTIC_PROPERTY_INVALID"
  demand (∀ domain ∈ explicit.requiredEvidenceDomains,
      domain ∈ governedIds vocabulary .evidenceDomain)
    "EDGE_SEMANTIC_DEMAND_EVIDENCE_DOMAIN_UNGOVERNED"
  demand (∀ effect ∈ explicit.requiredUpstreamEffects ++ explicit.prohibitedUpstreamEffects,
      effect ∈ governedIds vocabulary .effect)
    "EDGE_SEMANTIC_DEMAND_EFFECT_UNGOVERNED"
  demand ((explicit.baseConstraints ++ explicit.riskConstraints).all
      (isValidConstraint (governedIds vocabulary .constraintFamily)))
    "EDGE_SEMANTIC_DEMAND_CONSTRAINT_INVALID"

def ExplicitRequirements.isPresent (explicit : ExplicitRequirements) : Bool :=
  !(explicit.requiredDownstreamUses.isEmpty && explicit.requiredUseSafety.isEmpty &&
    explicit.requiredSemanticProperties.isEmpty && explicit.requiredEvidenceDomains.isEmpty &&
    explicit.requiredUpstreamEffects.isEmpty && explicit.prohibitedUpstreamEffects.isEmpty &&
    explicit.baseConstraints.isEmpty && explicit.riskConstraints.isEmpty)

def SemanticEdgeRelation.passesEvidence : SemanticEdgeRelation → Bool
  | .evidenceDependency | .validationDependency => true
  | _ => false

def partialReason (relation : SemanticEdgeRelation) (explicit : ExplicitRequirements) :
    Option String :=
  if relation = .semanticDependency ∧ explicit.isPresent = false then
    some "edge_semantic_requirements_unspecified"
  else if relation.passesEvidence && explicit.requiredEvidenceDomains.isEmpty &&
      !explicit.isPresent then
    some "edge_evidence_domain_unspecified"
  else none

/-- `_context`. -/
structure DemandContext where
  graph : SemanticExecutionGraph
  vocabulary : TaskSemanticVocabulary
  canonical : CanonicalExecutionPlan
  edge : SemanticDependencyEdge
  consumer : SemanticWorkUnitContract

/-- `_context`, with the code of what is missing. -/
def demandContext (hashes : SemanticHashes) (plan : SemanticPlan) (edgeId : String) :
    Except String DemandContext :=
  match plan.semanticExecutionGraph with
  | none => .error "EDGE_SEMANTIC_DEMAND_GRAPH_REQUIRED"
  | some graph => do
    demand (hashes.verifyGraph graph) "EDGE_SEMANTIC_DEMAND_GRAPH_AUTHORITY_INVALID"
    match plan.taskSemanticVocabulary with
    | none => .error "EDGE_SEMANTIC_DEMAND_VOCABULARY_REQUIRED"
    | some vocabulary => do
      demand (hashes.verifyVocabulary vocabulary)
        "EDGE_SEMANTIC_DEMAND_VOCABULARY_AUTHORITY_INVALID"
      demand (graph.vocabularyBinding = vocabulary.binding)
        "EDGE_SEMANTIC_DEMAND_VOCABULARY_BINDING_MISMATCH"
      match plan.canonicalExecutionPlan with
      | none => .error "EDGE_SEMANTIC_DEMAND_CANONICAL_PLAN_REQUIRED"
      | some canonical =>
        match (Table.ofItems (·.edgeId) graph.edges).get? edgeId with
        | none => .error "EDGE_SEMANTIC_DEMAND_EDGE_UNKNOWN"
        | some edge =>
          let workUnits := Table.ofItems (·.workUnitId) graph.workUnits
          match workUnits.get? edge.producerWorkUnitId, workUnits.get? edge.consumerWorkUnitId with
          | some _, some consumer => .ok ⟨graph, vocabulary, canonical, edge, consumer⟩
          | _, _ => .error "EDGE_SEMANTIC_DEMAND_WORK_UNIT_UNKNOWN"

def DemandContext.steps (context : DemandContext) : List CanonicalExecutionStep :=
  let stepsById := Table.ofItems (·.stepId) context.canonical.executionSteps
  context.consumer.sourceStepIds.filterMap stepsById.get?

/-- The demand that `compile_for_edge` makes of the requirements. -/
def DemandContext.demand (hashes : SemanticHashes) (context : DemandContext)
    (explicit : ExplicitRequirements) (evidenceRequired : Bool) : EdgeSemanticDemand :=
  let reason := partialReason context.edge.relation explicit
  let content : DemandContent := {
    edgeId := context.edge.edgeId
    semanticGraphId := context.graph.semanticGraphId
    semanticGraphAuthoritySha256 := context.graph.authoritySha256
    producerWorkUnitId := context.edge.producerWorkUnitId
    consumerWorkUnitId := context.edge.consumerWorkUnitId
    vocabularyBinding := context.vocabulary.binding
    isPartial := reason.isSome
    consumerRequiredCapabilities := context.consumer.requiredCapabilities
    requiredDownstreamUses := explicit.requiredDownstreamUses
    requiredUseSafety := explicit.requiredUseSafety
    requiredSemanticProperties := explicit.requiredSemanticProperties
    requiredEvidenceDomains := explicit.requiredEvidenceDomains
    requiredUpstreamEffects := explicit.requiredUpstreamEffects
    prohibitedUpstreamEffects := explicit.prohibitedUpstreamEffects
    evidenceRequired := evidenceRequired
    baseConstraints := explicit.baseConstraints
    riskConstraints := explicit.riskConstraints
    sourceConsumerStepIds := context.consumer.sourceStepIds
    sourceRefs := explicit.sourceRefs
    reasonCodes := reason.toList }
  { content with
    demandId := "edge_semantic_demand_" ++ hashes.demandId content
    authoritySha256 := hashes.demand content }

/-- The statuses of an `EdgeSemanticDemandCompilation`. -/
inductive CompilationStatus
  | compiled | insufficientContractEvidence | blocked
  deriving DecidableEq

structure EdgeSemanticDemandCompilation where
  status : CompilationStatus
  edgeId : Option String
  demand : Option EdgeSemanticDemand := none
  reasonCodes : List String := []

/-- `compile_for_edge`, or nothing if it raises. -/
def compileForEdge (hashes : SemanticHashes) (str : Json → String) (plan : SemanticPlan)
    (edgeId : String) : Option EdgeSemanticDemandCompilation :=
  match demandContext hashes plan edgeId with
  | .error reason => some {
      status := .insufficientContractEvidence
      edgeId := if edgeId = "" then none else some edgeId
      reasonCodes := [reason] }
  | .ok context =>
    match collectRequirements str context.steps with
    | none => none
    | some explicit =>
      match validateRequirements context.vocabulary explicit with
      | .error reason => some {
          status := .blocked, edgeId := some edgeId, reasonCodes := [reason] }
      | .ok () =>
        let compiled := fun evidenceRequired => some {
          status := .compiled
          edgeId := some context.edge.edgeId
          demand := some (context.demand hashes explicit evidenceRequired) }
        match explicit.evidenceRequiredValues.eraseDups with
        | [] => compiled context.edge.relation.passesEvidence
        | [evidenceRequired] => compiled evidenceRequired
        | _ => some {
            status := .blocked
            edgeId := some edgeId
            reasonCodes := ["EDGE_SEMANTIC_DEMAND_EVIDENCE_REQUIREMENT_CONFLICT"] }

end AIpinho.Semantics
