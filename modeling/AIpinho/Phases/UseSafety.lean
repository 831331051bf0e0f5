import AIpinho.Lib.Table
import AIpinho.Lib.Text
import AIpinho.Phases.Dependency
import AIpinho.Runtime.Sanitize

/-!
# Use safety

`PhaseOutcomeRepository._merge_use_safety` merges what several outcomes say about the safety of
a use, the evaluation checks the merged values, and the limitation resolver reads one of them.
The three compare values by what they are, by equality, and by membership.
-/

namespace AIpinho.Phases

open List Lib Json
open AIpinho.Runtime (isSpace)

/-- The labels of `_conservative_safety_value`. -/
inductive SafetyLabel
  | yes | no | withLimitations | unknown
  deriving DecidableEq

section Merge

variable (casefold : String → String)

/-- The label of a value. The text of a value that is neither a text nor a truth value is
none of the three words. -/
def safetyLabel : Json → SafetyLabel
  | .bool true => .yes
  | .bool false => .no
  | .str s =>
    let text := casefold (strip isSpace s)
    if text = "true" then .yes
    else if text = "false" then .no
    else if text = "true_with_limitations" then .withLimitations
    else .unknown
  | _ => .unknown

def normalizedSafety (value : Json) : Json :=
  match safetyLabel casefold value with
  | .yes => .bool true
  | .no => .bool false
  | .withLimitations => .str "true_with_limitations"
  | .unknown => value

def conservativeSafetyValue : List Json → Json
  | [] => .null
  | first :: others =>
    let labels := (first :: others).map (safetyLabel casefold)
    if .no ∈ labels then .bool false
    else if .unknown ∈ labels then
      if (first :: others).all fun value =>
          normalizedSafety casefold value == normalizedSafety casefold first then
        normalizedSafety casefold first
      else .bool false
    else if .withLimitations ∈ labels then .str "true_with_limitations"
    else .bool true

/-- `_merge_use_safety`. A dictionary is a table. -/
def mergeUseSafety (mappings : List (Table String Json)) : List (String × Json) :=
  let valuesByKey := mappings.foldl (fun table mapping => table.group mapping.entries)
    (⟨[], List.nodup_nil⟩ : Table String (List Json))
  valuesByKey.entries.map fun entry => (entry.1, conservativeSafetyValue casefold entry.2)

end Merge

/-- What the mappings say about a use, in their order. -/
def contributions (mappings : List (Table String Json)) (key : String) : List Json :=
  mappings.filterMap (·.get? key)

/-- An assessment of `_resolve_from_governed_use_safety`. -/
structure GovernedAssessment where
  limitation : String
  impact : Impact
  constraints : List String
  rationale : String
  source : AssessmentSource

/-- What `_resolve_from_governed_use_safety` returns with the status `accepted`, with
confidence one. -/
structure GovernedResolution where
  assessments : List GovernedAssessment
  rationale : String
  provenance : List (String × Json)

def readonlyOperationTypes : List String :=
  ["analysis_readonly", "readonly_analysis", "project_analysis", "workspace_analysis_readonly",
    "readonly_analysis_with_artifact_output"]

/-- `readonly_analysis`. -/
def isReadonlyAnalysis (requirements : Requirements) : Bool :=
  "read_workspace" ∈ requirements.requiredCapabilities &&
    requirements.requiredDownstreamUses.isEmpty && requirements.requiredUseSafety.isEmpty &&
    requirements.requiredSemanticProperties.isEmpty &&
    (("workspace_mutation" ∈ requirements.prohibitedEffects &&
        "destructive_action" ∈ requirements.prohibitedEffects) ||
      requirements.operationType ∈ readonlyOperationTypes)

/-- Whether a value can be looked for in a set. -/
def isHashable : Json → Bool
  | .list _ | .obj _ => false
  | _ => true

def staticAnalysisSafety (snapshot : Snapshot) : Json :=
  (snapshot.useSafety.lookup "safe_for_downstream_static_analysis").getD .null

/-- The impact and the rationale that follow from a safety. A falsehood is recognized by
identity, so zero is not one. -/
def governedImpact (safety : Json) : Impact × String :=
  if safety = .bool false then
    (.incompatible, "Producer explicitly marks downstream static analysis unsafe.")
  else if safety == .str "true_with_limitations" then
    (.compatibleWithConstraint,
      "Producer explicitly allows downstream static analysis with disclosed limitations.")
  else (.compatible, "Producer explicitly allows downstream static analysis.")

/-- `_resolve_from_governed_use_safety`: an error is a `TypeError`. -/
def resolveFromGovernedUseSafety (requirements : Requirements) (snapshot : Snapshot)
    (limitations : List String) : Except String (Option GovernedResolution) :=
  let safety := staticAnalysisSafety snapshot
  if !isReadonlyAnalysis requirements then .ok none
  else if !isHashable safety then .error "unhashable type"
  else if !([.bool true, .bool false, .str "true_with_limitations"].any (safety == ·)) then
    .ok none
  else
    let (impact, rationale) := governedImpact safety
    .ok (some {
      assessments := limitations.eraseDups.map fun limitation =>
        ⟨limitation, impact, [], rationale, .upstreamDisclosure⟩
      rationale := rationale
      provenance := [("authority", .str "deterministic_semantic_gate"),
        ("source", .str "producer_use_safety"),
        ("use_safety_key", .str "safe_for_downstream_static_analysis"),
        ("observed_value", safety)] })

mutual

/-- A form that equal values share, but for truth values, which are no numbers here. -/
def strictForm : Json → Json
  | .null => .null
  | .bool b => .bool b
  | .int n => .int n
  | .float t => ((Json.wholeNumber? t).map .int).getD (.float t)
  | .str s => .str s
  | .list items => .list (strictItems items)
  | .obj fields => .obj (strictFields fields)

def strictItems : List Json → List Json
  | [] => []
  | v :: items => strictForm v :: strictItems items

def strictFields : List (String × Json) → List (String × Json)
  | [] => []
  | (name, v) :: fields => Json.insertField (name, strictForm v) (strictFields fields)

end

def isNumber : Json → Bool
  | .int _ | .float _ => true
  | _ => false

/-- A value is the boolean true, or a text that is `true` when it is trimmed and folded. -/
def SaysTrue (casefold : String → String) (value : Json) : Prop :=
  value = .bool true ∨ ∃ s, value = .str s ∧ casefold (strip isSpace s) = "true"

section Merge

variable {casefold : String → String}

theorem lookup_mergeUseSafety (mappings : List (Table String Json)) (key : String) :
    (mergeUseSafety casefold mappings).lookup key = if contributions mappings key = [] then none
      else some (conservativeSafetyValue casefold (contributions mappings key)) := by
  have hrows : ((mappings.flatMap (·.entries)).filter fun row => row.1 = key).map Prod.snd =
      contributions mappings key := by
    rw [filter_flatMap, map_flatMap, contributions, filterMap_eq_flatMap_toList]
    simp only [Table.filter_entries]
  have hgroup : mappings.foldl (fun table mapping => table.group mapping.entries)
      (⟨[], nodup_nil⟩ : Table String (List Json)) =
        Table.group ⟨[], nodup_nil⟩ (mappings.flatMap (·.entries)) := by
    rw [Table.group, foldl_flatMap]
    rfl
  have hlookup : ∀ entries : List (String × List Json),
      (entries.map fun entry => (entry.1, conservativeSafetyValue casefold entry.2)).lookup key =
        (entries.lookup key).map (conservativeSafetyValue casefold) := by
    intro entries
    induction entries with
    | nil => rfl
    | cons entry entries ih =>
      obtain ⟨name, values⟩ := entry
      rw [map_cons, lookup_cons, lookup_cons, ih]
      cases key == name <;> rfl
  rw [mergeUseSafety, hlookup, hgroup, ← Table.get?, Table.get?_group, ← hrows]
  have hempty : (⟨[], nodup_nil⟩ : Table String (List Json)).get? key = none := rfl
  rw [hempty]
  by_cases hnone : ((mappings.flatMap (·.entries)).filter fun row => row.1 = key) = []
  · simp [hnone]
  · simp [hnone]

theorem safetyLabel_eq_yes_iff {value : Json} :
    safetyLabel casefold value = .yes ↔ SaysTrue casefold value := by
  cases value with
  | bool b => cases b <;> simp [safetyLabel, SaysTrue]
  | str s =>
    simp only [safetyLabel, SaysTrue, Json.str.injEq, reduceCtorEq, false_or, exists_eq_left']
    split
    · simp_all
    split
    · simp_all
    split <;> simp_all
  | _ => simp [safetyLabel, SaysTrue]

theorem normalizedSafety_beq_true_iff {value : Json} :
    (normalizedSafety casefold value == .bool true) = true ↔
      SaysTrue casefold value ∨ isNumber value = true ∧ (value == .bool true) = true := by
  have hyes := @safetyLabel_eq_yes_iff casefold value
  unfold normalizedSafety
  cases hlabel : safetyLabel casefold value with
  | yes => simp [← hyes, hlabel]
  | no =>
    have hvalue : isNumber value = false := by
      cases value <;> simp_all [safetyLabel, isNumber]
    simp [← hyes, hlabel, hvalue, beq_iff, Json.canonical]
  | withLimitations =>
    have hvalue : isNumber value = false := by
      cases value <;> simp_all [safetyLabel, isNumber]
    simp [← hyes, hlabel, hvalue, beq_iff, Json.canonical]
  | unknown =>
    rw [← hyes, hlabel]
    cases value with
    | bool b => cases b <;> simp [safetyLabel] at hlabel
    | _ => simp [isNumber, beq_iff, Json.canonical]

theorem safetyLabel_eq_yes {values : List Json} (hno : .no ∉ values.map (safetyLabel casefold))
    (hunknown : .unknown ∉ values.map (safetyLabel casefold))
    (hlimited : .withLimitations ∉ values.map (safetyLabel casefold)) :
    ∀ value ∈ values, safetyLabel casefold value = .yes := by
  intro value hvalue
  have hmem := mem_map_of_mem (f := safetyLabel casefold) hvalue
  cases hlabel : safetyLabel casefold value with
  | yes => rfl
  | no => exact absurd (hlabel ▸ hmem) hno
  | withLimitations => exact absurd (hlabel ▸ hmem) hlimited
  | unknown => exact absurd (hlabel ▸ hmem) hunknown

theorem conservativeSafetyValue_of_equal {first : Json} {others : List Json}
    (hno : ∀ value ∈ first :: others, safetyLabel casefold value ≠ .no)
    (hequal : ∀ value ∈ first :: others,
      (normalizedSafety casefold value == normalizedSafety casefold first) = true) :
    conservativeSafetyValue casefold (first :: others) = normalizedSafety casefold first := by
  have hnot : .no ∉ (first :: others).map (safetyLabel casefold) := by
    intro hmem
    obtain ⟨value, hvalue, hlabel⟩ := mem_map.mp hmem
    exact hno value hvalue hlabel
  have hall : ((first :: others).all fun value =>
      normalizedSafety casefold value == normalizedSafety casefold first) = true :=
    all_eq_true.mpr hequal
  unfold conservativeSafetyValue
  dsimp only
  rw [if_neg hnot]
  rw [if_pos hall]
  split
  · rfl
  rename_i hunknown
  split
  · rename_i hlimited
    obtain ⟨value, hvalue, hlabel⟩ := mem_map.mp hlimited
    have hfirst := hequal value hvalue
    have hfirstUnknown : safetyLabel casefold first ≠ .unknown := fun hlabel' =>
      hunknown (mem_map.mpr ⟨first, mem_cons_self, hlabel'⟩)
    have hfirstNo := hno first mem_cons_self
    unfold normalizedSafety at hfirst ⊢
    cases hcase : safetyLabel casefold first <;>
      simp_all [beq_iff, Json.canonical]
  · rename_i hlimited
    have hfirst := safetyLabel_eq_yes hnot hunknown hlimited first mem_cons_self
    rw [normalizedSafety, hfirst]

theorem conservativeSafetyValue_beq_true_iff {first : Json} {others : List Json} :
    (conservativeSafetyValue casefold (first :: others) == .bool true) = true ↔
      ∀ value ∈ first :: others, (normalizedSafety casefold value == .bool true) = true := by
  constructor
  · intro htrue
    unfold conservativeSafetyValue at htrue
    dsimp only at htrue
    split at htrue
    · simp [beq_iff, Json.canonical] at htrue
    rename_i hno
    split at htrue
    · split at htrue
      · rename_i hall
        intro value hvalue
        exact BEq.trans (all_eq_true.mp hall value hvalue) htrue
      · simp [beq_iff, Json.canonical] at htrue
    rename_i hunknown
    split at htrue
    · simp [beq_iff, Json.canonical] at htrue
    · rename_i hlimited
      intro value hvalue
      rw [normalizedSafety, safetyLabel_eq_yes hno hunknown hlimited value hvalue]
      rfl
  · intro htrue
    have hno : ∀ value ∈ first :: others, safetyLabel casefold value ≠ .no := by
      intro value hvalue hlabel
      have hvalueTrue := htrue value hvalue
      simp [normalizedSafety, hlabel, beq_iff, Json.canonical] at hvalueTrue
    rw [conservativeSafetyValue_of_equal hno fun value hvalue =>
      BEq.trans (htrue value hvalue) (BEq.symm (htrue first mem_cons_self))]
    exact htrue first mem_cons_self

theorem conservativeSafetyValue_perm {values values' : List Json} (hperm : values.Perm values')
    (halike : (∀ value ∈ values, safetyLabel casefold value ≠ .no) →
      (∀ value ∈ values, ∀ other ∈ values,
        (normalizedSafety casefold value == normalizedSafety casefold other) = true) →
      ∀ value ∈ values, ∀ other ∈ values, strictForm (normalizedSafety casefold value) =
          strictForm (normalizedSafety casefold other)) :
    strictForm (conservativeSafetyValue casefold values') =
      strictForm (conservativeSafetyValue casefold values) := by
  cases values with
  | nil => rw [nil_perm.mp hperm]
  | cons first others =>
    cases values' with
    | nil => exact absurd hperm.symm.nil_eq (by simp)
    | cons first' others' =>
      have hlabels : ∀ label, label ∈ (first :: others).map (safetyLabel casefold) ↔
          label ∈ (first' :: others').map (safetyLabel casefold) := fun _ =>
        (hperm.map (safetyLabel casefold)).mem_iff
      have hfirst' : first' ∈ first :: others := hperm.mem_iff.mpr mem_cons_self
      by_cases hno : ∀ value ∈ first :: others, safetyLabel casefold value ≠ .no
      · by_cases hequal : ∀ value ∈ first :: others, ∀ other ∈ first :: others,
            (normalizedSafety casefold value == normalizedSafety casefold other) = true
        · rw [conservativeSafetyValue_of_equal hno fun value hvalue =>
              hequal value hvalue first mem_cons_self,
            conservativeSafetyValue_of_equal
              (fun value hvalue => hno value (hperm.mem_iff.mpr hvalue))
              fun value hvalue => hequal value (hperm.mem_iff.mpr hvalue) first' hfirst']
          exact halike hno hequal first' hfirst' first mem_cons_self
        · have hunequal : ∀ head ∈ first :: others, ¬∀ value ∈ first :: others,
              (normalizedSafety casefold value == normalizedSafety casefold head) = true :=
            fun head _ hall => hequal fun value hvalue other hother =>
              BEq.trans (hall value hvalue) (BEq.symm (hall other hother))
          have hall := hunequal first mem_cons_self
          have hall' := hunequal first' hfirst'
          simp only [hperm.mem_iff] at hall'
          rw [← all_eq_true] at hall hall'
          simp only [conservativeSafetyValue, hlabels, if_neg hall, if_neg hall']
      · simp only [not_forall, not_not] at hno
        obtain ⟨value, hvalue, hlabel⟩ := hno
        have hmem : .no ∈ (first :: others).map (safetyLabel casefold) :=
          mem_map.mpr ⟨value, hvalue, hlabel⟩
        have hmem' := (hlabels _).mp hmem
        simp only [conservativeSafetyValue, if_pos hmem, if_pos hmem']

end Merge

/-- Use safety is conservative. -/
structure IsConservative (casefold : String → String) (mappings : List (Table String Json))
    (requirements : Requirements) (snapshot : Snapshot) (limitations : List String) : Prop where
  /-- The value of a use does not depend on the order of the mappings, where truth values
  count as different from numbers. -/
  order : ∀ mappings', mappings.Perm mappings' → ∀ key,
    ((mergeUseSafety casefold mappings').lookup key).map strictForm =
      ((mergeUseSafety casefold mappings).lookup key).map strictForm
  /-- Where true is required, all that contributes to a satisfying value says true. -/
  requirement : ∀ key, ∀ check ∈ (checkMappingValue .useSafety
      (mergeUseSafety casefold mappings) (key, [.bool true])).checks,
    check.status = .satisfied → ∀ value ∈ contributions mappings key, SaysTrue casefold value
  resolver : ∀ resolution, resolveFromGovernedUseSafety requirements snapshot limitations =
      .ok (some resolution) →
    ∀ assessment ∈ resolution.assessments, assessment.impact = .compatible →
      staticAnalysisSafety snapshot = .bool true

/-- No number is taken for a truth value. -/
structure NumbersApart (casefold : String → String) (mappings : List (Table String Json))
    (requirements : Requirements) (snapshot : Snapshot) (limitations : List String) : Prop where
  /-- Where no outcome says that a use is unsafe and all say something equal, they say the
  same, with truth values apart from numbers. -/
  alike : ∀ key,
    (∀ value ∈ contributions mappings key, safetyLabel casefold value ≠ .no) →
    (∀ value ∈ contributions mappings key, ∀ other ∈ contributions mappings key,
      (normalizedSafety casefold value == normalizedSafety casefold other) = true) →
    ∀ value ∈ contributions mappings key, ∀ other ∈ contributions mappings key,
      strictForm (normalizedSafety casefold value) = strictForm (normalizedSafety casefold other)
  /-- Where each outcome says true or a number that is equal to one, none says a number. -/
  noOne : ∀ key,
    (∀ value ∈ contributions mappings key,
      SaysTrue casefold value ∨ isNumber value = true ∧ (value == .bool true) = true) →
    ∀ value ∈ contributions mappings key, isNumber value = false
  /-- The safety that the resolver reads for a limitation is not a number that is equal to
  zero or one. -/
  noBit : isReadonlyAnalysis requirements = true → limitations ≠ [] →
    isNumber (staticAnalysisSafety snapshot) = true →
    (staticAnalysisSafety snapshot == .bool true) = false ∧
      (staticAnalysisSafety snapshot == .bool false) = false

section Conservative

variable {casefold : String → String} {mappings : List (Table String Json)}
  {requirements : Requirements} {snapshot : Snapshot} {limitations : List String}

theorem check_satisfied_iff {key : String} :
    (∃ check ∈ (checkMappingValue .useSafety (mergeUseSafety casefold mappings)
      (key, [.bool true])).checks, check.status = .satisfied) ↔
      contributions mappings key ≠ [] ∧ ∀ value ∈ contributions mappings key,
        SaysTrue casefold value ∨ isNumber value = true ∧ (value == .bool true) = true := by
  simp only [← normalizedSafety_beq_true_iff]
  unfold checkMappingValue
  rw [lookup_mergeUseSafety]
  cases contributions mappings key with
  | nil => simp
  | cons first others =>
    rw [← conservativeSafetyValue_beq_true_iff]
    simp only [checkValue, reduceCtorEq, if_false, any_cons, any_nil, Bool.or_false]
    split <;> simp_all

theorem governedImpact_compatible_iff {safety : Json} : isHashable safety = true ∧
      [.bool true, .bool false, .str "true_with_limitations"].any (safety == ·) = true ∧
      (governedImpact safety).1 = .compatible ↔
    safety = .bool true ∨ isNumber safety = true ∧
      ((safety == .bool true) = true ∨ (safety == .bool false) = true) := by
  have himpact : (governedImpact safety).1 = .compatible ↔
      safety ≠ .bool false ∧ (safety == .str "true_with_limitations") = false := by
    unfold governedImpact
    split
    · simp_all
    split <;> simp_all
  rw [himpact]
  cases safety with
  | bool b =>
    cases b <;> simp [isHashable, isNumber, ← Bool.not_eq_true, beq_iff, Json.canonical]
  | float t =>
    have hstr : (Json.float t == .str "true_with_limitations") = false := by
      rw [← Bool.not_eq_true, beq_iff]
      simp only [Json.canonical]
      cases Json.wholeNumber? t <;> simp
    simp [isHashable, isNumber, hstr]
  | _ => simp [isHashable, isNumber, ← Bool.not_eq_true, beq_iff, Json.canonical]

theorem resolver_compatible_iff :
    (∃ resolution, resolveFromGovernedUseSafety requirements snapshot limitations =
        .ok (some resolution) ∧
      ∃ assessment ∈ resolution.assessments, assessment.impact = .compatible) ↔
      isReadonlyAnalysis requirements = true ∧ limitations ≠ [] ∧
        (staticAnalysisSafety snapshot = .bool true ∨
          isNumber (staticAnalysisSafety snapshot) = true ∧
            ((staticAnalysisSafety snapshot == .bool true) = true ∨
              (staticAnalysisSafety snapshot == .bool false) = true)) := by
  have hsome : ∀ impact rationale, (∃ assessment ∈ limitations.eraseDups.map fun limitation =>
      (⟨limitation, impact, [], rationale, .upstreamDisclosure⟩ : GovernedAssessment),
        assessment.impact = .compatible) ↔ limitations ≠ [] ∧ impact = .compatible := by
    intro impact rationale
    cases limitations with
    | nil => simp
    | cons limitation others => simp [eraseDups_cons]
  rw [← governedImpact_compatible_iff]
  unfold resolveFromGovernedUseSafety
  dsimp only
  by_cases hreadonly : isReadonlyAnalysis requirements = true
  · by_cases hhashable : isHashable (staticAnalysisSafety snapshot) = true
    · by_cases hamong : [.bool true, .bool false, .str "true_with_limitations"].any
          (staticAnalysisSafety snapshot == ·) = true
      · have hany := hsome (governedImpact (staticAnalysisSafety snapshot)).1
          (governedImpact (staticAnalysisSafety snapshot)).2
        simp only [hreadonly, hhashable, hamong, Bool.not_true, Bool.false_eq_true, if_false,
          Except.ok.injEq, Option.some.injEq, exists_eq_left', true_and, hany]
      · simp [hreadonly, hhashable, hamong]
    · simp [hreadonly, hhashable]
  · simp [hreadonly]

theorem SaysTrue.isNumber_eq_false {value : Json} (h : SaysTrue casefold value) :
    isNumber value = false := by
  rcases h with rfl | ⟨s, rfl, -⟩ <;> rfl

theorem contributions_of_first {mapping : Table String Json} {key : String} {value : Json}
    (hvalue : mapping.get? key = some value) (rest : List (Table String Json)) :
    contributions (mapping :: rest) key = value :: contributions rest key := by
  rw [contributions, filterMap_cons, hvalue]
  rfl

/-- The merge is the same for every order exactly if what is alike is written alike. -/
theorem order_iff : (∀ mappings', mappings.Perm mappings' → ∀ key,
      ((mergeUseSafety casefold mappings').lookup key).map strictForm =
        ((mergeUseSafety casefold mappings).lookup key).map strictForm) ↔
      ∀ key, (∀ value ∈ contributions mappings key, safetyLabel casefold value ≠ .no) →
        (∀ value ∈ contributions mappings key, ∀ other ∈ contributions mappings key,
          (normalizedSafety casefold value == normalizedSafety casefold other) = true) →
        ∀ value ∈ contributions mappings key, ∀ other ∈ contributions mappings key,
          strictForm (normalizedSafety casefold value) =
            strictForm (normalizedSafety casefold other) := by
  constructor
  · intro horder key hno hequal
    -- the value that comes first is what is merged
    have hfirst : ∀ value ∈ contributions mappings key,
        ((mergeUseSafety casefold mappings).lookup key).map strictForm =
          some (strictForm (normalizedSafety casefold value)) := by
      intro value hvalue
      obtain ⟨mapping, hmapping, hget⟩ := mem_filterMap.mp hvalue
      obtain ⟨before, after, hmappings⟩ := append_of_mem hmapping
      have hperm : mappings.Perm (mapping :: (before ++ after)) := hmappings ▸ perm_middle
      have hcontributions : (contributions mappings key).Perm
          (value :: contributions (before ++ after) key) := by
        rw [← contributions_of_first hget]
        exact hperm.filterMap _
      rw [← horder _ hperm key, lookup_mergeUseSafety, contributions_of_first hget,
        if_neg (cons_ne_nil _ _), conservativeSafetyValue_of_equal
          (fun other hother => hno other (hcontributions.mem_iff.mpr hother))
          fun other hother => hequal other (hcontributions.mem_iff.mpr hother) value hvalue]
      rfl
    intro value hvalue other hother
    exact Option.some.inj ((hfirst value hvalue).symm.trans (hfirst other hother))
  · intro halike mappings' hperm key
    have hcontributions : (contributions mappings key).Perm (contributions mappings' key) :=
      hperm.filterMap _
    rw [lookup_mergeUseSafety, lookup_mergeUseSafety]
    by_cases hnone : contributions mappings key = []
    · rw [if_pos hnone, if_pos (nil_perm.mp (hnone ▸ hcontributions))]
    · have hsome : contributions mappings' key ≠ [] := fun hnil =>
        hnone (perm_nil.mp (hnil ▸ hcontributions))
      rw [if_neg hnone, if_neg hsome, Option.map_some, Option.map_some,
        conservativeSafetyValue_perm hcontributions (halike key)]

end Conservative

/-- An outcome that says one thing about one use. -/
def saying (value : Json) : Table String Json where
  entries := [("safe_for_downstream_static_analysis", value)]
  nodup := List.nodup_singleton _

def readingRequirements : Requirements where
  contractId := "contract"
  contractVersion := "1"
  consumerPhaseId := "consumer"
  operationType := "analysis_readonly"
  authoritySource := .systemInvariant
  allowedDependencyStatuses := []
  requiredDownstreamUses := []
  requiredUseSafety := []
  requiredSemanticProperties := []
  requiredCapabilities := ["read_workspace"]
  limitationCompatibility := []
  baseConstraints := []
  riskConstraints := []
  prohibitedEffects := []
  evidenceRequired := false
  authorizationTtlSeconds := 600
  sourcePlanId := none
  sourceExecutionId := none
  sourceSemanticsSha256 := none
  frozenAt := none
  requirementProvenance := []
  otherFields := .null

def snapshotSaying (value : Json) : Snapshot where
  dependencyId := "dependency"
  producerTaskRunId := "producer"
  producerOperationId := none
  producerPhaseId := "producer"
  upstreamResultRef := "result"
  dependencyStatus := "ready"
  evidenceRefs := []
  limitations := ["partial coverage"]
  requiredDisclosures := []
  missingTruth := []
  riskConstraints := []
  allowedDownstreamUses := []
  forbiddenDownstreamUses := []
  forbiddenClaims := []
  useSafety := (saying value).entries
  semanticProperties := []

end AIpinho.Phases
