import AIpinho.Media.Normalizer

/-!
# Aliases of the duration

The aliases of a key are looked up before its value is read, so a number of milliseconds is
read as one of seconds. Only a length that is rounded to zero either way comes out the same.
-/

namespace AIpinho.Media

open Lib

namespace NormalizerServices

variable {services : NormalizerServices}

def unitOf (services : NormalizerServices) (key : String) : ℚ :=
  if services.spelledKey key = "duration_ms" then 1 / 1000 else 1

/-- The field gives a duration of `v` seconds in the unit of its key. -/
structure Observes (services : NormalizerServices) (v confidence : ℚ)
    (field : RawMediaMetadataField) : Prop where
  key : services.canonicalKey field.canonicalKey = "duration"
  value : ∃ value, field.normalizedValue.or field.rawValue = some value ∧
    services.float value = some (v / services.unitOf field.canonicalKey)
  confidence : field.confidence = confidence

def durationOf (services : NormalizerServices) (result : RawMediaMetadataResult)
    (field : RawMediaMetadataField) : Option MediaValue :=
  (services.recordForField result field).map (·.normalizedValue)

/-- The confidence of the duration is below the least that is accepted. -/
def Filtered (services : NormalizerServices) (result : RawMediaMetadataResult)
    (confidence : ℚ) : Prop :=
  (result.confidenceByField.lookup "duration").getD confidence < services.minConfidence

/-- Fields that give the same length have the same duration, that length in seconds. -/
structure DurationsAgree (services : NormalizerServices) (result : RawMediaMetadataResult)
    (v confidence : ℚ) : Prop where
  same : ∀ field other, services.Observes v confidence field →
    services.Observes v confidence other →
      services.durationOf result field = services.durationOf result other
  inUnit : ∀ field, services.Observes v confidence field →
    services.durationOf result field = none ∨
      services.durationOf result field = some (.number (roundTo 6 v))

variable {result : RawMediaMetadataResult} {field : RawMediaMetadataField}

theorem durationOf_eq {v confidence : ℚ} (h : services.Observes v confidence field) :
    services.durationOf result field =
      if (result.confidenceByField.lookup "duration").getD confidence < services.minConfidence
      then none
      else some (.number (roundTo 6 (v / services.unitOf field.canonicalKey))) := by
  obtain ⟨value, hvalue, hfloat⟩ := h.value
  have hkey : evidenceKeys.contains "duration" = true := by decide
  simp only [durationOf, recordForField, h.key, hvalue, normalizeValue, if_true, hfloat,
    Option.map_some, h.confidence, bind, Option.bind_some, hkey, MediaValue.isEmpty,
    Bool.not_true, Bool.false_or, decide_eq_true_eq]
  split <;> rfl

theorem durationOf_of_filtered {v confidence : ℚ} (h : services.Observes v confidence field)
    (hfiltered : services.Filtered result confidence) :
    services.durationOf result field = none := (durationOf_eq h).trans (if_pos hfiltered)

theorem durationOf_of_not_filtered {v confidence : ℚ} (h : services.Observes v confidence field)
    (hfiltered : ¬services.Filtered result confidence) :
    services.durationOf result field =
      some (.number (roundTo 6 (v / services.unitOf field.canonicalKey))) :=
  (durationOf_eq h).trans (if_neg hfiltered)

def fieldOf (key : String) (q confidence : ℚ) : RawMediaMetadataField :=
  ⟨key, none, some (.number q), confidence, none, [], none⟩

theorem spelledKey_of_plain (services : NormalizerServices) (key : String)
    (h : (key.toList.all fun c => c.isLower || c = '_') = true) :
    services.spelledKey key = key := by
  have hsame : key.toList.map (fun c => if c = '-' || c = ' ' then '_' else c) = key.toList := by
    refine (List.map_congr_left fun c hc => if_neg fun hsep => ?_).trans (List.map_id _)
    have hplain := List.all_eq_true.mp h c hc
    simp only [Bool.or_eq_true, decide_eq_true_eq] at hsep
    rcases hsep with rfl | rfl <;> exact absurd hplain (by decide)
  rw [spelledKey, services.plain_letters key h, hsame, String.ofList_toList]

theorem observes_fieldOf (services : NormalizerServices) (key : String)
    (hplain : (key.toList.all fun c => c.isLower || c = '_') = true)
    (hkey : keyAliases.lookup key = some "duration") (v confidence : ℚ) :
    services.Observes v confidence (fieldOf key (v / services.unitOf key) confidence) where
  key := by simp [fieldOf, canonicalKey, spelledKey_of_plain services key hplain, hkey]
  value := ⟨_, rfl, services.float_number _⟩
  confidence := rfl

/-- The aliases agree on a length only if it is rounded to zero in milliseconds too, or if
no duration is taken from the backend. -/
theorem durationsAgree_iff (services : NormalizerServices) (result : RawMediaMetadataResult)
    (confidence : ℚ) {v : ℚ} (hv : 0 ≤ v) :
    DurationsAgree services result v confidence ↔
      v ≤ 1 / (2 * 10 ^ 9) ∨ services.Filtered result confidence := by
  by_cases hfiltered : services.Filtered result confidence
  · have hnone : ∀ field, services.Observes v confidence field →
        services.durationOf result field = none := fun field h =>
      durationOf_of_filtered h hfiltered
    refine iff_of_true ⟨fun field other h h' => ?_, fun field h => Or.inl (hnone field h)⟩
      (Or.inr hfiltered)
    rw [hnone field h, hnone other h']
  rw [or_iff_left hfiltered]
  -- what the rounding makes of the two units
  have hround : roundTo 6 (1000 * v) = roundTo 6 v ↔ v ≤ 1 / (2 * 10 ^ 9) := by
    rw [roundTo_inj, mul_assoc, roundHalfEven_mul_eq_iff (by norm_num) (by positivity)]
    constructor <;> intro h <;> linarith
  constructor
  · intro h
    have hms := observes_fieldOf services "duration_ms" (by decide) (by decide) v confidence
    have hseconds := observes_fieldOf services "duration_seconds" (by decide) (by decide) v
      confidence
    have hsame := h.same _ _ hms hseconds
    rw [durationOf_of_not_filtered hms hfiltered, durationOf_of_not_filtered hseconds hfiltered,
      Option.some.injEq, MediaValue.number.injEq] at hsame
    simp only [fieldOf, unitOf, spelledKey_of_plain services "duration_ms" (by decide),
      spelledKey_of_plain services "duration_seconds" (by decide)] at hsame
    rw [if_pos trivial, if_neg (by decide), div_one, div_div_eq_mul_div, div_one, mul_comm] at hsame
    exact hround.mp hsame
  · intro h
    have hall : ∀ field, services.Observes v confidence field →
        services.durationOf result field = some (.number (roundTo 6 v)) := by
      intro field hfield
      rw [durationOf_of_not_filtered hfield hfiltered, unitOf]
      split
      · rw [div_div_eq_mul_div, div_one, mul_comm, hround.mpr h]
      · rw [div_one]
    exact ⟨fun field other h h' => by rw [hall field h, hall other h'],
      fun field h => Or.inr (hall field h)⟩

def plainNormalizer : NormalizerServices where
  minConfidence := 7 / 10
  float
    | .number q => some q
    | .flag b => some (if b then 1 else 0)
    | _ => none
  str
    | .text value => value
    | _ => ""
  strip := id
  casefold := id
  joinWords := id
  isAlnum := Char.isAlphanum
  plain_letters _ _ := rfl
  float_number _ := rfl

def confidentResult : RawMediaMetadataResult := ⟨"b", none, [], [], [], [], none⟩

/-- On half a nanosecond the aliases agree. -/
theorem durations_agree_on_half_nanosecond :
    DurationsAgree plainNormalizer confidentResult (1 / (2 * 10 ^ 9)) 1 :=
  (durationsAgree_iff plainNormalizer confidentResult 1 (by norm_num)).mpr (Or.inl le_rfl)

/-- A second is read as a thousand of them when it comes in milliseconds. -/
theorem second_in_milliseconds : plainNormalizer.Observes 1 1 (fieldOf "duration_seconds" 1 1) ∧
      plainNormalizer.Observes 1 1 (fieldOf "duration_ms" 1000 1) ∧
      plainNormalizer.durationOf confidentResult (fieldOf "duration_seconds" 1 1) =
        some (.number (roundTo 6 1)) ∧
      plainNormalizer.durationOf confidentResult (fieldOf "duration_ms" 1000 1) =
        some (.number (roundTo 6 1000)) ∧
      roundTo 6 (1000 : ℚ) ≠ roundTo 6 1 := by
  have hunit : 1 / plainNormalizer.unitOf "duration_ms" = 1000 ∧
      1 / plainNormalizer.unitOf "duration_seconds" = 1 := by decide +kernel
  have hseconds : plainNormalizer.Observes 1 1 (fieldOf "duration_seconds" 1 1) :=
    ⟨by decide, ⟨_, rfl, congrArg some hunit.2.symm⟩, rfl⟩
  have hms : plainNormalizer.Observes 1 1 (fieldOf "duration_ms" 1000 1) :=
    ⟨by decide, ⟨_, rfl, congrArg some hunit.1.symm⟩, rfl⟩
  have hopen : ¬plainNormalizer.Filtered confidentResult 1 := by
    rw [Filtered]
    decide +kernel
  refine ⟨hseconds, hms, ?_, ?_, by decide +kernel⟩
  · rw [durationOf_of_not_filtered hseconds hopen, fieldOf, hunit.2]
  · rw [durationOf_of_not_filtered hms hopen, fieldOf, hunit.1]

end NormalizerServices

end AIpinho.Media
