import AIpinho.Media.Durations

/-!
# When the probing of a media file stops

The backends of a media file are probed in the order of the policy, until all required keys and
one of those that identify the track are there. This file says when stopping costs no required
key and no identity.
-/

namespace AIpinho.Media

open List

inductive BackendStatus
  | available | unavailable | partlyAvailable | testOnly | disabled
  deriving DecidableEq

structure BackendDescriptor where
  status : BackendStatus
  supportedAttributes : List String
  dependencyName : Option String

/-- A backend, with what it finds in the file. -/
structure MediaBackend where
  descriptor : BackendDescriptor
  result : RawMediaMetadataResult

structure BackendPolicy where
  strategy : String
  primary : String
  fallbacks : List String
  allowPartialEvidence : Bool
  failOnNoEvidence : Bool

/-- A media observation demand. -/
structure ObservationDemand where
  /-- The keys of `blocking_required_claims`. -/
  requiredClaims : List String
  /-- The types and candidate keys of `semantic_requirement_groups`. -/
  groups : List (String × List String)

/-- The capability and one call of `observe`. -/
structure MediaObservation where
  services : NormalizerServices
  policy : BackendPolicy
  backends : List (String × MediaBackend)
  filePath : String
  requestedKeys : List String
  snapshot : List (String × BackendDescriptor)
  /-- The demand, nothing where it is missing or empty. -/
  demand : Option ObservationDemand

structure ObserveState where
  attempted : List String := []
  rawResults : List RawMediaMetadataResult := []
  observed : List String := []
  selected : Option String := none

def meets (keys others : List String) : Bool := keys.any others.contains

def missing (keys observed : List String) : List String := keys.filter (!observed.contains ·)

namespace MediaObservation

variable (o : MediaObservation)

/-- `_backend_order`. -/
def order : List String := (o.policy.primary :: o.policy.fallbacks).eraseDups

/-- `_normalized_requested_keys`. -/
def requested : List String := (o.requestedKeys.map o.services.strip).filter evidenceKeys.contains

/-- The required keys of `_coerce_media_observation_demand`. -/
def required : List String :=
  match o.demand with
  | some demand => (demand.requiredClaims.map o.services.strip).filter evidenceKeys.contains
  | none => []

/-- The identity keys of `_coerce_media_observation_demand`. -/
def identity : List String :=
  match o.demand with
  | some demand => demand.groups.flatMap fun (semanticType, candidates) =>
      if semanticType = "media_identity" then
        (candidates.map o.services.strip).filter identityKeys.contains
      else []
  | none => identityKeys.filter o.requested.contains

/-- `_backend_can_change_blocking_outcome`. -/
def canChange (descriptor : BackendDescriptor) (observed : List String) : Bool :=
  let supported := descriptor.supportedAttributes
  let missingRequired := missing o.required observed
  if meets missingRequired supported then true
  else if o.identity ≠ [] then
    if meets o.identity observed then
      if missingRequired.isEmpty then false else meets missingRequired supported
    else meets o.identity supported
  else if o.demand.isSome && o.required ≠ [] then meets missingRequired supported
  else if o.demand.isSome then observed.isEmpty && meets o.requested supported
  else if o.requested ≠ [] && o.requested.all observed.contains then false
  else o.requested.isEmpty || meets o.requested supported

/-- `_blocking_demand_satisfied`. -/
def satisfied (observed : List String) : Bool :=
  if o.demand.isSome then
    o.required.all observed.contains && (o.identity.isEmpty || meets o.identity observed)
  else if o.identity ≠ [] then meets o.identity observed
  else o.requested ≠ [] && o.requested.all observed.contains

def evidenceOf (results : List RawMediaMetadataResult) : List String :=
  (o.services.normalize results).map (·.canonicalKey)

def rawKeys (result : RawMediaMetadataResult) : List String :=
  (result.rawFields.filter fun field =>
    field.normalizedValue.any fun value => !value.isEmpty).map (·.canonicalKey)

def failedResult (backendId code message : String) (limitations : List (String × List String)) :
    RawMediaMetadataResult :=
  ⟨backendId, some o.filePath, [], [], limitations, [⟨code, message⟩], some o.filePath⟩

/-- `_unavailable_result_from_descriptor`. -/
def unavailableResult (backendId : String) (descriptor : BackendDescriptor) :
    RawMediaMetadataResult :=
  o.failedResult backendId
    (if backendId = "ffprobe" then "FFPROBE_NOT_AVAILABLE"
      else if backendId = "mutagen" then "MUTAGEN_NOT_IMPORTABLE"
      else "MEDIA_BACKEND_NOT_AVAILABLE")
    ("Backend dependency/state is unavailable in stage snapshot: " ++
      (given descriptor.dependencyName).getD backendId ++ ".")
    (descriptor.supportedAttributes.map fun key =>
      (key, [backendId ++ " unavailable in stage snapshot"]))

def descriptorOf (backendId : String) (backend : MediaBackend) : BackendDescriptor :=
  (o.snapshot.lookup backendId).getD backend.descriptor

def isAvailable (descriptor : BackendDescriptor) : Bool :=
  [BackendStatus.available, .partlyAvailable, .testOnly].contains descriptor.status

def afterProbe (s : ObserveState) (backendId : String) (result : RawMediaMetadataResult) :
    ObserveState where
  attempted := s.attempted ++ [backendId]
  rawResults := s.rawResults ++ [result]
  observed := s.observed ++ (rawKeys result ++ o.evidenceOf [result])
  selected := s.selected.or (if (rawKeys result).isEmpty then none else some result.backendId)

def stops (s : ObserveState) (result : RawMediaMetadataResult) : Bool :=
  o.satisfied s.observed ||
    (o.policy.strategy = "primary_then_fallback" && !o.policy.allowPartialEvidence &&
      !(rawKeys result).isEmpty) ||
    technicalKeys.all s.observed.contains

/-- The loop of `observe`. -/
def observeFrom : List String → ObserveState → ObserveState
  | [], s => s
  | backendId :: rest, s =>
    match o.backends.lookup backendId with
    | none =>
      observeFrom rest
        { s with
          attempted := s.attempted ++ [backendId]
          rawResults := s.rawResults ++ [o.failedResult backendId "MEDIA_BACKEND_NOT_AVAILABLE"
            "Backend is not registered." []] }
    | some backend =>
      let descriptor := o.descriptorOf backendId backend
      if !isAvailable descriptor then
        observeFrom rest
          { s with rawResults := s.rawResults ++ [o.unavailableResult backendId descriptor] }
      else if !o.canChange descriptor s.observed then observeFrom rest s
      else
        let s := o.afterProbe s backendId backend.result
        if o.stops s backend.result then s else observeFrom rest s

/-- `MediaMetadataObservationResult`. -/
structure ObservationResult where
  selectedBackend : Option String
  attemptedBackends : List String
  rawResults : List RawMediaMetadataResult
  errors : List MediaMetadataBackendError
  limitations : List String
  evidenceRecords : List EvidenceRecord
  blocked : Bool

def observe : ObservationResult :=
  let s := o.observeFrom o.order {}
  let records := o.services.normalize s.rawResults
  let errors := s.rawResults.flatMap (·.errors)
  { selectedBackend := s.selected
    attemptedBackends := s.attempted
    rawResults := s.rawResults
    errors := if records.isEmpty && o.policy.failOnNoEvidence && errors.isEmpty then
        [⟨"MEDIA_BACKEND_NO_EVIDENCE", "No backend produced valid media metadata evidence."⟩]
      else errors
    limitations := s.rawResults.flatMap fun result => result.limitationsByField.flatMap Prod.snd
    evidenceRecords := records
    blocked := records.isEmpty }

/-! ### Probing all backends -/

def available (backendIds : List String) : List (BackendDescriptor × RawMediaMetadataResult) :=
  backendIds.filterMap fun backendId =>
    (o.backends.lookup backendId).bind fun backend =>
      if isAvailable (o.descriptorOf backendId backend) then
        some (o.descriptorOf backendId backend, backend.result)
      else none

def fullEvidence : List String := o.evidenceOf ((o.available o.order).map Prod.snd)

/-- The keys in the records of `observe`. -/
def observedEvidence : List String := o.observe.evidenceRecords.map (·.canonicalKey)

/-- The demand is a typed one, the descriptors are truthful, and no demanded key that is read
is lost in the normaliser. -/
structure Plain : Prop where
  typed : o.demand.isSome = true
  partialEvidence : o.policy.allowPartialEvidence = true
  truthful : ∀ entry ∈ o.available o.order, o.evidenceOf [entry.2] ⊆ entry.1.supportedAttributes
  /-- It is asked of the backends up to the one with which the demand is met. -/
  kept : ∀ before backendId after, o.order = before ++ backendId :: after →
    o.satisfied (o.evidenceOf ((o.available before).map Prod.snd)) = false →
    ∀ entry ∈ o.available [backendId], ∀ key ∈ o.required ++ o.identity,
      key ∈ rawKeys entry.2 → key ∈ o.evidenceOf [entry.2]
  /-- Backends that complete the technical keys meet the demand. -/
  complete : ∀ before after, o.order = before ++ after →
    technicalKeys.all ((o.available before).flatMap fun entry =>
      rawKeys entry.2 ++ o.evidenceOf [entry.2]).contains = true →
    o.satisfied (o.evidenceOf ((o.available before).map Prod.snd)) = true

/-! ### What the loop keeps -/

section Loop

variable {o : MediaObservation} {s : ObserveState}

theorem meets_iff {keys others : List String} :
    meets keys others = true ↔ ∃ key ∈ keys, key ∈ others := by
  simp [meets]

theorem meets_mono {keys others more : List String} (h : others ⊆ more)
    (hmeets : meets keys others = true) : meets keys more = true := by
  obtain ⟨key, hkey, hmem⟩ := meets_iff.mp hmeets
  exact meets_iff.mpr ⟨key, hkey, h hmem⟩

theorem evidenceOf_append (results more : List RawMediaMetadataResult) :
    o.evidenceOf (results ++ more) = o.evidenceOf results ++ o.evidenceOf more := by
  simp [evidenceOf, NormalizerServices.normalize]

theorem evidenceOf_failedResult {results : List RawMediaMetadataResult}
    (backendId code message : String) (limitations : List (String × List String)) :
    o.evidenceOf (results ++ [o.failedResult backendId code message limitations]) =
      o.evidenceOf results := by
  rw [evidenceOf_append]
  exact append_nil _

theorem satisfied_iff (htyped : o.demand.isSome = true) {keys : List String} :
    o.satisfied keys = true ↔
      (∀ key ∈ o.required, key ∈ keys) ∧ (o.identity = [] ∨ meets o.identity keys = true) := by
  simp [satisfied, htyped]

theorem not_canChange {descriptor : BackendDescriptor}
    {observed : List String} (hskip : o.canChange descriptor observed = false) :
    (∀ key ∈ o.required, key ∈ descriptor.supportedAttributes → key ∈ observed) ∧
      (meets o.identity descriptor.supportedAttributes = true →
        meets o.identity observed = true) := by
  have hmissing : meets (missing o.required observed) descriptor.supportedAttributes = false := by
    by_contra hmeets
    simp [canChange, hmeets] at hskip
  refine ⟨fun key hkey hsupported => ?_, fun hidentity => ?_⟩
  · by_contra hnot
    have hmem : key ∈ missing o.required observed := by simp [missing, hkey, hnot]
    have hmeets := meets_iff.mpr ⟨key, hmem, hsupported⟩
    rw [hmissing] at hmeets
    cases hmeets
  · by_contra hnot
    rw [Bool.not_eq_true] at hnot
    have hne : o.identity ≠ [] := by
      rintro hnil
      simp [hnil, meets] at hidentity
    simp [canChange, hmissing, hne, hnot, hidentity] at hskip

/-- Once the demand is met, a backend is asked only if nothing was demanded. -/
theorem demanded_nil_of_canChange (htyped : o.demand.isSome = true)
    {descriptor : BackendDescriptor} {observed : List String}
    (hrequired : ∀ key ∈ o.required, key ∈ observed)
    (hidentity : o.identity = [] ∨ meets o.identity observed = true)
    (hchange : o.canChange descriptor observed = true) : o.required ++ o.identity = [] := by
  have hmissing : missing o.required observed = [] := by
    simpa [missing, filter_eq_nil_iff] using hrequired
  have hmeets : ∀ keys, meets [] keys = false := fun _ => rfl
  simp only [canChange, hmissing, hmeets, htyped, isEmpty_nil, if_true] at hchange
  rcases hidentity with hnil | hmet
  · by_contra hne
    rw [hnil, append_nil] at hne
    simp [hnil, hne] at hchange
  · have hne : o.identity ≠ [] := by
      rintro hnil
      simp [hnil, meets] at hmet
    simp [hne, hmet] at hchange

/-- What holds after some backends: nothing demanded that they give is missing. -/
structure Observed (o : MediaObservation) (before : List String) (s : ObserveState) : Prop where
  sound : o.evidenceOf s.rawResults ⊆ o.evidenceOf ((o.available before).map Prod.snd)
  agrees : ∀ key ∈ o.required ++ o.identity,
    key ∈ s.observed ↔ key ∈ o.evidenceOf s.rawResults
  required : ∀ key ∈ o.required, key ∈ o.evidenceOf ((o.available before).map Prod.snd) →
    key ∈ o.evidenceOf s.rawResults
  identity : meets o.identity (o.evidenceOf ((o.available before).map Prod.snd)) = true →
    meets o.identity (o.evidenceOf s.rawResults) = true
  read : s.observed ⊆ (o.available before).flatMap fun entry =>
    rawKeys entry.2 ++ o.evidenceOf [entry.2]

/-- The required keys are those of all backends, and an identity is found if one is there. -/
structure Matches (o : MediaObservation) (s : ObserveState) : Prop where
  required : ∀ key ∈ o.required, key ∈ o.evidenceOf s.rawResults ↔ key ∈ o.fullEvidence
  identity : meets o.identity (o.evidenceOf s.rawResults) = true ↔
    meets o.identity o.fullEvidence = true

variable {before rest : List String}

theorem available_append (before rest : List String) :
    o.available (before ++ rest) = o.available before ++ o.available rest :=
  filterMap_append

theorem evidence_subset_full (h : o.order = before ++ rest) :
    o.evidenceOf ((o.available before).map Prod.snd) ⊆ o.fullEvidence := by
  rw [fullEvidence, h, available_append, map_append, evidenceOf_append]
  exact subset_append_left _ _

theorem Observed.matches_of_satisfied (h : Observed o before s) (horder : o.order = before ++ rest)
    (hrequired : ∀ key ∈ o.required, key ∈ o.evidenceOf s.rawResults)
    (hidentity : o.identity = [] ∨ meets o.identity (o.evidenceOf s.rawResults) = true) :
    Matches o s where
  required key hkey := by
    have hmem := hrequired key hkey
    exact ⟨fun _ => evidence_subset_full horder (h.sound hmem), fun _ => hmem⟩
  identity := by
    rcases hidentity with hnil | hmeets
    · simp [hnil, meets]
    · exact ⟨fun _ => meets_mono (evidence_subset_full horder) (meets_mono h.sound hmeets),
        fun _ => hmeets⟩

theorem Observed.skip (h : Observed o before s) {backendId : String}
    (hrequired : ∀ key ∈ o.required,
      key ∈ o.evidenceOf ((o.available [backendId]).map Prod.snd) → key ∈ o.evidenceOf s.rawResults)
    (hidentity : meets o.identity (o.evidenceOf ((o.available [backendId]).map Prod.snd)) = true →
      meets o.identity (o.evidenceOf s.rawResults) = true) :
    Observed o (before ++ [backendId]) s where
  sound := by
    rw [available_append, map_append, evidenceOf_append]
    exact subset_append_of_subset_left _ h.sound
  agrees := h.agrees
  required key hkey hmem := by
    rw [available_append, map_append, evidenceOf_append, mem_append] at hmem
    exact hmem.elim (h.required key hkey) (hrequired key hkey)
  identity hmeets := by
    rw [available_append, map_append, evidenceOf_append] at hmeets
    obtain ⟨key, hkey, hmem⟩ := meets_iff.mp hmeets
    rcases mem_append.mp hmem with hmem | hmem
    · exact h.identity (meets_iff.mpr ⟨key, hkey, hmem⟩)
    · exact hidentity (meets_iff.mpr ⟨key, hkey, hmem⟩)
  read := by
    rw [available_append, flatMap_append]
    exact subset_append_of_subset_left _ h.read

theorem Observed.fail (h : Observed o before s) {backendId : String}
    (hnone : o.available [backendId] = []) {s' : ObserveState}
    (hevidence : o.evidenceOf s'.rawResults = o.evidenceOf s.rawResults)
    (hobserved : s'.observed = s.observed) : Observed o (before ++ [backendId]) s' where
  sound := by
    rw [available_append, hnone, append_nil, hevidence]
    exact h.sound
  agrees := by
    rw [hevidence, hobserved]
    exact h.agrees
  required := by
    rw [available_append, hnone, append_nil, hevidence]
    exact h.required
  identity := by
    rw [available_append, hnone, append_nil, hevidence]
    exact h.identity
  read := by
    rw [available_append, hnone, append_nil, hobserved]
    exact h.read

theorem Observed.probe (h : Observed o before s) {backendId : String}
    {entry : BackendDescriptor × RawMediaMetadataResult}
    (hentry : o.available [backendId] = [entry])
    (hkept : ∀ key ∈ o.required ++ o.identity, key ∈ rawKeys entry.2 →
      key ∈ o.evidenceOf [entry.2]) :
    Observed o (before ++ [backendId]) (o.afterProbe s backendId entry.2) where
  sound := by
    rw [available_append, hentry, map_append, evidenceOf_append, afterProbe, evidenceOf_append]
    exact append_subset.mpr ⟨subset_append_of_subset_left _ h.sound, subset_append_right _ _⟩
  agrees key hkey := by
    simp only [afterProbe, evidenceOf_append, mem_append, h.agrees key hkey]
    have := hkept key hkey
    tauto
  required key hkey := by
    rw [available_append, hentry, map_append, evidenceOf_append, afterProbe,
      evidenceOf_append, mem_append, mem_append]
    exact Or.imp_left (h.required key hkey)
  identity hmeets := by
    rw [available_append, hentry, map_append, evidenceOf_append] at hmeets
    rw [afterProbe, evidenceOf_append]
    obtain ⟨key, hkey, hmem⟩ := meets_iff.mp hmeets
    rcases mem_append.mp hmem with hmem | hmem
    · exact meets_mono (subset_append_left _ _) (h.identity (meets_iff.mpr ⟨key, hkey, hmem⟩))
    · exact meets_iff.mpr ⟨key, hkey, mem_append_right _ hmem⟩
  read := by
    rw [available_append, hentry, flatMap_append, afterProbe]
    exact append_subset.mpr ⟨subset_append_of_subset_left _ h.read, by simp⟩

theorem Observed.meets_identity_iff (h : Observed o before s) :
    meets o.identity s.observed = true ↔ meets o.identity (o.evidenceOf s.rawResults) = true := by
  simp only [meets_iff]
  exact exists_congr fun key => and_congr_right fun hkey => h.agrees key (mem_append_right _ hkey)

theorem Observed.matches_of_stops (h : Observed o before s) (hplain : o.Plain)
    (horder : o.order = before ++ rest) {result : RawMediaMetadataResult}
    (hstops : o.stops s result = true) : Matches o s := by
  simp only [stops, hplain.partialEvidence, Bool.not_true, Bool.and_false, Bool.false_and,
    Bool.or_false, Bool.or_eq_true] at hstops
  rcases hstops with hsatisfied | htechnical
  · obtain ⟨hrequired, hidentity⟩ := (satisfied_iff hplain.typed).mp hsatisfied
    exact h.matches_of_satisfied horder
      (fun key hkey => (h.agrees key (mem_append_left _ hkey)).mp (hrequired key hkey))
      (hidentity.imp_right h.meets_identity_iff.mp)
  · have hread : technicalKeys.all ((o.available before).flatMap fun entry =>
        rawKeys entry.2 ++ o.evidenceOf [entry.2]).contains = true := by
      rw [all_eq_true] at htechnical ⊢
      intro key hkey
      exact contains_iff_mem.mpr (h.read (contains_iff_mem.mp (htechnical key hkey)))
    obtain ⟨hrequired, hidentity⟩ :=
      (satisfied_iff hplain.typed).mp (hplain.complete before rest horder hread)
    exact h.matches_of_satisfied horder
      (fun key hkey => h.required key hkey (hrequired key hkey)) (hidentity.imp_right h.identity)

theorem observeFrom_matches (hplain : o.Plain) (horder : o.order = before ++ rest)
    (h : Observed o before s) : Matches o (o.observeFrom rest s) := by
  induction rest generalizing before s with
  | nil =>
    rw [append_nil] at horder
    have hfull : o.fullEvidence = o.evidenceOf ((o.available before).map Prod.snd) := by
      rw [fullEvidence, horder]
    exact ⟨fun key hkey => ⟨fun hmem => hfull ▸ h.sound hmem,
        fun hmem => h.required key hkey (hfull ▸ hmem)⟩,
      ⟨fun hmeets => hfull ▸ meets_mono h.sound hmeets, fun hmeets => h.identity (hfull ▸ hmeets)⟩⟩
  | cons backendId rest ih =>
    have hnext : o.order = (before ++ [backendId]) ++ rest := by simp [horder]
    rw [observeFrom]
    cases hbackend : o.backends.lookup backendId with
    | none =>
      exact ih hnext (h.fail (by simp [available, hbackend]) (evidenceOf_failedResult _ _ _ _) rfl)
    | some backend =>
      by_cases havailable : isAvailable (o.descriptorOf backendId backend) = true
      · let entry := (o.descriptorOf backendId backend, backend.result)
        have hentry : o.available [backendId] = [entry] := by
          simp [available, hbackend, havailable, entry]
        have hmem : entry ∈ o.available o.order := by
          rw [hnext, available_append, available_append, hentry]
          simp
        simp only [havailable, Bool.not_true, Bool.false_eq_true, if_false]
        cases hchange : o.canChange (o.descriptorOf backendId backend) s.observed with
        | false =>
          obtain ⟨hrequired, hidentity⟩ := not_canChange hchange
          have htruthful := hplain.truthful entry hmem
          refine ih hnext (h.skip (fun key hkey hin => ?_) fun hmeets => ?_)
          · rw [hentry] at hin
            exact (h.agrees key (mem_append_left _ hkey)).mp
              (hrequired key hkey (htruthful hin))
          · rw [hentry] at hmeets
            exact h.meets_identity_iff.mp (hidentity (meets_mono htruthful hmeets))
        | true =>
          have hprobe := h.probe hentry fun key hkey => by
            cases hmet : o.satisfied (o.evidenceOf ((o.available before).map Prod.snd)) with
            | false =>
              exact hplain.kept before backendId rest horder hmet entry (by simp [hentry]) key hkey
            | true =>
              obtain ⟨hrequired, hidentity⟩ := (satisfied_iff hplain.typed).mp hmet
              have hobserved : ∀ key ∈ o.required, key ∈ s.observed := fun key hkey =>
                (h.agrees key (mem_append_left _ hkey)).mpr
                  (h.required key hkey (hrequired key hkey))
              have hnil := demanded_nil_of_canChange hplain.typed hobserved
                (hidentity.imp_right fun hmeets => h.meets_identity_iff.mpr (h.identity hmeets))
                hchange
              rw [hnil] at hkey
              cases hkey
          cases hstops : o.stops (o.afterProbe s backendId backend.result) backend.result with
          | false => exact ih hnext hprobe
          | true => exact hprobe.matches_of_stops hplain hnext hstops
      · have hnone : o.available [backendId] = [] := by simp [available, hbackend, havailable]
        simp only [Bool.not_eq_true] at havailable
        simp only [havailable, Bool.not_false, if_true]
        exact ih hnext (h.fail hnone (evidenceOf_failedResult _ _ _ _) rfl)

end Loop

/-- Of the required keys `observe` has those of all backends, and of the identity keys some one
if any backend has one. -/
structure LosesNothing (o : MediaObservation) : Prop where
  required : ∀ key ∈ o.required, key ∈ o.observedEvidence ↔ key ∈ o.fullEvidence
  identity : meets o.identity o.observedEvidence = true ↔ meets o.identity o.fullEvidence = true

/-- Whatever the order, the loop stops or skips a backend only when nothing that is asked for is
lost. -/
theorem observe_loses_nothing (o : MediaObservation) (h : o.Plain) : o.LosesNothing := by
  have hstart : Observed o [] {} :=
    ⟨List.Subset.refl _, fun _ _ => Iff.rfl, fun _ _ hmem => hmem, fun hmeets => hmeets,
      nil_subset _⟩
  have hmatches := observeFrom_matches h rfl hstart
  exact ⟨hmatches.required, hmatches.identity⟩

def tagBackend (id : String) (keys : List String) : MediaBackend :=
  ⟨⟨.available, keys, none⟩,
    ⟨id, none, keys.map fun key => ⟨key, none, some (.text "x"), 1, none, [], none⟩, [], [], [],
      none⟩⟩

def artistFirst : MediaObservation where
  services := NormalizerServices.plainNormalizer
  policy := ⟨"primary_then_fallback", "a", ["b"], true, true⟩
  backends := [("a", tagBackend "a" ["track_title", "artist"]),
    ("b", tagBackend "b" ["track_title", "artist", "album"])]
  filePath := "f"
  requestedKeys := []
  snapshot := []
  demand := some ⟨["track_title"], [("media_identity", ["artist", "album"])]⟩

theorem artistFirst_truthful : ∀ entry ∈ artistFirst.available artistFirst.order,
    artistFirst.evidenceOf [entry.2] ⊆ entry.1.supportedAttributes := by decide +kernel

theorem artistFirst_keeps : ∀ entry ∈ artistFirst.available artistFirst.order,
    ∀ key ∈ artistFirst.required ++ artistFirst.identity,
      key ∈ rawKeys entry.2 → key ∈ artistFirst.evidenceOf [entry.2] := by decide +kernel

theorem artistFirst_plain : artistFirst.Plain where
  typed := rfl
  partialEvidence := rfl
  truthful := artistFirst_truthful
  kept before backendId after horder _ entry hentry := artistFirst_keeps entry (by
    rw [horder, available_append, ← singleton_append, available_append]
    exact mem_append_right _ (mem_append_left _ hentry))
  complete before after horder hread := by
    -- no backend reads the codec
    have hcodec := contains_iff_mem.mp (all_eq_true.mp hread "codec" (by decide))
    have hmem : "codec" ∈ (artistFirst.available artistFirst.order).flatMap fun entry =>
        rawKeys entry.2 ++ artistFirst.evidenceOf [entry.2] := by
      rw [horder, available_append, flatMap_append]
      exact mem_append_left _ hcodec
    exact absurd hmem (by decide +kernel)

/-- Both backends give the required title, and the artist identifies the track. -/
theorem artistFirst_losesNothing : artistFirst.LosesNothing :=
  observe_loses_nothing artistFirst artistFirst_plain

/-- One of the demanded identity keys is enough, so the album is not looked for. -/
theorem album_is_not_looked_for : artistFirst.demand.isSome = true ∧
    artistFirst.policy.allowPartialEvidence = true ∧
    (∀ entry ∈ artistFirst.available artistFirst.order,
      artistFirst.evidenceOf [entry.2] ⊆ entry.1.supportedAttributes) ∧
    "album" ∈ artistFirst.identity ∧ "album" ∈ artistFirst.fullEvidence ∧
      "album" ∉ artistFirst.observedEvidence :=
  ⟨rfl, rfl, artistFirst_truthful, by decide +kernel, by decide +kernel, by decide +kernel⟩

end MediaObservation

end AIpinho.Media
