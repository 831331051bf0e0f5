import AIpinho.Lib.Runs
import AIpinho.Memory.Learning
import Mathlib.Data.List.Dedup

/-!
# Memories and the candidates they were made of

The memories are to mirror the reviewed candidates: one for each that is accepted, none for the
others. `accept_candidate` does not look at earlier reviews, and the other reviews do not look
whether the candidate was accepted, so the mirror depends on the order of the calls.
-/

namespace AIpinho.Memory

open List Lib Option

variable {services : LearningServices} {policy : LearningPolicy} {s s' : LearningStore}

/-- The calls. -/
inductive LearningCall
  | extract (request : LearningExtractionRequest)
  /-- `accept_candidate`. -/
  | accept (review : Review)
  /-- `reject_candidate`. -/
  | reject (review : Review)
  /-- `archive_candidate`. -/
  | archive (review : Review)
  | markStale (review : Review)

/-- The store after a call that returned, or as it was after a call that raised. -/
def storeAfter {α : Type} (s : LearningStore) : Except String (α × LearningStore) → LearningStore
  | .ok (_, s') => s'
  | .error _ => s

/-- One call of the learning service. -/
def learningStep (services : LearningServices) (policy : LearningPolicy) (s : LearningStore) :
    LearningCall → LearningStore
  | .extract request =>
    storeAfter s ((extract services policy s request).map fun result => (result.1, result.2.2))
  | .accept review => storeAfter s (acceptCandidate services s review)
  | .reject review => storeAfter s (rejectCandidate s review)
  | .archive review => storeAfter s (archiveCandidate s review)
  | .markStale review => storeAfter s (markStale s review)

/-- The memories that belong to a skill pack or template, by their identifiers. -/
def memoriesOf (field : MemoryRecord → Option String) (s : LearningStore) (id : String) :
    List String :=
  ((s.memories.filter fun memory => field memory = some id).map MemoryRecord.memoryId).dedup

/-- The memories and the profiles are in step with the candidates. -/
structure MirrorsCandidates (s : LearningStore) : Prop where
  one : (s.memories.map MemoryRecord.candidateId).Nodup
  mirrored : ∀ candidateId, candidateId ∈ s.memories.map MemoryRecord.candidateId ↔
    ∃ candidate, getCandidate s candidateId = some candidate ∧ candidate.status = .accepted
  skillPacks : ∀ id, id ≠ "" →
    (s.skillPackProfiles id).successCount + (s.skillPackProfiles id).failureCount =
      (memoriesOf MemoryRecord.skillPackId s id).length
  /-- The counts of a template are the number of its memories. -/
  templates : ∀ id, id ≠ "" →
    (s.templateProfiles id).successCount + (s.templateProfiles id).failureCount =
      (memoriesOf MemoryRecord.templateId s id).length

def Unacceptable (candidate : MemoryCandidateV2) : Prop :=
  candidate.status ∈ [.superseded, .rejected, .archived, .stale] ∨
    candidate.containsSecretRisk = true

def AcceptsOnlyAcceptable (services : LearningServices) (s : LearningStore) : LearningCall → Prop
  | .accept review => ∀ candidate, getCandidate s review.candidateId = some candidate →
      Unacceptable candidate → ∀ accepted memory s',
        acceptCandidate services s review ≠ .ok (.accepted accepted memory, s')
  | _ => True

/-- Only acceptable candidates are accepted, and the memories mirror the candidates. -/
def KeepsMirror (services : LearningServices) (policy : LearningPolicy) (s : LearningStore)
    (call : LearningCall) : Prop :=
  AcceptsOnlyAcceptable services s call ∧ MirrorsCandidates (learningStep services policy s call)

/-- A review comes in an order that needs no further check: nothing is accepted that was accepted
before, is superseded or stale, and nothing accepted is rejected, archived or marked as stale. -/
def InOrder (s : LearningStore) : LearningCall → Prop
  | .extract _ => True
  | .accept review => ∀ candidate, getCandidate s review.candidateId = some candidate →
      acceptBlockReasons candidate = [] →
        candidate.status ∉ [.accepted, .superseded, .stale]
  | .reject review | .archive review | .markStale review =>
    ∀ candidate, getCandidate s review.candidateId = some candidate →
      candidate.status ≠ .accepted

variable {candidate : MemoryCandidateV2} {request : LearningExtractionRequest}
  {blocked : List String} {result : List MemoryCandidateV2 × List String × LearningStore}

/-- What holds in every state, in whatever order the reviews come. -/
structure Sound (services : LearningServices) (s : LearningStore) : Prop where
  candidates : (s.candidates.map MemoryCandidateV2.candidateId).Nodup
  memories : (s.memories.map MemoryRecord.memoryId).Nodup
  candidateDrawn : ∀ candidate ∈ s.candidates, ∃ number < s.drawn,
    candidate.candidateId = "learning_candidate_" ++ services.uuid number
  memoryDrawn : ∀ memory ∈ s.memories, ∃ number < s.drawn,
    memory.memoryId = "learning_memory_" ++ services.uuid number
  stored : ∀ memory ∈ s.memories, ∃ candidate ∈ s.candidates,
    candidate.candidateId = memory.candidateId
  unblocked : ∀ candidate ∈ s.candidates, candidate.status = .accepted →
    acceptBlockReasons candidate = []
  skillPacks : ∀ id, id ≠ "" →
    (s.skillPackProfiles id).successCount + (s.skillPackProfiles id).failureCount =
      (memoriesOf MemoryRecord.skillPackId s id).length
  /-- The counts of a template are the number of its memories. -/
  templates : ∀ id, id ≠ "" →
    (s.templateProfiles id).successCount + (s.templateProfiles id).failureCount =
      (memoriesOf MemoryRecord.templateId s id).length

theorem candidateOf_fresh {row : LearningRow} {number : ℕ}
    (h : candidateOf services policy request blocked row number = .ok candidate) :
    candidate.candidateId = "learning_candidate_" ++ services.uuid number ∧
      candidate.status ≠ .accepted := by
  unfold candidateOf at h
  dsimp only at h
  generalize LearningType.ofText? _ = type at h
  cases type with
  | none => cases h
  | some type =>
    have heq := Except.ok.inj h
    subst heq
    refine ⟨rfl, ?_⟩
    dsimp only
    split <;> decide

theorem candidatesOf_fresh {rows : List LearningRow} {number : ℕ}
    {candidates : List MemoryCandidateV2}
    (h : candidatesOf services policy request blocked rows number = .ok candidates) :
    candidates.map MemoryCandidateV2.candidateId = (List.range' number candidates.length).map
        (fun number => "learning_candidate_" ++ services.uuid number) ∧
      ∀ candidate ∈ candidates, candidate.status ≠ .accepted := by
  induction rows generalizing number candidates with
  | nil =>
    have heq := Except.ok.inj h
    subst heq
    simp
  | cons row rows ih =>
    unfold candidatesOf at h
    obtain ⟨candidate, hcandidate, h⟩ := value_bind_ok_iff.mp h
    obtain ⟨rest, hrest, h⟩ := value_bind_ok_iff.mp h
    have heq := Except.ok.inj h
    subst heq
    obtain ⟨hid, hstatus⟩ := candidateOf_fresh hcandidate
    obtain ⟨hids, hstatuses⟩ := ih hrest
    constructor
    · rw [map_cons, length_cons, range'_succ, map_cons, hid, hids]
    · rw [forall_mem_cons]
      exact ⟨hstatus, hstatuses⟩

theorem map_candidateId_markDuplicates (services : LearningServices) (seen : List String)
    (candidates : List MemoryCandidateV2) :
    (markDuplicates services seen candidates).map MemoryCandidateV2.candidateId =
      candidates.map MemoryCandidateV2.candidateId := by
  induction candidates generalizing seen with
  | nil => rfl
  | cons candidate candidates ih =>
    rw [markDuplicates, map_cons, map_cons, ih]
    split <;> rfl

theorem status_markDuplicates {seen : List String} {candidates : List MemoryCandidateV2}
    (h : ∀ candidate ∈ candidates, candidate.status ≠ .accepted) :
    ∀ candidate ∈ markDuplicates services seen candidates, candidate.status ≠ .accepted := by
  induction candidates generalizing seen with
  | nil => exact h
  | cons candidate candidates ih =>
    rw [forall_mem_cons] at h
    rw [markDuplicates, forall_mem_cons]
    constructor
    · split
      · simp
      · exact h.1
    · exact ih h.2

theorem buildCandidates_fresh {candidates : List MemoryCandidateV2}
    (h : buildCandidates services policy s request blocked = .ok candidates) :
    candidates.map MemoryCandidateV2.candidateId = (List.range' s.drawn candidates.length).map
        (fun number => "learning_candidate_" ++ services.uuid number) ∧
      ∀ candidate ∈ candidates, candidate.status ≠ .accepted := by
  unfold buildCandidates at h
  obtain ⟨built, hbuilt, h⟩ := value_bind_ok_iff.mp h
  have heq := Except.ok.inj h
  subst heq
  have hids := map_candidateId_markDuplicates services
    (s.candidates.map (learningFingerprint services)) built
  have hlength := congrArg List.length hids
  rw [length_map, length_map] at hlength
  obtain ⟨hfresh, hstatuses⟩ := candidatesOf_fresh hbuilt
  constructor
  · rw [hids, hlength]
    exact hfresh
  · exact status_markDuplicates hstatuses

theorem given_eq_some_iff {text : Option String} {id : String} :
    given text = some id ↔ text = some id ∧ id ≠ "" := by
  simp [given, filter_eq_some_iff]

theorem updateProfile_apply {β : Type} (profiles : String → β) (field : Option String)
    (change : β → β) (id : String) (hid : id ≠ "") :
    updateProfile profiles field change id =
      if field = some id then change (profiles id) else profiles id := by
  unfold updateProfile
  cases hgiven : given field with
  | none =>
    have hne : field ≠ some id := by
      intro hfield
      have hsome := given_eq_some_iff.mpr ⟨hfield, hid⟩
      rw [hgiven] at hsome
      cases hsome
    rw [if_neg hne]
    rfl
  | some other =>
    obtain ⟨hfield, -⟩ := given_eq_some_iff.mp hgiven
    rw [map_some, getD_some, hfield]
    by_cases hother : other = id
    · rw [hother, Function.update_self, if_pos rfl]
    · have hne : some other ≠ some id := fun h => hother (Option.some.inj h)
      rw [Function.update_of_ne (Ne.symm hother), if_neg hne]

/-- How often a skill pack or template was counted. -/
def CountedProfile.count (profile : CountedProfile) : ℕ :=
  profile.successCount + profile.failureCount

theorem CountedProfile.count_add (memory : MemoryRecord) (candidate : MemoryCandidateV2)
    (profile : CountedProfile) : (profile.add memory candidate).count = profile.count + 1 := by
  unfold CountedProfile.add CountedProfile.count
  by_cases hfailure : candidate.type = .failurePattern
  · simp only [hfailure, ne_eq, not_true_eq_false, if_false, if_true]
    omega
  · simp only [hfailure, ne_eq, not_false_eq_true, if_false, if_true]
    omega

theorem length_memoriesOf {field : MemoryRecord → Option String} {id : String}
    (h : (s.memories.map MemoryRecord.memoryId).Nodup) :
    (memoriesOf field s id).length =
      (s.memories.filter fun memory => field memory = some id).length := by
  have hnodup : ((s.memories.filter fun memory => field memory = some id).map
      MemoryRecord.memoryId).Nodup := h.sublist (List.filter_sublist.map _)
  rw [memoriesOf, List.Nodup.dedup hnodup, length_map]

theorem length_filter_append (memories : List MemoryRecord) (memory : MemoryRecord)
    (field : MemoryRecord → Option String) (id : String) :
    ((memories ++ [memory]).filter fun memory => field memory = some id).length =
      (memories.filter fun memory => field memory = some id).length +
        if field memory = some id then 1 else 0 := by
  rw [filter_append, length_append]
  congr 1
  split
  · rename_i hfield
    simp [hfield]
  · rename_i hfield
    simp [hfield]

theorem getCandidate_eq_some_iff (h : Sound services s) {candidateId : String} :
    getCandidate s candidateId = some candidate ↔
      candidate ∈ s.candidates ∧ candidate.candidateId = candidateId :=
  find?_key_eq_some_iff h.candidates

theorem getCandidate_saveCandidate (s : LearningStore) (candidate : MemoryCandidateV2)
    (candidateId : String) :
    getCandidate (s.saveCandidate candidate) candidateId =
      if candidateId = candidate.candidateId then some candidate
      else getCandidate s candidateId :=
  find?_key_saveRow candidate s.candidates candidateId

theorem Sound.saveCandidate (h : Sound services s) {old new : MemoryCandidateV2}
    (hold : old ∈ s.candidates) (hid : new.candidateId = old.candidateId)
    (hnew : new.status = .accepted → acceptBlockReasons new = []) :
    Sound services (s.saveCandidate new) where
  candidates := nodup_map_saveRow h.candidates
  memories := h.memories
  candidateDrawn := by
    intro candidate hcandidate
    rcases mem_saveRow_iff.mp hcandidate with ⟨hmem, -⟩ | rfl
    · exact h.candidateDrawn candidate hmem
    · rw [hid]
      exact h.candidateDrawn old hold
  memoryDrawn := h.memoryDrawn
  stored := by
    intro memory hmemory
    obtain ⟨candidate, hcandidate, hsame⟩ := h.stored memory hmemory
    by_cases hkey : candidate.candidateId = new.candidateId
    · exact ⟨new, mem_saveRow_iff.mpr (Or.inr rfl), hkey.symm.trans hsame⟩
    · exact ⟨candidate, mem_saveRow_iff.mpr (Or.inl ⟨hcandidate, hkey⟩), hsame⟩
  unblocked := by
    intro candidate hcandidate
    rcases mem_saveRow_iff.mp hcandidate with ⟨hmem, -⟩ | rfl
    · exact h.unblocked candidate hmem
    · exact hnew
  skillPacks := h.skillPacks
  templates := h.templates

theorem MirrorsCandidates.saveCandidate_iff (h : MirrorsCandidates s)
    {old new : MemoryCandidateV2} (hold : getCandidate s old.candidateId = some old)
    (hid : new.candidateId = old.candidateId) (hnew : new.status ≠ .accepted) :
    MirrorsCandidates (s.saveCandidate new) ↔ old.status ≠ .accepted := by
  have hbefore : old.candidateId ∈ s.memories.map MemoryRecord.candidateId ↔
      old.status = .accepted := by
    rw [h.mirrored, hold]
    simp
  have hget : getCandidate (s.saveCandidate new) old.candidateId = some new := by
    rw [getCandidate_saveCandidate, if_pos hid.symm]
  constructor
  · intro hafter hold'
    obtain ⟨candidate, hcandidate, hstatus⟩ :=
      (hafter.mirrored old.candidateId).mp (hbefore.mpr hold')
    rw [hget] at hcandidate
    cases hcandidate
    exact hnew hstatus
  · intro hold'
    refine ⟨h.one, fun candidateId => ?_, h.skillPacks, h.templates⟩
    change candidateId ∈ s.memories.map MemoryRecord.candidateId ↔ _
    by_cases hsame : candidateId = old.candidateId
    · subst hsame
      rw [hget, hbefore]
      simp [hold', hnew]
    · rw [getCandidate_saveCandidate, if_neg (fun heq => hsame (heq.trans hid)), h.mirrored]

theorem acceptBlockReasons_eq_nil_iff :
    acceptBlockReasons candidate = [] ↔ candidate.blockReasonCodes = [] ∧
      candidate.evidenceRefs ≠ [] ∧ candidate.containsSecretRisk = false ∧
      candidate.rawLogBlocked = false ∧ candidate.status ≠ .rejected ∧
      candidate.status ≠ .archived := by
  have hdups : ∀ reasons : List String, reasons.eraseDups = [] ↔ reasons = [] := by
    intro reasons
    simp only [eq_nil_iff_forall_not_mem, mem_eraseDups]
  rw [acceptBlockReasons, hdups]
  simp only [append_eq_nil_iff, ite_eq_right_iff, imp_false, and_assoc, cons_ne_nil,
    Bool.not_eq_true]
  by_cases hrejected : candidate.status = .rejected
  · simp [hrejected]
  · simp [hrejected]

/-- What becomes of a candidate that is accepted. -/
structure Becomes (services : LearningServices) (s : LearningStore)
    (candidate accepted : MemoryCandidateV2) (memory : MemoryRecord) (s' : LearningStore) :
    Prop where
  candidateId : accepted.candidateId = candidate.candidateId
  status : accepted.status = .accepted
  unblocked : acceptBlockReasons accepted = []
  memoryId : memory.memoryId = "learning_memory_" ++ services.uuid s.drawn
  memoryOf : memory.candidateId = candidate.candidateId
  candidates : s'.candidates = saveRow MemoryCandidateV2.candidateId accepted s.candidates
  memories : s'.memories = saveRow MemoryRecord.memoryId memory s.memories
  skillPackProfiles : s'.skillPackProfiles = updateProfile s.skillPackProfiles memory.skillPackId
    (CountedProfile.add memory accepted)
  templateProfiles : s'.templateProfiles = updateProfile s.templateProfiles memory.templateId
    (CountedProfile.add memory accepted)
  drawn : s'.drawn = s.drawn + 1

theorem acceptCandidate_cases (services : LearningServices) (s : LearningStore)
    (review : Review) :
    (getCandidate s review.candidateId = none ∧
      acceptCandidate services s review = .error "FileNotFoundError") ∨
    (∃ candidate blocked, getCandidate s review.candidateId = some candidate ∧
      acceptBlockReasons candidate ≠ [] ∧ blocked.candidateId = candidate.candidateId ∧
      blocked.status = .blocked ∧ acceptCandidate services s review =
        .ok (.blocked blocked (acceptBlockReasons candidate), s.saveCandidate blocked)) ∨
    (∃ candidate accepted memory s', getCandidate s review.candidateId = some candidate ∧
      acceptBlockReasons candidate = [] ∧ Becomes services s candidate accepted memory s' ∧
      acceptCandidate services s review = .ok (.accepted accepted memory, s')) := by
  unfold acceptCandidate
  cases hget : getCandidate s review.candidateId with
  | none => exact Or.inl ⟨rfl, rfl⟩
  | some candidate =>
    dsimp only
    by_cases hreasons : acceptBlockReasons candidate = []
    · right
      right
      rw [if_neg (not_not.mpr hreasons)]
      refine ⟨candidate, _, _, _, rfl, hreasons, ?_, rfl⟩
      refine ⟨rfl, rfl, ?_, rfl, rfl, rfl, rfl, rfl, rfl, rfl⟩
      obtain ⟨hcodes, hevidence, hsecret, hraw, -, -⟩ := acceptBlockReasons_eq_nil_iff.mp hreasons
      rw [acceptBlockReasons_eq_nil_iff]
      exact ⟨hcodes, hevidence, hsecret, hraw, by simp, by simp⟩
    · right
      left
      rw [if_pos hreasons]
      refine ⟨candidate, _, rfl, hreasons, ?_, ?_, rfl⟩
      · rfl
      · rfl

theorem Sound.memoryId_new (h : Sound services s) (huuid : Function.Injective services.uuid) :
    ∀ memory ∈ s.memories, memory.memoryId ≠ "learning_memory_" ++ services.uuid s.drawn := by
  intro memory hmemory hsame
  obtain ⟨number, hlt, hid⟩ := h.memoryDrawn memory hmemory
  have hnumber := huuid ((String.append_right_inj _).mp (hid.symm.trans hsame))
  omega

theorem count_add_memory {profiles : String → CountedProfile} {memory : MemoryRecord}
    {field : MemoryRecord → Option String} (hnew : s'.memories = s.memories ++ [memory])
    (hids : (s.memories.map MemoryRecord.memoryId).Nodup)
    (hids' : (s'.memories.map MemoryRecord.memoryId).Nodup) {id : String} (hid : id ≠ "")
    (h : (profiles id).count = (memoriesOf field s id).length) :
    (updateProfile profiles (field memory) (CountedProfile.add memory candidate) id).count =
      (memoriesOf field s' id).length := by
  have hlength := length_filter_append s.memories memory field id
  rw [length_memoriesOf hids] at h
  rw [length_memoriesOf hids', hnew, hlength, updateProfile_apply _ _ _ _ hid]
  split
  · rw [CountedProfile.count_add, h]
  · exact h

section Accepted

variable {candidate accepted : MemoryCandidateV2} {memory : MemoryRecord}

theorem Becomes.memories_eq (hb : Becomes services s candidate accepted memory s')
    (h : Sound services s) (huuid : Function.Injective services.uuid) :
    s'.memories = s.memories ++ [memory] := by
  rw [hb.memories, saveRow_of_new]
  rw [hb.memoryId]
  exact h.memoryId_new huuid

/-- An acceptance keeps the store sound. -/
theorem Sound.becomes (h : Sound services s) (huuid : Function.Injective services.uuid)
    (hmem : candidate ∈ s.candidates) (hb : Becomes services s candidate accepted memory s') :
    Sound services s' := by
  have hsaved := h.saveCandidate hmem hb.candidateId fun _ => hb.unblocked
  have hmemories := hb.memories_eq h huuid
  have hids : (s'.memories.map MemoryRecord.memoryId).Nodup := by
    rw [hb.memories]
    exact nodup_map_saveRow h.memories
  have hlater : ∀ kind id : String, (∃ number < s.drawn, id = kind ++ services.uuid number) →
      ∃ number < s'.drawn, id = kind ++ services.uuid number := by
    rintro kind id ⟨number, hlt, hid⟩
    refine ⟨number, ?_, hid⟩
    rw [hb.drawn]
    omega
  constructor
  · rw [hb.candidates]
    exact hsaved.candidates
  · exact hids
  · intro kept hkept
    rw [hb.candidates] at hkept
    exact hlater _ _ (hsaved.candidateDrawn kept hkept)
  · intro kept hkept
    rw [hmemories, mem_append, mem_singleton] at hkept
    rcases hkept with hkept | rfl
    · exact hlater _ _ (h.memoryDrawn kept hkept)
    · refine ⟨s.drawn, ?_, hb.memoryId⟩
      rw [hb.drawn]
      omega
  · intro kept hkept
    rw [hmemories, mem_append, mem_singleton] at hkept
    rw [hb.candidates]
    rcases hkept with hkept | rfl
    · exact hsaved.stored kept hkept
    · refine ⟨accepted, mem_saveRow_iff.mpr (Or.inr rfl), ?_⟩
      rw [hb.candidateId, hb.memoryOf]
  · intro kept hkept
    rw [hb.candidates] at hkept
    exact hsaved.unblocked kept hkept
  · intro id hid
    rw [hb.skillPackProfiles]
    exact count_add_memory hmemories h.memories hids hid (h.skillPacks id hid)
  · intro id hid
    rw [hb.templateProfiles]
    exact count_add_memory hmemories h.memories hids hid (h.templates id hid)

theorem MirrorsCandidates.becomes_iff (hm : MirrorsCandidates s) (h : Sound services s)
    (huuid : Function.Injective services.uuid)
    (hget : getCandidate s candidate.candidateId = some candidate)
    (hb : Becomes services s candidate accepted memory s') :
    MirrorsCandidates s' ↔ candidate.status ≠ .accepted := by
  have hmem := ((getCandidate_eq_some_iff h).mp hget).1
  have hsound := h.becomes huuid hmem hb
  have hids : s'.memories.map MemoryRecord.candidateId =
      s.memories.map MemoryRecord.candidateId ++ [candidate.candidateId] := by
    rw [hb.memories_eq h huuid, map_append, map_singleton, hb.memoryOf]
  have hbefore : candidate.candidateId ∈ s.memories.map MemoryRecord.candidateId ↔
      candidate.status = .accepted := by
    rw [hm.mirrored, hget]
    simp
  constructor
  · intro hafter haccepted
    have hone := hafter.one
    rw [hids, List.nodup_append] at hone
    exact hone.2.2 _ (hbefore.mpr haccepted) _ (mem_singleton.mpr rfl) rfl
  · intro hnot
    have hout : candidate.candidateId ∉ s.memories.map MemoryRecord.candidateId :=
      fun hin => hnot (hbefore.mp hin)
    refine ⟨?_, ?_, hsound.skillPacks, hsound.templates⟩
    · rw [hids, List.nodup_append]
      refine ⟨hm.one, nodup_singleton _, ?_⟩
      rintro id hid other hother rfl
      rw [mem_singleton.mp hother] at hid
      exact hout hid
    · intro candidateId
      have hfound : getCandidate s' candidateId =
          if candidateId = accepted.candidateId then some accepted
          else getCandidate s candidateId := by
        rw [getCandidate, hb.candidates]
        exact find?_key_saveRow accepted s.candidates candidateId
      rw [hids, mem_append, mem_singleton, hfound, hb.candidateId]
      by_cases hsame : candidateId = candidate.candidateId
      · rw [if_pos hsame]
        simp [hsame, hb.status]
      · rw [if_neg hsame, hm.mirrored]
        simp [hsame]

end Accepted

def savedCandidates (s : LearningStore) (candidates : List MemoryCandidateV2) : LearningStore :=
  candidates.foldl (fun s candidate =>
    (s.saveCandidate candidate).updateProfilesForCandidate candidate) s

theorem count_updateProfile {profiles : String → CountedProfile} {field : Option String}
    {change : CountedProfile → CountedProfile} (hchange : ∀ profile, (change profile).count =
      profile.count) {id : String} (hid : id ≠ "") :
    (updateProfile profiles field change id).count = (profiles id).count := by
  rw [updateProfile_apply _ _ _ _ hid]
  split
  · exact hchange _
  · rfl

theorem savedCandidates_rest (s : LearningStore) (candidates : List MemoryCandidateV2) :
    (savedCandidates s candidates).memories = s.memories ∧ ∀ id, id ≠ "" →
      ((savedCandidates s candidates).skillPackProfiles id).count = (s.skillPackProfiles id).count ∧
      ((savedCandidates s candidates).templateProfiles id).count =
        (s.templateProfiles id).count := by
  induction candidates generalizing s with
  | nil => exact ⟨rfl, fun _ _ => ⟨rfl, rfl⟩⟩
  | cons candidate candidates ih =>
    obtain ⟨hmemories, hcounts⟩ :=
      ih ((s.saveCandidate candidate).updateProfilesForCandidate candidate)
    refine ⟨hmemories, fun id hid => ?_⟩
    obtain ⟨hskill, htemplate⟩ := hcounts id hid
    have hlisted : ∀ (profiles : String → CountedProfile) (field : Option String),
        (updateProfile profiles field (fun profile => { profile with
          candidateIds := appendUnique profile.candidateIds candidate.candidateId }) id).count =
          (profiles id).count := by
      intro profiles field
      apply count_updateProfile _ hid
      intro profile
      rfl
    rw [savedCandidates, foldl_cons]
    constructor
    · exact hskill.trans (hlisted s.skillPackProfiles candidate.skillPackId)
    · exact htemplate.trans (hlisted s.templateProfiles candidate.templateId)

theorem savedCandidates_candidates {candidates : List MemoryCandidateV2}
    (h : ((s.candidates ++ candidates).map MemoryCandidateV2.candidateId).Nodup) :
    (savedCandidates s candidates).candidates = s.candidates ++ candidates := by
  induction candidates generalizing s with
  | nil => exact (append_nil _).symm
  | cons candidate candidates ih =>
    have hnew : ∀ other ∈ s.candidates, other.candidateId ≠ candidate.candidateId := by
      intro other hother hsame
      rw [map_append, List.nodup_append] at h
      exact h.2.2 _ (List.mem_map_of_mem hother) _ (List.mem_map_of_mem mem_cons_self) hsame
    have hsaved : ((s.saveCandidate candidate).updateProfilesForCandidate candidate).candidates =
        s.candidates ++ [candidate] := saveRow_of_new hnew
    have hrest := ih (s := (s.saveCandidate candidate).updateProfilesForCandidate candidate) (by
      rw [hsaved, append_assoc]
      exact h)
    rw [savedCandidates, foldl_cons]
    refine hrest.trans ?_
    rw [hsaved, append_assoc]
    rfl

theorem extract_cases (h : extract services policy s request = .ok result) :
    ∃ candidates : List MemoryCandidateV2,
      candidates.map MemoryCandidateV2.candidateId = (List.range' s.drawn candidates.length).map
        (fun number => "learning_candidate_" ++ services.uuid number) ∧
      (∀ candidate ∈ candidates, candidate.status ≠ .accepted) ∧
      result.2.2 = { savedCandidates s candidates with drawn := s.drawn + candidates.length } := by
  unfold extract at h
  dsimp only at h
  obtain ⟨candidates, hbuilt, h⟩ := value_bind_ok_iff.mp h
  have heq := Except.ok.inj h
  subst heq
  obtain ⟨hids, hstatus⟩ := buildCandidates_fresh hbuilt
  exact ⟨candidates, hids, hstatus, rfl⟩

section Extracted

variable {candidates : List MemoryCandidateV2}

theorem drawn_of_ids
    (hids : candidates.map MemoryCandidateV2.candidateId =
      (List.range' s.drawn candidates.length).map
        (fun number => "learning_candidate_" ++ services.uuid number)) :
    ∀ candidate ∈ candidates, ∃ number, s.drawn ≤ number ∧ number < s.drawn + candidates.length ∧
      candidate.candidateId = "learning_candidate_" ++ services.uuid number := by
  intro candidate hcandidate
  have hin := List.mem_map_of_mem (f := MemoryCandidateV2.candidateId) hcandidate
  rw [hids, List.mem_map] at hin
  obtain ⟨number, hnumber, hid⟩ := hin
  rw [mem_range'_1] at hnumber
  exact ⟨number, hnumber.1, hnumber.2, hid.symm⟩

theorem Sound.nodup_append (h : Sound services s) (huuid : Function.Injective services.uuid)
    (hids : candidates.map MemoryCandidateV2.candidateId =
      (List.range' s.drawn candidates.length).map
        (fun number => "learning_candidate_" ++ services.uuid number)) :
    ((s.candidates ++ candidates).map MemoryCandidateV2.candidateId).Nodup := by
  rw [map_append, List.nodup_append]
  refine ⟨h.candidates, ?_, ?_⟩
  · rw [hids]
    refine List.Nodup.map ?_ nodup_range'
    intro first second hsame
    exact huuid ((String.append_right_inj _).mp hsame)
  · rintro id hid other hother rfl
    obtain ⟨kept, hkept, rfl⟩ := List.mem_map.mp hid
    obtain ⟨candidate, hcandidate, hsame⟩ := List.mem_map.mp hother
    obtain ⟨number, hlt, hold⟩ := h.candidateDrawn kept hkept
    obtain ⟨number', hle, -, hnew⟩ := drawn_of_ids hids candidate hcandidate
    have heq := huuid ((String.append_right_inj _).mp (hold.symm.trans (hsame.symm.trans hnew)))
    omega

end Extracted

/-- An extraction adds candidates that are not accepted, and no memory. -/
theorem Sound.extract (h : Sound services s) (huuid : Function.Injective services.uuid)
    (hresult : extract services policy s request = .ok result) :
    Sound services result.2.2 ∧ result.2.2.memories = s.memories ∧
      ∃ candidates, result.2.2.candidates = s.candidates ++ candidates ∧
        ∀ candidate ∈ candidates, candidate.status ≠ .accepted := by
  obtain ⟨candidates, hids, hstatus, hstore⟩ := extract_cases hresult
  obtain ⟨hmemories, hcounts⟩ := savedCandidates_rest s candidates
  have hdrawn := drawn_of_ids hids
  have hnodup := h.nodup_append huuid hids
  have hcandidates := savedCandidates_candidates hnodup
  have hlater : ∀ kind id : String, (∃ number < s.drawn, id = kind ++ services.uuid number) →
      ∃ number < s.drawn + candidates.length, id = kind ++ services.uuid number := by
    rintro kind id ⟨number, hlt, hid⟩
    exact ⟨number, by omega, hid⟩
  rw [hstore]
  refine ⟨?_, hmemories, candidates, hcandidates, hstatus⟩
  constructor
  · dsimp only
    rw [hcandidates]
    exact hnodup
  · dsimp only
    rw [hmemories]
    exact h.memories
  · dsimp only
    rw [hcandidates]
    intro candidate hcandidate
    rcases mem_append.mp hcandidate with hold | hnew
    · exact hlater _ _ (h.candidateDrawn candidate hold)
    · obtain ⟨number, -, hlt, hid⟩ := hdrawn candidate hnew
      exact ⟨number, hlt, hid⟩
  · dsimp only
    rw [hmemories]
    intro memory hmemory
    exact hlater _ _ (h.memoryDrawn memory hmemory)
  · dsimp only
    rw [hmemories, hcandidates]
    intro memory hmemory
    obtain ⟨candidate, hcandidate, hsame⟩ := h.stored memory hmemory
    exact ⟨candidate, mem_append_left _ hcandidate, hsame⟩
  · dsimp only
    rw [hcandidates]
    intro candidate hcandidate haccepted
    rcases mem_append.mp hcandidate with hold | hnew
    · exact h.unblocked candidate hold haccepted
    · exact absurd haccepted (hstatus candidate hnew)
  · intro id hid
    have hcount := (hcounts id hid).1.trans (h.skillPacks id hid)
    rw [memoriesOf]
    dsimp only
    rw [hmemories]
    exact hcount
  · intro id hid
    have hcount := (hcounts id hid).2.trans (h.templates id hid)
    rw [memoriesOf]
    dsimp only
    rw [hmemories]
    exact hcount

theorem MirrorsCandidates.extract (hm : MirrorsCandidates s) (h : Sound services s)
    (huuid : Function.Injective services.uuid)
    (hresult : Memory.extract services policy s request = .ok result) :
    MirrorsCandidates result.2.2 := by
  obtain ⟨hsound, hmemories, candidates, hcandidates, hstatus⟩ := h.extract huuid hresult
  refine ⟨?_, ?_, hsound.skillPacks, hsound.templates⟩
  · rw [hmemories]
    exact hm.one
  · intro candidateId
    rw [hmemories, hm.mirrored]
    constructor
    · rintro ⟨candidate, hget, haccepted⟩
      refine ⟨candidate, ?_, haccepted⟩
      obtain ⟨hmem, hid⟩ := (getCandidate_eq_some_iff h).mp hget
      rw [getCandidate_eq_some_iff hsound, hcandidates]
      exact ⟨mem_append_left _ hmem, hid⟩
    · rintro ⟨candidate, hget, haccepted⟩
      refine ⟨candidate, ?_, haccepted⟩
      rw [getCandidate_eq_some_iff hsound, hcandidates] at hget
      rcases mem_append.mp hget.1 with hold | hnew
      · exact (getCandidate_eq_some_iff h).mpr ⟨hold, hget.2⟩
      · exact absurd haccepted (hstatus candidate hnew)

theorem acceptsOnlyAcceptable_of_not_accept (call : LearningCall)
    (h : ∀ review, call ≠ .accept review) : AcceptsOnlyAcceptable services s call := by
  cases call with
  | accept review => exact absurd rfl (h review)
  | extract request | reject review | archive review | markStale review => trivial

theorem setCandidateStatus_keeps (h : Sound services s) (review : Review)
    (status : LearningStatus) (hstatus : status ≠ .accepted) :
    Sound services (storeAfter s (setCandidateStatus s review status)) ∧ (MirrorsCandidates s →
        (MirrorsCandidates (storeAfter s (setCandidateStatus s review status)) ↔
          ∀ candidate, getCandidate s review.candidateId = some candidate →
            candidate.status ≠ .accepted)) := by
  unfold setCandidateStatus
  cases hget : getCandidate s review.candidateId with
  | none => exact ⟨h, fun hm => ⟨fun _ => by simp, fun _ => hm⟩⟩
  | some candidate =>
    obtain ⟨hmem, hid⟩ := (getCandidate_eq_some_iff h).mp hget
    rw [← hid] at hget
    constructor
    · apply h.saveCandidate hmem
      · rfl
      · intro haccepted
        exact absurd haccepted hstatus
    · intro hm
      have hiff : ∀ new : MemoryCandidateV2, new.candidateId = candidate.candidateId →
          new.status ≠ .accepted →
          (MirrorsCandidates (s.saveCandidate new) ↔ candidate.status ≠ .accepted) :=
        fun new => hm.saveCandidate_iff hget
      refine (hiff _ ?_ ?_).trans ?_
      · rfl
      · exact hstatus
      · simp

theorem learningStep_extract (s : LearningStore) (request : LearningExtractionRequest) :
    learningStep services policy s (.extract request) = storeAfter s
      ((extract services policy s request).map fun result => (result.1, result.2.2)) := rfl

theorem learningStep_accept (s : LearningStore) (review : Review) :
    learningStep services policy s (.accept review) =
      storeAfter s (acceptCandidate services s review) := rfl

theorem Sound.step (h : Sound services s) (huuid : Function.Injective services.uuid)
    (call : LearningCall) : Sound services (learningStep services policy s call) := by
  cases call with
  | extract request =>
    rw [learningStep_extract]
    cases hresult : Memory.extract services policy s request with
    | error e => exact h
    | ok result => exact (h.extract huuid hresult).1
  | accept review =>
    rw [learningStep_accept]
    rcases acceptCandidate_cases services s review with ⟨-, heq⟩ |
      ⟨candidate, blocked, hget, -, hid, hblocked, heq⟩ | ⟨candidate, accepted, memory, s', hget,
        -, hbecomes, heq⟩
    · rw [heq]
      exact h
    · rw [heq]
      apply h.saveCandidate ((getCandidate_eq_some_iff h).mp hget).1 hid
      intro haccepted
      rw [hblocked] at haccepted
      cases haccepted
    · rw [heq]
      exact h.becomes huuid ((getCandidate_eq_some_iff h).mp hget).1 hbecomes
  | reject review => exact (setCandidateStatus_keeps h review .rejected (by decide)).1
  | archive review => exact (setCandidateStatus_keeps h review .archived (by decide)).1
  | markStale review => exact (setCandidateStatus_keeps h review .stale (by decide)).1

/-- An acceptance keeps the mirror exactly if it comes in order. -/
theorem keepsMirror_accept_iff (hm : MirrorsCandidates s) (h : Sound services s)
    (huuid : Function.Injective services.uuid) (review : Review) :
    KeepsMirror services policy s (.accept review) ↔ InOrder s (.accept review) := by
  unfold KeepsMirror AcceptsOnlyAcceptable InOrder
  rw [learningStep_accept]
  dsimp only
  rcases acceptCandidate_cases services s review with ⟨hget, heq⟩ |
    ⟨candidate, blocked, hget, hreasons, hid, hblocked, heq⟩ |
    ⟨candidate, accepted, memory, s', hget, hreasons, hbecomes, heq⟩
  · rw [heq, hget]
    simp [storeAfter, hm]
  · have hcandidate : candidate.status ≠ .accepted :=
      fun haccepted => hreasons (h.unblocked candidate
        ((getCandidate_eq_some_iff h).mp hget).1 haccepted)
    have hcid := ((getCandidate_eq_some_iff h).mp hget).2
    rw [← hcid] at hget ⊢
    have hafter := (hm.saveCandidate_iff hget hid (by rw [hblocked]; decide)).mpr hcandidate
    rw [heq, hget]
    constructor
    · intro _ other hother hnone
      cases hother
      exact absurd hnone hreasons
    · intro _
      refine ⟨?_, hafter⟩
      intro other _ _ accepted memory s' hsome
      cases Except.ok.inj hsome
  · have hcid := ((getCandidate_eq_some_iff h).mp hget).2
    rw [← hcid] at hget ⊢
    have hmirror := hm.becomes_iff h huuid hget hbecomes
    obtain ⟨-, -, hsecret, -, hrejected, harchived⟩ := acceptBlockReasons_eq_nil_iff.mp hreasons
    rw [heq, hget]
    constructor
    · rintro ⟨hproper, hafter⟩ other hother -
      cases hother
      have haccepted : candidate.status ≠ .accepted := hmirror.mp hafter
      have hproper' : ¬Unacceptable candidate :=
        fun hun => hproper candidate rfl hun accepted memory s' rfl
      intro hin
      simp only [mem_cons, not_mem_nil, or_false] at hin
      rcases hin with hin | hin | hin
      · exact haccepted hin
      · exact hproper' (Or.inl (by simp [hin]))
      · exact hproper' (Or.inl (by simp [hin]))
    · intro hin
      have hstatus := hin candidate rfl hreasons
      simp only [mem_cons, not_mem_nil, or_false, not_or] at hstatus
      refine ⟨?_, hmirror.mpr hstatus.1⟩
      intro other hother hun
      cases hother
      rcases hun with hun | hun
      · simp [hstatus, hrejected, harchived] at hun
      · rw [hsecret] at hun
        cases hun

theorem keepsMirror_iff_inOrder (hm : MirrorsCandidates s) (h : Sound services s)
    (huuid : Function.Injective services.uuid) (call : LearningCall) :
    KeepsMirror services policy s call ↔ InOrder s call := by
  have hrest : (∀ review, call ≠ .accept review) → (KeepsMirror services policy s call ↔
        MirrorsCandidates (learningStep services policy s call)) := by
    intro hnot
    have haccepts : AcceptsOnlyAcceptable services s call :=
      acceptsOnlyAcceptable_of_not_accept call hnot
    exact and_iff_right haccepts
  cases call with
  | extract request =>
    rw [hrest (by simp)]
    refine iff_of_true ?_ trivial
    rw [learningStep_extract]
    cases hresult : Memory.extract services policy s request with
    | error e => exact hm
    | ok result => exact hm.extract h huuid hresult
  | accept review => exact keepsMirror_accept_iff hm h huuid review
  | reject review =>
    rw [hrest (by simp)]
    exact (setCandidateStatus_keeps h review .rejected (by decide)).2 hm
  | archive review =>
    rw [hrest (by simp)]
    exact (setCandidateStatus_keeps h review .archived (by decide)).2 hm
  | markStale review =>
    rw [hrest (by simp)]
    exact (setCandidateStatus_keeps h review .stale (by decide)).2 hm

theorem sound_empty (services : LearningServices) : Sound services .empty := by
  constructor <;> simp [LearningStore.empty, memoriesOf]

theorem mirrorsCandidates_empty : MirrorsCandidates .empty := by
  constructor <;> simp [LearningStore.empty, memoriesOf, getCandidate]

/-- In whatever order reviews come: identifiers stay distinct, every memory has its candidate, what
is accepted passes the checks, and the profiles count the memories. -/
theorem learning_stays_sound (huuid : Function.Injective services.uuid)
    (calls : List LearningCall) :
    Sound services (run (learningStep services policy) .empty calls) :=
  run_always (fun _ call h => h.step huuid call) (sound_empty services) calls

/-- The memories stay in step with the candidates along a run, and nothing is accepted that may
not be, exactly if the reviews of the run come in order. -/
theorem memories_mirror_candidates (huuid : Function.Injective services.uuid)
    (calls : List LearningCall) :
    Along (learningStep services policy) (KeepsMirror services policy) .empty calls ↔
      Along (learningStep services policy) InOrder .empty calls := by
  have hstart : MirrorsCandidates .empty ∧ Sound services .empty :=
    ⟨mirrorsCandidates_empty, sound_empty services⟩
  refine @along_congr _ _ _ _ _ (fun s => MirrorsCandidates s ∧ Sound services s) ?_ ?_ _ hstart
    calls
  · rintro s call ⟨hm, h⟩
    exact keepsMirror_iff_inOrder hm h huuid call
  · rintro s call ⟨hm, h⟩ hkeeps
    exact ⟨hkeeps.2, h.step huuid call⟩

/-- Services that keep texts as they are and count with letters. -/
def plainLearning : LearningServices where
  casefold := id
  sha256 := id
  repr _ := ""
  dumps _ := ""
  uuid number := String.ofList (List.replicate number 'a')

theorem plainLearning_uuid_injective : Function.Injective plainLearning.uuid := by
  intro first second h
  have hlists : List.replicate first 'a' = List.replicate second 'a' := String.ofList_injective h
  have hlengths := congrArg List.length hlists
  rwa [length_replicate, length_replicate] at hlengths

def lessonRequest : LearningExtractionRequest where
  reusableLessons := [.str "read the log first"]
  skillPackId := some "skill_pack"
  evidenceRefs := ["run"]

def firstReview : Review := { candidateId := "learning_candidate_" }

def secondReview : Review := { candidateId := "learning_candidate_a" }

def lessonCandidate (number : ℕ) : MemoryCandidateV2 where
  candidateId := "learning_candidate_" ++ plainLearning.uuid number
  type := .workflowLesson
  title := "Licao reutilizavel de run"
  summary := "read the log first"
  reusableWhen := []
  scope := .skillPack
  status := .proposed
  sourceType := "run_summary"
  sourceId := none
  sourceRefs := []
  evidenceRefs := ["run"]
  projectId := none
  skillPackId := some "skill_pack"
  templateId := none
  artifactIds := []
  tags := []
  blockReasonCodes := []
  containsSecretRisk := false
  rawLogBlocked := false
  metadataSanitized := []

def lessonStore (s : LearningStore) : LearningStore :=
  { savedCandidates s (markDuplicates plainLearning
      (s.candidates.map (learningFingerprint plainLearning)) [lessonCandidate s.drawn]) with
    drawn := s.drawn + 1 }

theorem learningStep_lessonRequest (s : LearningStore) :
    learningStep plainLearning learningPolicyFile s (.extract lessonRequest) = lessonStore s := by
  have hblocked : blockedReasons plainLearning learningPolicyFile lessonRequest = [] := by
    decide +kernel
  have hrows : learningRows plainLearning (sanitizedRequest plainLearning lessonRequest) =
      [⟨"workflow_lesson", "Licao reutilizavel de run", "read the log first", []⟩] := by
    decide +kernel
  have hcandidate : candidateOf plainLearning learningPolicyFile
      (sanitizedRequest plainLearning lessonRequest) []
      ⟨"workflow_lesson", "Licao reutilizavel de run", "read the log first", []⟩ s.drawn =
      .ok (lessonCandidate s.drawn) := by
    rfl
  rw [learningStep_extract]
  unfold extract buildCandidates
  rw [hblocked, hrows]
  unfold candidatesOf
  dsimp only
  rw [hcandidate]
  rfl

/-- The candidate of one extraction is accepted once. -/
theorem memories_mirror_candidates_accepted : Along (learningStep plainLearning learningPolicyFile)
      (KeepsMirror plainLearning learningPolicyFile) .empty
      [.extract lessonRequest, .accept firstReview] := by
  refine (memories_mirror_candidates plainLearning_uuid_injective _).mpr ?_
  refine ⟨trivial, ?_, trivial⟩
  rw [learningStep_lessonRequest]
  intro candidate hget _
  have hstatus : (getCandidate (lessonStore .empty) firstReview.candidateId).map
      MemoryCandidateV2.status = some .proposed := by decide +kernel
  rw [hget, map_some, Option.some.injEq] at hstatus
  rw [hstatus]
  decide

theorem not_acceptsOnlyAcceptable {review : Review}
    (hget : getCandidate s review.candidateId = some candidate)
    (hunacceptable : Unacceptable candidate) (hreasons : acceptBlockReasons candidate = []) :
    ¬AcceptsOnlyAcceptable services s (.accept review) := by
  intro h
  rcases acceptCandidate_cases services s review with ⟨hnone, -⟩ |
    ⟨other, blocked, hother, hblocked, -⟩ | ⟨other, accepted, memory, s', -, -, -, heq⟩
  · rw [hget] at hnone
    cases hnone
  · rw [hget] at hother
    cases hother
    exact hblocked hreasons
  · exact h candidate hget hunacceptable accepted memory s' heq

theorem learning_stays_sound_rejected : Sound plainLearning
    (run (learningStep plainLearning learningPolicyFile) .empty
      [.extract lessonRequest, .accept firstReview, .reject firstReview]) :=
  learning_stays_sound plainLearning_uuid_injective _

/-- A candidate that is accepted twice has two memories, one that is rejected afterwards keeps
its memory, and a duplicate is accepted like any other. -/
theorem reviews_out_of_order : ¬Along (learningStep plainLearning learningPolicyFile)
      (KeepsMirror plainLearning learningPolicyFile) .empty
      [.extract lessonRequest, .accept firstReview, .accept firstReview] ∧
    ¬Along (learningStep plainLearning learningPolicyFile)
      (KeepsMirror plainLearning learningPolicyFile) .empty
      [.extract lessonRequest, .accept firstReview, .reject firstReview] ∧
    ¬Along (learningStep plainLearning learningPolicyFile)
      (KeepsMirror plainLearning learningPolicyFile) .empty
      [.extract lessonRequest, .extract lessonRequest, .accept secondReview] := by
  refine ⟨?_, ?_, ?_⟩
  · rintro ⟨-, -, ⟨-, hmirror⟩, -⟩
    rw [learningStep_lessonRequest] at hmirror
    exact absurd hmirror.one (by decide +kernel)
  · rintro ⟨-, -, ⟨-, hmirror⟩, -⟩
    rw [learningStep_lessonRequest] at hmirror
    obtain ⟨candidate, hget, haccepted⟩ :=
      (hmirror.mirrored firstReview.candidateId).mp (by decide +kernel)
    have hstatus : (getCandidate (run (learningStep plainLearning learningPolicyFile)
        (lessonStore .empty) [.accept firstReview, .reject firstReview])
        firstReview.candidateId).map MemoryCandidateV2.status = some .rejected := by
      decide +kernel
    have hget' : getCandidate (run (learningStep plainLearning learningPolicyFile)
        (lessonStore .empty) [.accept firstReview, .reject firstReview])
        firstReview.candidateId = some candidate := hget
    rw [hget', map_some, haccepted] at hstatus
    cases hstatus
  · rintro ⟨-, -, ⟨haccepts, -⟩, -⟩
    rw [learningStep_lessonRequest, learningStep_lessonRequest] at haccepts
    have hsome : (getCandidate (lessonStore (lessonStore .empty)) secondReview.candidateId).map
        (fun candidate => (candidate.status, acceptBlockReasons candidate)) =
        some (.superseded, []) := by decide +kernel
    obtain ⟨candidate, hget, hpair⟩ := map_eq_some_iff.mp hsome
    have hstatus : candidate.status = .superseded := congrArg Prod.fst hpair
    have hreasons : acceptBlockReasons candidate = [] := congrArg Prod.snd hpair
    refine not_acceptsOnlyAcceptable hget (Or.inl ?_) hreasons haccepts
    rw [hstatus]
    decide

end AIpinho.Memory
