import AIpinho.Lib.Digraph
import AIpinho.Lib.Runs
import AIpinho.Memory.Curated

/-!
# The history of supersession

The links of the memories are a history if they lead in both directions, never in a circle, and
only from memories that were active. `supersede` asks for an active memory, `persist` does not,
and neither asks what else the store has of the candidate or of the text.
-/

namespace AIpinho.Memory

open List Lib
open AIpinho.Mission (containsText)
open Relation (TransGen)

namespace CuratedStore

variable (services : MemoryServices) (s s' : CuratedStore)

def Supersedes (newId oldId : String) : Prop :=
  ∃ memory, s.get? newId = some memory ∧ memory.supersedes = some oldId

def SupersededBy (oldId newId : String) : Prop :=
  ∃ memory, s.get? oldId = some memory ∧ memory.supersededBy = some newId

def IsActive (memoryId : String) : Prop :=
  ∃ memory, s.get? memoryId = some memory ∧ memory.status = .active

def SameText (memory other : CuratedMemory) : Prop :=
  memory.kind = other.kind ∧ memory.scopeType = other.scopeType ∧
    services.normalized memory.text = services.normalized other.text

instance : DecidableRel (SameText services) := fun _ _ =>
  inferInstanceAs (Decidable (_ ∧ _))

/-- The links are a consistent history. -/
structure IsHistory : Prop where
  /-- The links lead in both directions. -/
  inverse : ∀ newId oldId, s.Supersedes newId oldId ↔ s.SupersededBy oldId newId
  acyclic : ∀ memoryId, ¬TransGen s.Supersedes memoryId memoryId
  once : ∀ newId newId' oldId, s.Supersedes newId oldId → s.Supersedes newId' oldId →
    newId = newId'
  inactive : ∀ newId oldId, s.Supersedes newId oldId → ¬s.IsActive oldId
  distinct : ∀ memoryId memoryId' memory memory', s.get? memoryId = some memory →
    s.get? memoryId' = some memory' → memory.status = .active → memory'.status = .active →
      SameText services memory memory' → memoryId = memoryId'
  single : ∀ memoryId memoryId' memory memory', s.get? memoryId = some memory →
    s.get? memoryId' = some memory' → memory.candidateId = memory'.candidateId →
      memoryId = memoryId'

/-- Old links stay, and new ones supersede active memories. -/
def SupersedesActive : Prop :=
  (∀ newId oldId, s.Supersedes newId oldId → s'.Supersedes newId oldId) ∧
    ∀ newId oldId, s'.Supersedes newId oldId → s.Supersedes newId oldId ∨ s.IsActive oldId

/-- An identifier that is new, and that is a name of its own file. -/
structure IsFresh (memoryId : String) : Prop where
  unused : s.get? memoryId = none
  nonempty : memoryId ≠ ""
  sanitized : services.sanitize memoryId = memoryId
  named : services.fileOf memoryId = some memoryId

def Repeats (candidate : MemoryCandidate) (memory : CuratedMemory) : Prop :=
  memory.status = .active ∧ memory.kind = candidate.kind ∧
    memory.scopeType = candidate.scopeType ∧
    services.normalized memory.text = services.normalized candidate.text

def IsSearched (candidate : MemoryCandidate) : Prop :=
  (s.entries.filter fun entry =>
    isListed candidate.kind candidate.scopeType entry.2).length ≤ 10000

/-- What a request and a candidate leave a history. -/
structure Fits (request : CuratedMemoryRequest) (found : Findings)
    (candidate : MemoryCandidate) : Prop where
  fresh : s.IsFresh services found.memoryId
  scope : services.sanitize candidate.scopeType = candidate.scopeType
  candidateId : services.sanitize candidate.candidateId = candidate.candidateId
  single : ∀ entry ∈ s.entries, entry.2.candidateId ≠ candidate.candidateId
  /-- The memory to be superseded is there under its own name, and active. -/
  target : request.resolution = some "supersede_existing" →
    ∀ memoryId ∈ request.supersedeMemoryId,
      services.fileOf memoryId = some memoryId ∧ s.IsActive memoryId
  /-- No other active memory says the same as the candidate. -/
  alone : request.resolution = some "supersede_existing" → ∀ entry ∈ s.entries,
    Repeats services candidate entry.2 → request.supersedeMemoryId = some entry.1
  /-- Without one, all memories are searched for a duplicate. -/
  searched : request.resolution ≠ some "supersede_existing" → s.IsSearched candidate

def Passes (request : CuratedMemoryRequest) (found : Findings) (candidate : MemoryCandidate) :
    Prop :=
  found.candidate = some candidate ∧ validate services request found = .ok [] ∧
    ¬(s.duplicatesActive services candidate ∧ request.resolution ≠ some "supersede_existing")

/-- The `persist` of a call, if it comes to one. -/
def persistOf : MemoryOp → Option (CuratedMemoryRequest × Findings)
  | .persist request found => some (request, found)
  | .supersede memoryId request found =>
    match s.getMemory services memoryId with
    | .ok (some (_, existing)) =>
      if request.reason ≠ "" ∧ existing.status = .active then
        some (⟨request.candidateId, request.approvalId, request.operatorConfirmed,
          some "supersede_existing", some memoryId⟩, found)
      else none
    | _ => none

/-- The condition on a call: what it persists leaves a history. -/
def Meets (op : MemoryOp) : Prop :=
  ∀ request found candidate, s.persistOf services op = some (request, found) →
    s.Passes services request found candidate → s.Fits services request found candidate

end CuratedStore

section Sanitizing

variable {services : MemoryServices}

theorem scanStep_found (found : List String × String) (patterns : List TextPattern) :
    ∀ reason ∈ found.1, reason ∈ (patterns.foldl MemoryServices.scanStep found).1 := by
  induction patterns generalizing found with
  | nil => exact fun _ h => h
  | cons pattern patterns ih =>
    intro reason hreason
    refine ih _ reason ?_
    unfold MemoryServices.scanStep
    split
    · exact mem_append_left _ hreason
    · exact hreason

theorem search_eq_false_of_scan {patterns : List TextPattern} {text : String}
    (h : "secret_like_text" ∉ (patterns.foldl MemoryServices.scanStep ([], text)).1) :
    ∀ pattern ∈ patterns, pattern.search text = false := by
  induction patterns with
  | nil => exact fun _ h => absurd h not_mem_nil
  | cons first patterns ih =>
    cases hfirst : first.search text with
    | true =>
      have hmem := scanStep_found (MemoryServices.scanStep ([], text) first) patterns
        "secret_like_text" (by simp [MemoryServices.scanStep, hfirst])
      exact absurd hmem h
    | false =>
      have hstep : MemoryServices.scanStep ([], text) first = ([], text) := by
        simp [MemoryServices.scanStep, hfirst]
      rw [foldl_cons, hstep] at h
      exact forall_mem_cons.mpr ⟨hfirst, ih h⟩

theorem sanitize_eq_of_scan {text : String} (evidence : List CandidateEvidence)
    (h : "secret_like_text" ∉ services.scan text evidence) : services.sanitize text = text := by
  have hclean : ∀ pattern ∈ services.secretPatterns, pattern.search text = false :=
    search_eq_false_of_scan fun hmem => h (by simp [MemoryServices.scan, unique, hmem])
  have hnamed := services.namedSecret.sub_of_not_search "\\1=[REDACTED]" text
    (hclean _ (by simp [MemoryServices.secretPatterns]))
  have hkey := services.secretKey.sub_of_not_search "sk-[REDACTED]" text
    (hclean _ (by simp [MemoryServices.secretPatterns]))
  rw [MemoryServices.sanitize, hnamed, hkey]

theorem sanitize_eq_of_validate {request : CuratedMemoryRequest} {found : Findings}
    {candidate : MemoryCandidate} (hcandidate : found.candidate = some candidate)
    (h : validate services request found = .ok []) :
    services.sanitize candidate.text = candidate.text := by
  refine sanitize_eq_of_scan candidate.evidence fun hsecret => ?_
  have hchecked : "secret_like_text" ∈ services.validateCandidate (some candidate) := by
    simp [MemoryServices.validateCandidate, unique, hsecret]
  unfold validate at h
  rw [hcandidate] at h
  cases happroved : approvalReasons (some candidate) found.approval with
  | error e => simp [happroved, bind, Except.bind] at h
  | ok approved =>
    simp only [happroved, bind, Except.bind, pure, Except.pure, Except.ok.injEq, unique] at h
    have hnot := eq_nil_iff_forall_not_mem.mp h "secret_like_text"
    rw [mem_eraseDups] at hnot
    refine hnot (mem_append_left _ (mem_append_left _ ?_))
    -- what the resolution takes out of the reasons are others
    split_ifs <;> simp [hchecked]

end Sanitizing

namespace CuratedStore

variable {services : MemoryServices} {s s' : CuratedStore} {newId : String} {memory : CuratedMemory}

/-- An old memory before and after it is superseded by the new one. -/
structure Retired (newId : String) (old old' : CuratedMemory) : Prop where
  active : old.status = .active
  superseded : old'.status = .superseded
  names : old'.supersededBy = some newId
  supersedes : old'.supersedes = old.supersedes
  candidateId : old'.candidateId = old.candidateId

/-- A store with a new memory: what the memory supersedes is retired, the others are kept. -/
structure Adds (s s' : CuratedStore) (newId : String) (memory : CuratedMemory) : Prop where
  unused : s.get? newId = none
  stored : s'.get? newId = some memory
  active : memory.status = .active
  latest : memory.supersededBy = none
  retired : ∀ memoryId, memory.supersedes = some memoryId → ∃ old old',
    s.get? memoryId = some old ∧ s'.get? memoryId = some old' ∧ Retired newId old old'
  kept : ∀ memoryId, memoryId ≠ newId → memory.supersedes ≠ some memoryId →
    s'.get? memoryId = s.get? memoryId

variable {memoryId : String} {old : CuratedMemory}

theorem Adds.get?_cases (h : Adds s s' newId memory) {found : CuratedMemory}
    (hfound : s'.get? memoryId = some found) :
    (memoryId = newId ∧ found = memory) ∨
      (memory.supersedes = some memoryId ∧ ∃ old, s.get? memoryId = some old ∧
        Retired newId old found) ∨
      (memory.supersedes ≠ some memoryId ∧ s.get? memoryId = some found) := by
  by_cases hnew : memoryId = newId
  · subst hnew
    rw [h.stored, Option.some.injEq] at hfound
    exact .inl ⟨rfl, hfound.symm⟩
  · by_cases hold : memory.supersedes = some memoryId
    · obtain ⟨old, old', hget, hget', hretired⟩ := h.retired memoryId hold
      rw [hget', Option.some.injEq] at hfound
      subst hfound
      exact .inr (.inl ⟨hold, old, hget, hretired⟩)
    · rw [h.kept memoryId hnew hold] at hfound
      exact .inr (.inr ⟨hold, hfound⟩)

theorem Adds.supersedes_iff (h : Adds s s' newId memory) {a b : String} :
    s'.Supersedes a b ↔ s.Supersedes a b ∨ (a = newId ∧ memory.supersedes = some b) := by
  constructor
  · rintro ⟨found, hfound, hlink⟩
    rcases h.get?_cases hfound with ⟨rfl, rfl⟩ | ⟨_, old, hold, hretired⟩ | ⟨_, hold⟩
    · exact .inr ⟨rfl, hlink⟩
    · exact .inl ⟨old, hold, hretired.supersedes.symm.trans hlink⟩
    · exact .inl ⟨found, hold, hlink⟩
  · rintro (⟨found, hfound, hlink⟩ | ⟨rfl, hlink⟩)
    · have hne : a ≠ newId := by
        rintro rfl
        rw [h.unused] at hfound
        cases hfound
      by_cases hold : memory.supersedes = some a
      · obtain ⟨old, old', hget, hget', hretired⟩ := h.retired a hold
        rw [hget, Option.some.injEq] at hfound
        subst hfound
        exact ⟨old', hget', hretired.supersedes.trans hlink⟩
      · exact ⟨found, (h.kept a hne hold).trans hfound, hlink⟩
    · exact ⟨memory, h.stored, hlink⟩

theorem IsHistory.not_supersedes_of_unused (hs : s.IsHistory services)
    (hunused : s.get? newId = none) (a : String) : ¬s.Supersedes a newId := by
  intro hlink
  obtain ⟨found, hfound, _⟩ := (hs.inverse a newId).mp hlink
  rw [hunused] at hfound
  cases hfound

theorem Adds.supersededBy_iff (hs : s.IsHistory services) (h : Adds s s' newId memory)
    {a b : String} :
    s'.SupersededBy b a ↔ s.SupersededBy b a ∨ (a = newId ∧ memory.supersedes = some b) := by
  constructor
  · rintro ⟨found, hfound, hlink⟩
    rcases h.get?_cases hfound with ⟨rfl, rfl⟩ | ⟨hold, old, _, hretired⟩ | ⟨_, hget⟩
    · rw [h.latest] at hlink
      cases hlink
    · rw [hretired.names, Option.some.injEq] at hlink
      exact .inr ⟨hlink.symm, hold⟩
    · exact .inl ⟨found, hget, hlink⟩
  · rintro (⟨found, hfound, hlink⟩ | ⟨rfl, hlink⟩)
    · have hne : b ≠ newId := by
        rintro rfl
        rw [h.unused] at hfound
        cases hfound
      have hkept : memory.supersedes ≠ some b := by
        intro hold
        obtain ⟨old, _, hget, _, hretired⟩ := h.retired b hold
        have hback := (hs.inverse a b).mpr ⟨found, hfound, hlink⟩
        exact hs.inactive a b hback ⟨old, hget, hretired.active⟩
      exact ⟨found, (h.kept b hne hkept).trans hfound, hlink⟩
    · obtain ⟨_, old', _, hget', hretired⟩ := h.retired b hlink
      exact ⟨old', hget', hretired.names⟩

theorem Adds.active_cases (h : Adds s s' newId memory) {found : CuratedMemory}
    (hfound : s'.get? memoryId = some found) (hactive : found.status = .active) :
    (memoryId = newId ∧ found = memory) ∨
      (memory.supersedes ≠ some memoryId ∧ s.get? memoryId = some found) := by
  rcases h.get?_cases hfound with hnew | ⟨_, _, _, hretired⟩ | hold
  · exact .inl hnew
  · rw [hretired.superseded] at hactive
    cases hactive
  · exact .inr hold

theorem Adds.candidate_cases (h : Adds s s' newId memory) {found : CuratedMemory}
    (hfound : s'.get? memoryId = some found) :
    (memoryId = newId ∧ found = memory) ∨
      ∃ old, s.get? memoryId = some old ∧ old.candidateId = found.candidateId := by
  rcases h.get?_cases hfound with hnew | ⟨_, old, hold, hretired⟩ | ⟨_, hold⟩
  · exact .inl hnew
  · exact .inr ⟨old, hold, hretired.candidateId.symm⟩
  · exact .inr ⟨found, hold, rfl⟩

theorem SameText.symm {memory other : CuratedMemory} (h : SameText services memory other) :
    SameText services other memory :=
  ⟨h.1.symm, h.2.1.symm, h.2.2.symm⟩

/-- A memory that supersedes the active one of its text continues the history. -/
theorem IsHistory.of_adds (hs : s.IsHistory services) (h : Adds s s' newId memory)
    (hdistinct : ∀ memoryId old, s.get? memoryId = some old → old.status = .active →
      SameText services old memory → memory.supersedes = some memoryId)
    (hsingle : ∀ memoryId old, s.get? memoryId = some old →
      old.candidateId ≠ memory.candidateId) : s'.IsHistory services where
  inverse a b := by
    rw [h.supersedes_iff, h.supersededBy_iff hs, hs.inverse]
  acyclic := by
    refine Digraph.acyclic_of_source (s := newId) hs.acyclic ?_ ?_
    · intro a b hlink
      rcases h.supersedes_iff.mp hlink with hold | ⟨rfl, _⟩
      · exact .inr hold
      · exact .inl rfl
    · intro a hlink
      rcases h.supersedes_iff.mp hlink with hold | ⟨_, hself⟩
      · exact hs.not_supersedes_of_unused h.unused a hold
      · obtain ⟨_, _, hget, _⟩ := h.retired newId hself
        rw [h.unused] at hget
        cases hget
  once a a' b hlink hlink' := by
    -- the new memory supersedes an active one, which nothing supersedes
    have hnone : memory.supersedes = some b → ∀ a, ¬s.Supersedes a b := by
      intro hnew a hold
      obtain ⟨old, _, hget, _, hretired⟩ := h.retired b hnew
      exact hs.inactive a b hold ⟨old, hget, hretired.active⟩
    rcases h.supersedes_iff.mp hlink with hold | ⟨rfl, hnew⟩
    · rcases h.supersedes_iff.mp hlink' with hold' | ⟨rfl, hnew'⟩
      · exact hs.once a a' b hold hold'
      · exact absurd hold (hnone hnew' a)
    · rcases h.supersedes_iff.mp hlink' with hold' | ⟨rfl, _⟩
      · exact absurd hold' (hnone hnew a')
      · rfl
  inactive a b hlink := by
    rintro ⟨found, hfound, hactive⟩
    rcases h.active_cases hfound hactive with ⟨rfl, rfl⟩ | ⟨hne, hget⟩
    · obtain ⟨other, hother, hback⟩ := (h.supersededBy_iff hs).mpr
        ((h.supersedes_iff.mp hlink).imp_left (hs.inverse _ _).mp)
      rw [h.stored, Option.some.injEq] at hother
      subst hother
      rw [h.latest] at hback
      cases hback
    · rcases h.supersedes_iff.mp hlink with hold | ⟨_, hnew⟩
      · exact hs.inactive a b hold ⟨found, hget, hactive⟩
      · exact hne hnew
  distinct a a' found found' hfound hfound' hactive hactive' hsame := by
    rcases h.active_cases hfound hactive with ⟨rfl, rfl⟩ | ⟨hne, hget⟩
    · rcases h.active_cases hfound' hactive' with ⟨rfl, _⟩ | ⟨hne', hget'⟩
      · rfl
      · exact absurd (hdistinct a' found' hget' hactive' hsame.symm) hne'
    · rcases h.active_cases hfound' hactive' with ⟨rfl, rfl⟩ | ⟨_, hget'⟩
      · exact absurd (hdistinct a found hget hactive hsame) hne
      · exact hs.distinct a a' found found' hget hget' hactive hactive' hsame
  single a a' found found' hfound hfound' hsame := by
    rcases h.candidate_cases hfound with ⟨rfl, rfl⟩ | ⟨old, hold, hcandidate⟩
    · rcases h.candidate_cases hfound' with ⟨rfl, _⟩ | ⟨old', hold', hcandidate'⟩
      · rfl
      · exact absurd (hcandidate'.trans hsame.symm) (hsingle a' old' hold')
    · rcases h.candidate_cases hfound' with ⟨rfl, rfl⟩ | ⟨old', hold', hcandidate'⟩
      · exact absurd (hcandidate.trans hsame) (hsingle a old hold)
      · exact hs.single a a' old old' hold hold'
          ((hcandidate.trans hsame).trans hcandidate'.symm)

theorem Adds.supersedesActive (h : Adds s s' newId memory) : SupersedesActive s s' := by
  refine ⟨fun a b hold => h.supersedes_iff.mpr (.inl hold), fun a b hlink => ?_⟩
  refine (h.supersedes_iff.mp hlink).imp_right fun ⟨_, hnew⟩ => ?_
  obtain ⟨old, _, hget, _, hretired⟩ := h.retired b hnew
  exact ⟨old, hget, hretired.active⟩

def IsClean (services : MemoryServices) (s : CuratedStore) : Prop :=
  ∀ memoryId memory, s.get? memoryId = some memory → memoryId ≠ "" ∧
    services.sanitize memoryId = memoryId ∧
    services.sanitize memory.candidateId = memory.candidateId ∧
    memory.supersedes.map services.sanitize = memory.supersedes

variable {request : CuratedMemoryRequest} {found : Findings} {candidate : MemoryCandidate}

theorem persist_cases (services : MemoryServices) (request : CuratedMemoryRequest)
    (found : Findings) (s : CuratedStore) :
    (∃ candidate, s.Passes services request found candidate ∧
      (persist services request found s).2 = (writeMemory services request found candidate s).2) ∨
      (persist services request found s).2 = s := by
  unfold persist
  split
  · exact .inr rfl
  · rename_i candidate hvalid hcandidate
    split
    · exact .inr rfl
    · rename_i hduplicate
      exact .inl ⟨candidate, ⟨hcandidate, hvalid, hduplicate⟩, rfl⟩
  · exact .inr rfl

theorem step_cases (services : MemoryServices) (s : CuratedStore) (op : MemoryOp) :
    (∃ request found, s.persistOf services op = some (request, found) ∧
      op.step services s = (persist services request found s).2) ∨ op.step services s = s := by
  cases op with
  | persist request found => exact .inl ⟨request, found, rfl, rfl⟩
  | supersede memoryId request found =>
    simp only [MemoryOp.step, Memory.supersede, persistOf]
    by_cases hreason : request.reason = ""
    · exact .inr (by rw [if_pos hreason])
    · rw [if_neg hreason]
      rcases hget : s.getMemory services memoryId with e | found'
      · exact .inr rfl
      · rcases found' with _ | ⟨file, existing⟩
        · exact .inr rfl
        · by_cases hactive : existing.status = .active
          · refine .inl ⟨_, found, if_pos ⟨hreason, hactive⟩, ?_⟩
            simp [hactive]
          · exact .inr (by simp [hactive])

def storedMemory (services : MemoryServices) (request : CuratedMemoryRequest)
    (found : Findings) (candidate : MemoryCandidate) : CuratedMemory :=
  { newMemory request candidate found.now with
    approvalId := services.sanitize request.approvalId }

theorem sanitize_link (hclean : s.IsClean services)
    (hfits : s.Fits services request found candidate) :
    (storedMemory services request found candidate).supersedes.map services.sanitize =
      (storedMemory services request found candidate).supersedes := by
  simp only [storedMemory, newMemory]
  split
  · rename_i hresolution
    cases htarget : request.supersedeMemoryId with
    | none => rfl
    | some memoryId =>
      obtain ⟨_, old, hold, _⟩ := hfits.target hresolution memoryId htarget
      exact congrArg some (hclean memoryId old hold).2.1
  · rfl

theorem sanitized_newMemory (hclean : s.IsClean services)
    (hpasses : s.Passes services request found candidate)
    (hfits : s.Fits services request found candidate) :
    sanitized services (newMemory request candidate found.now) =
      storedMemory services request found candidate := by
  have htext := sanitize_eq_of_validate hpasses.1 hpasses.2.1
  have hlink : (newMemory request candidate found.now).supersedes.map services.sanitize =
      (newMemory request candidate found.now).supersedes := sanitize_link hclean hfits
  unfold sanitized
  rw [hlink]
  simp [storedMemory, newMemory, htext, hfits.scope, hfits.candidateId]

theorem writeMemory_of_none (h : (newMemory request candidate found.now).supersedes = none) :
    (writeMemory services request found candidate s).2 =
      s.saveMemory services found.memoryId (newMemory request candidate found.now) := by
  simp only [writeMemory, h, Option.filter_none]

theorem writeMemory_of_some
    (h : (newMemory request candidate found.now).supersedes = some memoryId)
    (hnonempty : memoryId ≠ "") (hfile : services.fileOf memoryId = some memoryId)
    (hget : s.get? memoryId = some old) :
    (writeMemory services request found candidate s).2 =
      (s.saveMemory services memoryId (markSuperseded found.memoryId found.now old)).saveMemory
        services found.memoryId (newMemory request candidate found.now) := by
  have hfilter : (some memoryId).filter (fun text => decide (text ≠ "")) = some memoryId := by
    simp [Option.filter, hnonempty]
  simp only [writeMemory, h, hfilter, getMemory, hfile, hget, Option.map_some]

theorem retired_markSuperseded (hclean : s.IsClean services) {now : String}
    (hget : s.get? memoryId = some old) (hactive : old.status = .active)
    (hnew : services.sanitize newId = newId) :
    Retired newId old (sanitized services (markSuperseded newId now old)) := by
  obtain ⟨_, _, hcandidate, hlink⟩ := hclean memoryId old hget
  exact ⟨hactive, rfl, by simp [sanitized, markSuperseded, hnew], hlink, hcandidate⟩

theorem adds_of_fits (hclean : s.IsClean services)
    (hpasses : s.Passes services request found candidate)
    (hfits : s.Fits services request found candidate) :
    Adds s (writeMemory services request found candidate s).2 found.memoryId
      (storedMemory services request found candidate) := by
  have hmemory := sanitized_newMemory hclean hpasses hfits
  cases htarget : (newMemory request candidate found.now).supersedes with
  | none =>
    rw [writeMemory_of_none htarget, saveMemory, hmemory]
    refine ⟨hfits.fresh.unused, Table.get?_insert_self .., rfl, rfl, ?_, ?_⟩
    · intro memoryId hsome
      cases htarget.symm.trans hsome
    · intro memoryId hne _
      exact Table.get?_insert_of_ne hne ..
  | some target =>
    have hnamed : request.resolution = some "supersede_existing" ∧
        request.supersedeMemoryId = some target := by
      simp only [newMemory] at htarget
      split at htarget
      · rename_i hresolution
        exact ⟨hresolution, htarget⟩
      · cases htarget
    obtain ⟨hfile, old, hget, hactive⟩ := hfits.target hnamed.1 target hnamed.2
    have hne : target ≠ found.memoryId := by
      rintro rfl
      rw [hfits.fresh.unused] at hget
      cases hget
    rw [writeMemory_of_some htarget (hclean target old hget).1 hfile hget, saveMemory, hmemory]
    refine ⟨hfits.fresh.unused, Table.get?_insert_self .., rfl, rfl, ?_, ?_⟩
    · intro memoryId hsome
      cases htarget.symm.trans hsome
      refine ⟨old, sanitized services (markSuperseded found.memoryId found.now old), hget, ?_,
        retired_markSuperseded hclean hget hactive hfits.fresh.sanitized⟩
      exact (Table.get?_insert_of_ne hne ..).trans (Table.get?_insert_self ..)
    · intro memoryId hnew hother
      have hnot : memoryId ≠ target := by
        rintro rfl
        exact hother htarget
      exact (Table.get?_insert_of_ne hnew ..).trans (Table.get?_insert_of_ne hnot ..)

theorem IsClean.of_adds (hclean : s.IsClean services) (h : Adds s s' newId memory)
    (hfresh : s.IsFresh services newId)
    (hcandidate : services.sanitize memory.candidateId = memory.candidateId)
    (hlink : memory.supersedes.map services.sanitize = memory.supersedes) :
    s'.IsClean services := by
  intro memoryId found hfound
  rcases h.get?_cases hfound with ⟨rfl, rfl⟩ | ⟨_, old, hold, hretired⟩ | ⟨_, hold⟩
  · exact ⟨hfresh.nonempty, hfresh.sanitized, hcandidate, hlink⟩
  · rw [hretired.candidateId, hretired.supersedes]
    exact hclean memoryId old hold
  · exact hclean memoryId found hold

theorem mem_listActive (hsearched : s.IsSearched candidate) (hget : s.get? memoryId = some old)
    (hlisted : isListed candidate.kind candidate.scopeType old = true) :
    old ∈ s.listActive candidate.kind candidate.scopeType 10000 := by
  have hperm : ((s.entries.insertionSort isAfter).map Prod.snd).Perm
      (s.entries.map Prod.snd) := (perm_insertionSort isAfter s.entries).map Prod.snd
  have hfilter := hperm.filter (isListed candidate.kind candidate.scopeType)
  have hlength : (((s.entries.insertionSort isAfter).map Prod.snd).filter
      (isListed candidate.kind candidate.scopeType)).length ≤ 10000 := by
    rw [hfilter.length_eq, filter_map, length_map]
    exact hsearched
  rw [listActive, take_of_length_le hlength, hfilter.mem_iff, mem_filter]
  exact ⟨mem_map_of_mem (f := Prod.snd) (Table.get?_eq_some_iff.mp hget), hlisted⟩

theorem supersedes_of_repeats (hpasses : s.Passes services request found candidate)
    (hfits : s.Fits services request found candidate) (hget : s.get? memoryId = some old)
    (hrepeats : Repeats services candidate old) :
    (newMemory request candidate found.now).supersedes = some memoryId := by
  by_cases hresolution : request.resolution = some "supersede_existing"
  · have htarget := hfits.alone hresolution (memoryId, old) (Table.get?_eq_some_iff.mp hget)
      hrepeats
    simp [newMemory, hresolution, htarget]
  · -- the search for a duplicate comes to the old memory
    refine absurd ⟨?_, hresolution⟩ hpasses.2.2
    obtain ⟨hactive, hkind, hscope, htext⟩ := hrepeats
    have hlisted := mem_listActive (hfits.searched hresolution) hget
      (by simp [isListed, hactive, hkind, hscope])
    exact any_eq_true.mpr ⟨old, hlisted, by simpa using htext⟩

theorem step_keeps_history (services : MemoryServices) (s : CuratedStore) (op : MemoryOp)
    (hs : s.IsHistory services ∧ s.IsClean services) (hmeets : s.Meets services op) :
    ((op.step services s).IsHistory services ∧ (op.step services s).IsClean services) ∧
      SupersedesActive s (op.step services s) := by
  have hkept : (s.IsHistory services ∧ s.IsClean services) ∧ SupersedesActive s s :=
    ⟨hs, fun _ _ h => h, fun _ _ h => .inl h⟩
  rcases step_cases services s op with ⟨request, found, hcall, hstep⟩ | hstep
  · rw [hstep]
    rcases persist_cases services request found s with ⟨candidate, hpasses, hwrite⟩ | hsame
    · have hfits := hmeets request found candidate hcall hpasses
      have hadds := adds_of_fits hs.2 hpasses hfits
      have hdistinct : ∀ memoryId old, s.get? memoryId = some old → old.status = .active →
          SameText services old (storedMemory services request found candidate) →
            (storedMemory services request found candidate).supersedes = some memoryId :=
        fun _ _ hget hactive hsame =>
          supersedes_of_repeats hpasses hfits hget ⟨hactive, hsame⟩
      have hsingle : ∀ memoryId old, s.get? memoryId = some old →
          old.candidateId ≠ (storedMemory services request found candidate).candidateId :=
        fun memoryId old hget =>
          hfits.single (memoryId, old) (Table.get?_eq_some_iff.mp hget)
      rw [hwrite]
      exact ⟨⟨hs.1.of_adds hadds hdistinct hsingle,
        hs.2.of_adds hadds hfits.fresh hfits.candidateId (sanitize_link hs.2 hfits)⟩,
        hadds.supersedesActive⟩
    · rw [hsame]
      exact hkept
  · rw [hstep]
    exact hkept

end CuratedStore

def CuratedStore.empty : CuratedStore := ⟨[], List.nodup_nil⟩

theorem CuratedStore.empty_isHistory (services : MemoryServices) :
    CuratedStore.empty.IsHistory services ∧ CuratedStore.empty.IsClean services := by
  have hnone : ∀ memoryId memory, CuratedStore.empty.get? memoryId ≠ some memory := by
    intro memoryId memory h
    cases h
  have hlink : ∀ a b, ¬CuratedStore.empty.Supersedes a b :=
    fun a _ ⟨memory, h, _⟩ => hnone a memory h
  refine ⟨⟨?_, ?_, ?_, ?_, ?_, ?_⟩, fun a memory h => absurd h (hnone a memory)⟩
  · exact fun a b => ⟨fun h => absurd h (hlink a b),
      fun ⟨memory, h, _⟩ => absurd h (hnone b memory)⟩
  · intro a hcycle
    obtain ⟨b, hstep, _⟩ := TransGen.head'_iff.mp hcycle
    exact hlink a b hstep
  · exact fun a _ b h => absurd h (hlink a b)
  · exact fun a b h => absurd h (hlink a b)
  · exact fun a _ memory _ h => absurd h (hnone a memory)
  · exact fun a _ memory _ h => absurd h (hnone a memory)

theorem along_supersedesActive (services : MemoryServices) {s : CuratedStore}
    {ops : List MemoryOp} (hs : s.IsHistory services ∧ s.IsClean services)
    (h : Along (MemoryOp.step services) (CuratedStore.Meets services) s ops) :
    Along (MemoryOp.step services) (fun s op => s.SupersedesActive (op.step services s)) s ops := by
  induction ops generalizing s with
  | nil => trivial
  | cons op ops ih =>
    have hstep := CuratedStore.step_keeps_history services s op hs h.1
    exact ⟨hstep.2, ih hstep.1 h.2⟩

/-- After any calls that meet the condition, the links of the memories are a consistent
history, and each memory that was superseded on the way was active. -/
theorem supersession_is_history (services : MemoryServices) {ops : List MemoryOp}
    (h : Along (MemoryOp.step services) (CuratedStore.Meets services) .empty ops) :
    (run (MemoryOp.step services) .empty ops).IsHistory services ∧ Along (MemoryOp.step services)
        (fun s op => s.SupersedesActive (op.step services s)) .empty ops := by
  have hempty := CuratedStore.empty_isHistory services
  have hrun := run_invariant (P := fun s : CuratedStore =>
    s.IsHistory services ∧ s.IsClean services)
    (fun s op hs hmeets => (CuratedStore.step_keeps_history services s op hs hmeets).1) hempty h
  exact ⟨hrun.1, along_supersedesActive services hempty h⟩

def partPattern (part : String) : TextPattern where
  search text := containsText text part
  sub mark text := if containsText text part then mark else text
  sub_of_not_search _ _ h := if_neg (by simp [h])

def plainServices : MemoryServices where
  namedSecret := partPattern "password="
  privateKey := partPattern "PRIVATE KEY"
  secretKey := partPattern "sk-"
  lower text := String.ofList (text.toList.map Char.toLower)
  isForbidden _ := false
  fileOf := some

def approvedCandidate (candidateId text memoryId : String) : Findings where
  candidate := some
    { candidateId, text, status := .candidate, kind := .testingGuidance, sourceType := "run",
      sourceId := some "r", sourceRef := none, scopeType := "tests", scopeWorkspace := none,
      evidence := [⟨"e", "r", "seen"⟩], criticalReasons := none, dedupe := .unique,
      hasConflict := false }
  approval := some
    { status := .approved, approvalScope := "curated_memory_persist", expiresAt := "",
      updatedAt := "", executionStatus := "", approvalAuthority := "",
      members := [("policy_snapshot", .obj [("config_versions", .obj [("memory",
        .obj [("candidate_id", .str candidateId), ("kind", .str "testing_guidance")])])])] }
  memoryId
  now := "t"

def persistRequest (candidateId : String) (target : Option String) : CuratedMemoryRequest where
  candidateId
  approvalId := "a"
  operatorConfirmed := true
  resolution := target.map fun _ => "supersede_existing"
  supersedeMemoryId := target

def twoMemories : List MemoryOp :=
  [.persist (persistRequest "c" none) (approvedCandidate "c" "x" "m"),
    .supersede "m" ⟨"d", "a", "better", true⟩ (approvedCandidate "d" "y" "n")]

def oneMemory : CuratedStore :=
  run (MemoryOp.step plainServices) .empty (twoMemories.take 1)

theorem supersession_is_history_twoMemories :
    (run (MemoryOp.step plainServices) .empty twoMemories).IsHistory plainServices ∧
      Along (MemoryOp.step plainServices)
        (fun s op => s.SupersedesActive (op.step plainServices s)) .empty twoMemories := by
  refine supersession_is_history plainServices ⟨?_, ?_, trivial⟩
  · intro request found candidate hcall hpasses
    obtain ⟨rfl, rfl⟩ : persistRequest "c" none = request ∧
        approvedCandidate "c" "x" "m" = found := by
      simpa [CuratedStore.persistOf] using hcall
    cases hpasses.1
    exact ⟨⟨rfl, by decide, by decide +kernel, rfl⟩, by decide +kernel, by decide +kernel,
      fun _ h => absurd h not_mem_nil, (fun h => nomatch h), (fun h => nomatch h),
      fun _ => Nat.zero_le _⟩
  · change oneMemory.Meets plainServices _
    intro request found candidate hcall hpasses
    have hfirst : oneMemory.getMemory plainServices "m" = .ok (some ("m", newMemory
        (persistRequest "c" none) ((approvedCandidate "c" "x" "m").candidate.get rfl) "t")) := by
      rfl
    obtain ⟨rfl, rfl⟩ : persistRequest "d" (some "m") = request ∧
        approvedCandidate "d" "y" "n" = found := by
      simpa [CuratedStore.persistOf, hfirst, newMemory, persistRequest] using hcall
    cases hpasses.1
    refine ⟨⟨by decide +kernel, by decide, by decide +kernel, rfl⟩, by decide +kernel,
      by decide +kernel, by decide +kernel, ?_, ?_, (fun h => absurd rfl h)⟩
    · intro _ memoryId hmemoryId
      cases hmemoryId
      exact ⟨rfl, newMemory (persistRequest "c" none)
        ((approvedCandidate "c" "x" "m").candidate.get rfl) "t", by decide +kernel, rfl⟩
    · intro _ entry hentry _
      have honly : ∀ entry ∈ oneMemory.entries, entry.1 = "m" := by decide +kernel
      rw [honly entry hentry]
      rfl

def thirdMemory : MemoryOp :=
  .persist (persistRequest "e" (some "m")) (approvedCandidate "e" "z" "o")

theorem superseded_again_is_not_history : ¬∀ (services : MemoryServices) (ops : List MemoryOp),
      (run (MemoryOp.step services) .empty ops).IsHistory services ∧ Along (MemoryOp.step services)
          (fun s op => s.SupersedesActive (op.step services s)) .empty ops := by
  intro hall
  have hhistory := (hall plainServices (twoMemories ++ [thirdMemory])).1
  have hfirst : ((run (MemoryOp.step plainServices) .empty
      (twoMemories ++ [thirdMemory])).get? "n").bind (·.supersedes) = some "m" := by
    decide +kernel
  have hsecond : ((run (MemoryOp.step plainServices) .empty
      (twoMemories ++ [thirdMemory])).get? "o").bind (·.supersedes) = some "m" := by
    decide +kernel
  have hsame := hhistory.once "n" "o" "m" (Option.bind_eq_some_iff.mp hfirst)
    (Option.bind_eq_some_iff.mp hsecond)
  exact absurd hsame (by decide)

end AIpinho.Memory
