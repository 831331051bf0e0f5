import Mathlib.Algebra.GroupWithZero.Nat
import Mathlib.Data.List.Infix
import Mathlib.Data.Int.Order.Basic
import Mathlib.Algebra.BigOperators.Group.List.Basic
import Mathlib.Algebra.Order.BigOperators.Group.List

/-!
# The context of a vector query

`RAGVectorQueryService` keeps hits as long as their texts fit the budget. The context that it
has built from what is kept also numbers and cites them and puts blank lines between them, so
it fits only if all of that does too.
-/

namespace AIpinho.Rag

open List

/-- `SourceRef`, with what is read of it. -/
structure SourceRef where
  sourceId : String
  ref : String

/-- `Citation`, with what is read of it. -/
structure Citation where
  citationId : String
  sourceRef : Option SourceRef
  excerpt : String

/-- A hit of the vector index. -/
structure RAGVectorHit where
  namespaceId : String
  chunkId : String
  text : String
  citation : Citation

/-- A hit as the builder of contexts takes it. -/
structure RetrievalHit where
  title : String
  excerpt : String
  citation : Option Citation

/-- What a query asks about its context. -/
structure RAGQueryRequest where
  includeContextBundle : Bool
  maxContextChars : ℤ

/-- `RetrievalContextBundle`, without its copies of the request and of the citations. -/
structure RetrievalContextBundle where
  status : String
  hits : List RetrievalHit
  safeForPromptAssembly : Bool
  contextText : String
  warnings : List String
  blockedReasons : List String

structure RAGQueryResult where
  status : String
  hits : List RAGVectorHit
  contextBundle : Option RetrievalContextBundle

/-! ### Building a context -/

/-- The reasons of `validate_source_ref`. -/
def validateSourceRef : Option SourceRef → List String
  | none => ["source_ref_missing"]
  | some sourceRef =>
    (if sourceRef.sourceId = "" then ["source_id_missing"] else []) ++
      if sourceRef.ref = "" then ["source_ref_location_missing"] else []

/-- The reasons of `validate_citation`. -/
def validateCitation : Option Citation → List String
  | none => ["citation_missing"]
  | some citation =>
    validateSourceRef citation.sourceRef ++
      if citation.excerpt = "" then ["citation_excerpt_missing"] else []

/-- The text of a hit in a context, with the number before it and its citation behind. -/
def contextEntry (index : ℕ) (hit : RetrievalHit) : String :=
  "[" ++ toString (index + 1) ++ "] " ++ hit.excerpt ++ "\nCitation: " ++
    (hit.citation.map (·.citationId)).getD "missing"

/-- `RetrievalContextBuilder.build`. -/
def buildContext (hits : List RetrievalHit) (warnings : List String) : RetrievalContextBundle :=
  let validHits := hits.filter fun hit => (validateCitation hit.citation).isEmpty
  let blocked := hits.flatMap fun hit => validateCitation hit.citation
  { status := if !blocked.isEmpty && validHits.isEmpty then "blocked"
      else if validHits.isEmpty then "no_results" else "found"
    hits := validHits
    safeForPromptAssembly := !validHits.isEmpty && blocked.isEmpty
    contextText := "\n\n".intercalate (validHits.mapIdx contextEntry)
    warnings := warnings.eraseDups
    blockedReasons := blocked.eraseDups }

/-! ### The end of a query -/

/-- `_context_text`, which is only measured. -/
def contextText (hits : List RAGVectorHit) : String :=
  "\n\n".intercalate (hits.map (·.text))

/-- The loop of `_trim_hits`, which stops at the first hit that finds no room. -/
def trimFrom (budget used : ℤ) : List RAGVectorHit → List RAGVectorHit
  | [] => []
  | hit :: hits =>
    if used + hit.text.length > budget then []
    else hit :: trimFrom budget (used + hit.text.length) hits

/-- `_trim_hits`. -/
def trimHits (hits : List RAGVectorHit) (budget : ℤ) : List RAGVectorHit := trimFrom budget 0 hits

def retrievalHit (hit : RAGVectorHit) : RetrievalHit := ⟨hit.namespaceId, hit.text, hit.citation⟩

/-- `_context_bundle`. -/
def contextBundle (hits : List RAGVectorHit) (status : String) : RetrievalContextBundle :=
  { buildContext (hits.map retrievalHit)
      (if status ≠ "partial" then [] else ["context_budget_partial"]) with
    status := status }

/-- `_result`. -/
def queryResult (request : RAGQueryRequest) (status : String) (hits : List RAGVectorHit) :
    RAGQueryResult where
  status := status
  hits := hits
  contextBundle :=
    if request.includeContextBundle && !hits.isEmpty then some (contextBundle hits status)
    else none

/-- The end of `query`, from the ranked hits on. -/
def withinContext (request : RAGQueryRequest) (hits : List RAGVectorHit) : RAGQueryResult :=
  if (contextText hits).length > request.maxContextChars then
    queryResult request "partial" (trimHits hits request.maxContextChars)
  else queryResult request "found" hits

/-- The text of the context in a result. -/
def RAGQueryResult.builtText (result : RAGQueryResult) : String :=
  (result.contextBundle.map (·.contextText)).getD ""

/-! ### How long the texts are -/

/-- The characters of the texts, without what is put between them. -/
def textLength (hits : List RAGVectorHit) : ℕ := (hits.map (·.text.length)).sum

/-- The citation of a hit names a source, a place in it and an excerpt. -/
def RAGVectorHit.IsCited (hit : RAGVectorHit) : Prop :=
  (∃ sourceRef, hit.citation.sourceRef = some sourceRef ∧ sourceRef.sourceId ≠ "" ∧
    sourceRef.ref ≠ "") ∧ hit.citation.excerpt ≠ ""

instance (hit : RAGVectorHit) : Decidable hit.IsCited :=
  match h : hit.citation.sourceRef with
  | none => .isFalse fun hcited => by simp [RAGVectorHit.IsCited, h] at hcited
  | some sourceRef =>
    decidable_of_iff ((sourceRef.sourceId ≠ "" ∧ sourceRef.ref ≠ "") ∧ hit.citation.excerpt ≠ "")
      (by simp [RAGVectorHit.IsCited, h])

/-- The characters of a numbered and cited text. -/
def entryLength (index : ℕ) (hit : RAGVectorHit) : ℕ :=
  (toString (index + 1)).length + hit.text.length + hit.citation.citationId.length + 14

/-- The characters of a context: those of its entries, which are the cited hits, and two more
between any two of them. -/
def builtLength (hits : List RAGVectorHit) : ℕ :=
  ((hits.filter (·.IsCited)).mapIdx entryLength).sum + 2 * ((hits.filter (·.IsCited)).length - 1)

variable {hits kept : List RAGVectorHit} {budget : ℤ}

theorem length_joined (texts : List String) :
    ("\n\n".intercalate texts).length =
      (texts.map String.length).sum + 2 * (texts.length - 1) := by
  induction texts with
  | nil => simp
  | cons text texts ih =>
    cases texts with
    | nil => simp
    | cons next texts =>
      simp only [map_cons, String.intercalate_cons_cons, String.length_append, sum_cons,
        length_cons] at ih ⊢
      have hsep : "\n\n".length = 2 := rfl
      omega

theorem length_contextText (hits : List RAGVectorHit) :
    (contextText hits).length = textLength hits + 2 * (hits.length - 1) := by
  rw [contextText, length_joined, map_map, length_map]
  rfl

theorem validateCitation_isEmpty (hit : RAGVectorHit) :
    (validateCitation (some hit.citation)).isEmpty = decide hit.IsCited := by
  rw [Bool.eq_iff_iff, decide_eq_true_iff]
  cases h : hit.citation.sourceRef with
  | none => simp [validateCitation, validateSourceRef, RAGVectorHit.IsCited, h]
  | some sourceRef =>
    simp only [validateCitation, validateSourceRef, RAGVectorHit.IsCited, h]
    by_cases hid : sourceRef.sourceId = "" <;> by_cases href : sourceRef.ref = "" <;>
      by_cases hexcerpt : hit.citation.excerpt = "" <;> simp [hid, href, hexcerpt]

theorem length_contextEntry (index : ℕ) (hit : RAGVectorHit) :
    (contextEntry index (retrievalHit hit)).length = entryLength index hit := by
  have hopen : "[".length = 1 := rfl
  have hclose : "] ".length = 2 := rfl
  have hcitation : "\nCitation: ".length = 11 := rfl
  simp only [contextEntry, retrievalHit, String.length_append, Option.map_some, Option.getD_some,
    entryLength]
  omega

theorem length_buildContext (hits : List RAGVectorHit) (warnings : List String) :
    (buildContext (hits.map retrievalHit) warnings).contextText.length = builtLength hits := by
  have hvalid : (hits.map retrievalHit).filter
      (fun hit => (validateCitation hit.citation).isEmpty) =
        (hits.filter (·.IsCited)).map retrievalHit := by
    rw [filter_map]
    refine congrArg (map retrievalHit) (filter_congr fun hit _ => ?_)
    exact validateCitation_isEmpty hit
  have hentries : ∀ cited : List RAGVectorHit,
      ((cited.map retrievalHit).mapIdx contextEntry).map String.length =
        cited.mapIdx entryLength := by
    intro cited
    refine ext_getElem? fun index => ?_
    cases h : cited[index]? <;> simp [h, length_contextEntry]
  simp only [buildContext, hvalid]
  rw [length_joined, hentries, length_mapIdx, length_map, builtLength]

theorem length_builtText (request : RAGQueryRequest) (status : String)
    (hits : List RAGVectorHit) : (queryResult request status hits).builtText.length =
      if request.includeContextBundle then builtLength hits else 0 := by
  cases hinclude : request.includeContextBundle with
  | false => simp [queryResult, RAGQueryResult.builtText, hinclude]
  | true =>
    cases hits with
    | nil => simp [queryResult, RAGQueryResult.builtText, builtLength]
    | cons hit hits =>
      simpa [queryResult, RAGQueryResult.builtText, hinclude, contextBundle] using
        length_buildContext (hit :: hits) _

theorem textLength_append (hits rest : List RAGVectorHit) :
    textLength (hits ++ rest) = textLength hits + textLength rest := by
  simp [textLength]

theorem textLength_le (h : kept <+: hits) : textLength kept ≤ textLength hits := by
  obtain ⟨rest, rfl⟩ := h
  rw [textLength_append]
  omega

theorem builtLength_le (h : kept <+: hits) : builtLength kept ≤ builtLength hits := by
  obtain ⟨rest, rfl⟩ := h
  simp only [builtLength, filter_append, mapIdx_append, sum_append, length_append]
  omega

/-! ### What is kept -/

theorem trimFrom_isPrefix (budget used : ℤ) (hits : List RAGVectorHit) :
    trimFrom budget used hits <+: hits := by
  induction hits generalizing used with
  | nil => exact nil_prefix
  | cons hit hits ih =>
    rw [trimFrom]
    split
    · exact nil_prefix
    · exact prefix_cons_inj hit |>.mpr (ih _)

theorem textLength_trimFrom {used : ℤ} (h : used ≤ budget) :
    used + textLength (trimFrom budget used hits) ≤ budget := by
  induction hits generalizing used with
  | nil => simpa [trimFrom, textLength] using h
  | cons hit hits ih =>
    rw [trimFrom]
    split
    · simpa [textLength] using h
    · rename_i hroom
      have hrest := @ih (used + hit.text.length) (by omega)
      simp only [textLength, map_cons, sum_cons] at hrest ⊢
      omega

theorem isPrefix_trimFrom {used : ℤ} (hkept : kept <+: hits)
    (h : used + textLength kept ≤ budget) : kept <+: trimFrom budget used hits := by
  induction hits generalizing used kept with
  | nil => exact hkept
  | cons hit hits ih =>
    cases kept with
    | nil => exact nil_prefix
    | cons first kept =>
      obtain ⟨rfl, hrest⟩ := cons_prefix_cons.mp hkept
      simp only [textLength, map_cons, sum_cons] at h
      rw [trimFrom, if_neg (by omega)]
      exact cons_prefix_cons.mpr ⟨rfl, ih hrest (by simp only [textLength]; omega)⟩

theorem isPrefix_trimHits_iff (hbudget : 0 ≤ budget) (hkept : kept <+: hits) :
    kept <+: trimHits hits budget ↔ textLength kept ≤ budget := by
  constructor
  · intro h
    have hlength : 0 + (textLength (trimHits hits budget) : ℤ) ≤ budget :=
      textLength_trimFrom hbudget
    have hle := textLength_le h
    omega
  · exact fun h => isPrefix_trimFrom hkept (by omega)

theorem withinContext_hits (request : RAGQueryRequest) (hits : List RAGVectorHit) :
    (withinContext request hits).hits = trimHits hits request.maxContextChars := by
  rw [withinContext]
  split
  · rfl
  · rename_i hfits
    have hlength := length_contextText hits
    have hall : hits <+: trimHits hits request.maxContextChars :=
      isPrefix_trimFrom prefix_rfl (by omega)
    exact hall.eq_of_length_le (trimFrom_isPrefix _ _ _).length_le

theorem withinContext_builtText (request : RAGQueryRequest) (hits : List RAGVectorHit) :
    (withinContext request hits).builtText.length =
      if request.includeContextBundle then builtLength (trimHits hits request.maxContextChars)
      else 0 := by
  rw [← withinContext_hits, withinContext]
  split <;> exact length_builtText request _ _

/-- The context in a result is within the budget, and what is kept is the longest beginning of
the hits whose context is. -/
structure FitsBudget (request : RAGQueryRequest) (hits : List RAGVectorHit)
    (result : RAGQueryResult) : Prop where
  fits : result.builtText.length ≤ request.maxContextChars
  begins : result.hits <+: hits
  longest : ∀ other status, other <+: hits →
    (queryResult request status other).builtText.length ≤ request.maxContextChars →
      other <+: result.hits

/-- The hits of a query are the longest beginning whose context fits exactly if the budget is not
negative and each beginning that fits by its texts alone does so with its numbers, citations
and blank lines too, and the other way round (a hit without a full citation takes up room but is
no part of the context). Where no context is asked for, all texts have to fit. -/
theorem query_fits_iff (request : RAGQueryRequest) (hits : List RAGVectorHit) :
    FitsBudget request hits (withinContext request hits) ↔
      0 ≤ request.maxContextChars ∧ ∀ kept, kept <+: hits →
        (textLength kept ≤ request.maxContextChars ↔
          (request.includeContextBundle = true → builtLength kept ≤ request.maxContextChars)) := by
  have hbegins : trimHits hits request.maxContextChars <+: hits := trimFrom_isPrefix _ _ _
  -- the length of a context, where it is asked for
  have hfits : ∀ kept, 0 ≤ request.maxContextChars →
      ((if request.includeContextBundle then builtLength kept else 0 : ℕ) ≤
          request.maxContextChars ↔
        (request.includeContextBundle = true → builtLength kept ≤ request.maxContextChars)) := by
    intro kept hbudget
    cases request.includeContextBundle <;> simp [hbudget]
  constructor
  · intro h
    have hbudget : 0 ≤ request.maxContextChars := le_trans (Int.natCast_nonneg _) h.fits
    have hfitted := h.fits
    rw [withinContext_builtText, hfits _ hbudget] at hfitted
    refine ⟨hbudget, fun kept hkept => ?_⟩
    rw [← isPrefix_trimHits_iff hbudget hkept]
    constructor
    · intro hprefix hinclude
      have hle := builtLength_le hprefix
      have := hfitted hinclude
      omega
    · intro hlength
      have hlongest := h.longest kept "found" hkept
      rw [length_builtText, hfits _ hbudget, withinContext_hits] at hlongest
      exact hlongest hlength
  · rintro ⟨hbudget, h⟩
    refine ⟨?_, by rwa [withinContext_hits], fun other status hother hlength => ?_⟩
    · rw [withinContext_builtText, hfits _ hbudget, ← h _ hbegins,
        ← isPrefix_trimHits_iff hbudget hbegins]
    · rw [length_builtText, hfits _ hbudget, ← h _ hother] at hlength
      rw [withinContext_hits, isPrefix_trimHits_iff hbudget hother]
      exact hlength

/-- A hit of five characters, which its number and its citation make 61. -/
def shortHit : RAGVectorHit :=
  ⟨"docs", "a", "aaaaa",
    ⟨"citation_0123456789abcdef0123456789abcdef", some ⟨"docs", "docs/a.md"⟩, "aaaaa"⟩⟩

theorem citations_are_not_counted :
    ¬FitsBudget ⟨true, 10⟩ [shortHit] (withinContext ⟨true, 10⟩ [shortHit]) := by
  intro h
  have hfits := h.fits
  rw [withinContext_builtText] at hfits
  revert hfits
  decide

end AIpinho.Rag
