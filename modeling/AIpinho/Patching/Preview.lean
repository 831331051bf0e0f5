import AIpinho.Patching.PatchApply

/-!
# Previewed and applied hunks

Three services interpret the hunks of a file: the engine that writes it, the diff for the
approval and the contents for the quality gate. The engine takes a hunk without original as the
whole file and rejects a hunk whose original is missing; the other two replace the first
occurrence and go on.
-/

namespace AIpinho.Patching

open List

/-- The content that `UnifiedDiffBuilder.from_hunks` compares with the original. -/
def previewContent (content : Text) (hunks : List PatchHunk) : Text :=
  hunks.foldl (fun content hunk => replaceFirst hunk.original hunk.replacement content) content

/-- `UnifiedDiffBuilder.from_hunks`, with the diff of two contents. -/
def fromHunks {δ : Type} (build : String → Text → Text → δ) (filePath : String)
    (originalContent : Text) (hunks : List PatchHunk) : δ :=
  build filePath originalContent (previewContent originalContent hunks)

/-- The contents of files by path, in order. -/
abbrev Contents : Type := List (String × Text)

def keyNames (filePath key : String) : Bool :=
  forwardSlashes key = forwardSlashes filePath ||
    ('/' :: forwardSlashes filePath).isSuffixOf (forwardSlashes key)

/-- `PatchQualityGateService._lookup_content`. -/
def lookupContent (filePath : String) (contents : Contents) : Option Text :=
  (contents.find? fun entry => keyNames filePath entry.1).map Prod.snd

def setContent (filePath : String) (content : Text) : Contents → Contents
  | [] => [(filePath, content)]
  | entry :: contents =>
    if entry.1 = filePath then (filePath, content) :: contents
    else entry :: setContent filePath content contents

/-- `PatchQualityGateService._proposed_contents` for the hunks of a plan. -/
def proposedContents (hunks : List PatchHunk) (fileContents : Contents) : Contents :=
  hunks.foldl
    (fun proposed hunk =>
      let content := (lookupContent hunk.filePath proposed).getD []
      setContent hunk.filePath (replaceFirst hunk.original hunk.replacement content) proposed)
    fileContents

/-- What is previewed is what is applied: the diff and the quality gate see the
content that the engine writes, and nothing new if the engine rejects the hunks. -/
def PreviewAgrees (services : ApplyServices) (plan : PatchPlan) (file : AffectedFile)
    (fileContents : Contents) : Prop :=
  let current := fileContents.lookup file.rel
  let content := current.getD []
  let hunks := plan.hunksOf file
  match (applyHunks services content hunks []).1 with
  | .ok written => previewContent content hunks = written ∧
      (proposedContents plan.hunks fileContents).lookup file.rel = some written
  | .error _ => previewContent content hunks = content ∧
      (proposedContents plan.hunks fileContents).lookup file.rel = current

/-- Each hunk finds its original in what those before have made of the text; an empty one only in an
empty text. -/
def FindsOriginals : Text → List PatchHunk → Prop
  | _, [] => True
  | content, hunk :: hunks =>
    (if hunk.original = [] then content = [] else hunk.original <:+: content) ∧
      FindsOriginals (replaceFirst hunk.original hunk.replacement content) hunks

/-- Some hunk does not find its original; a hunk without one replaces the text. -/
def MissesOriginal : Text → List PatchHunk → Prop
  | _, [] => False
  | content, hunk :: hunks =>
    if hunk.original = [] then MissesOriginal hunk.replacement hunks
    else ¬hunk.original <:+: content ∨
      MissesOriginal (replaceFirst hunk.original hunk.replacement content) hunks

/-- The entry found for a file is under its own name. -/
def OwnEntry (filePath : String) (contents : Contents) : Prop :=
  ∀ entry, contents.find? (fun entry => keyNames filePath entry.1) = some entry →
    entry.1 = filePath

theorem replaceFirst_nil (new text : Text) : replaceFirst [] new text = new ++ text := by
  cases text <;> simp [replaceFirst]

theorem replaceFirst_append {old new text : Text} (h : old <:+: text) (rest : Text) :
    replaceFirst old new (text ++ rest) = replaceFirst old new text ++ rest := by
  induction text with
  | nil =>
    obtain rfl : old = [] := eq_nil_of_infix_nil h
    simp [replaceFirst_nil]
  | cons c text ih =>
    have hlength : old.length ≤ (c :: text).length := h.length_le
    rw [cons_append, replaceFirst, replaceFirst, ← cons_append]
    by_cases hprefix : old <+: c :: text
    · have hlonger : old <+: c :: text ++ rest := hprefix.trans (prefix_append _ _)
      rw [if_pos (by simpa using hlonger), if_pos (by simpa using hprefix),
        drop_append_of_le_length hlength, append_assoc]
    · have hnot : ¬old <+: c :: text ++ rest := fun hlonger =>
        hprefix (prefix_of_prefix_length_le hlonger (prefix_append _ _) hlength)
      have htail : old <:+: text := (infix_cons_iff.mp h).resolve_left hprefix
      rw [if_neg (by simpa using hnot), if_neg (by simpa using hprefix), ih htail, cons_append]

section Engine

variable {services : ApplyServices}

theorem applyHunks_cons (content : Text) (hunk : PatchHunk) (hunks : List PatchHunk)
    (results : List HunkApplyResult) :
    (applyHunks services content (hunk :: hunks) results).1 = if hunk.original = [] then
        (applyHunks services hunk.replacement hunks
          (results ++ [(applyHunk services content hunk).2])).1
      else if hunk.original <:+: content then
        (applyHunks services (replaceFirst hunk.original hunk.replacement content) hunks
          (results ++ [(applyHunk services content hunk).2])).1
      else .error (applyHunk services content hunk).2 := by
  by_cases hempty : hunk.original = []
  · simp [applyHunks, applyHunk, hempty]
  · by_cases hoccurs : hunk.original <:+: content
    · simp [applyHunks, applyHunk, hempty, hoccurs]
    · simp [applyHunks, applyHunk, hempty, hoccurs]

variable (services) in
theorem applyHunks_rejects_iff (content : Text) (hunks : List PatchHunk)
    (results : List HunkApplyResult) :
    (∃ result, (applyHunks services content hunks results).1 = .error result) ↔
      MissesOriginal content hunks := by
  induction hunks generalizing content results with
  | nil => simp [applyHunks, MissesOriginal]
  | cons hunk hunks ih =>
    rw [applyHunks_cons, MissesOriginal]
    split
    · exact ih _ _
    · split
      · rename_i hoccurs
        rw [ih]
        simp [hoccurs]
      · rename_i hoccurs
        simp [hoccurs]

theorem previewContent_of_applied (rest : Text) {content written : Text}
    {hunks : List PatchHunk} {results : List HunkApplyResult}
    (h : (applyHunks services content hunks results).1 = .ok written) :
    ∃ rest', previewContent (content ++ rest) hunks = written ++ rest' ∧
      (rest' = [] ↔ rest = [] ∧ FindsOriginals content hunks) := by
  induction hunks generalizing content rest results with
  | nil =>
    cases h
    exact ⟨rest, rfl, by simp [FindsOriginals]⟩
  | cons hunk hunks ih =>
    rw [applyHunks_cons] at h
    rw [previewContent, foldl_cons, ← previewContent, FindsOriginals]
    split at h
    · rename_i hempty
      rw [hempty, replaceFirst_nil, replaceFirst_nil]
      obtain ⟨rest', hpreview, hrest⟩ := ih (content ++ rest) h
      refine ⟨rest', hpreview, ?_⟩
      rw [hrest, append_eq_nil_iff, if_pos rfl]
      constructor
      · rintro ⟨⟨rfl, hnil⟩, hfinds⟩
        exact ⟨hnil, rfl, by simpa using hfinds⟩
      · rintro ⟨hnil, rfl, hfinds⟩
        exact ⟨⟨rfl, hnil⟩, by simpa using hfinds⟩
    · rename_i hempty
      split at h
      · rename_i hoccurs
        rw [replaceFirst_append hoccurs]
        obtain ⟨rest', hpreview, hrest⟩ := ih rest h
        refine ⟨rest', hpreview, ?_⟩
        rw [hrest, if_neg hempty]
        simp [hoccurs]
      · cases h

theorem previewContent_eq_iff {content written : Text} {hunks : List PatchHunk}
    {results : List HunkApplyResult}
    (h : (applyHunks services content hunks results).1 = .ok written) :
    previewContent content hunks = written ↔ FindsOriginals content hunks := by
  obtain ⟨rest, hpreview, hrest⟩ := previewContent_of_applied [] h
  rw [append_nil] at hpreview
  rw [hpreview]
  simpa using hrest

theorem not_misses_of_finds {content : Text} {hunks : List PatchHunk}
    (h : FindsOriginals content hunks) : ¬MissesOriginal content hunks := by
  induction hunks generalizing content with
  | nil => exact id
  | cons hunk hunks ih =>
    obtain ⟨hfirst, hrest⟩ := h
    rw [MissesOriginal]
    split
    · rename_i hempty
      rw [if_pos hempty] at hfirst
      rw [hempty, hfirst, replaceFirst_nil, append_nil] at hrest
      exact ih hrest
    · rename_i hempty
      rw [if_neg hempty] at hfirst
      simp [hfirst, ih hrest]

end Engine

section Gate

variable {filePath : String} {contents : Contents}

theorem lookupContent_eq (h : OwnEntry filePath contents) :
    lookupContent filePath contents = contents.lookup filePath := by
  induction contents with
  | nil => rfl
  | cons entry contents ih =>
    obtain ⟨key, text⟩ := entry
    by_cases hkey : key = filePath
    · subst key
      simp [lookupContent, keyNames]
    · have hnames : keyNames filePath key = false := by
        by_contra hnames
        exact hkey (h (key, text) (by simp [hnames]))
      have hne : (filePath == key) = false := by simpa using Ne.symm hkey
      have htail : OwnEntry filePath contents := by
        intro entry hfind
        exact h entry (by simpa [hnames] using hfind)
      rw [lookup_cons, hne]
      simpa [lookupContent, hnames] using ih htail

theorem lookup_setContent (content : Text) :
    (setContent filePath content contents).lookup filePath = some content := by
  induction contents with
  | nil => simp [setContent]
  | cons entry contents ih =>
    rw [setContent]
    split
    · simp
    · rename_i hkey
      have hne : (filePath == entry.1) = false := by simpa using Ne.symm hkey
      obtain ⟨key, text⟩ := entry
      rw [lookup_cons, hne]
      exact ih

theorem ownEntry_setContent (content : Text) (h : OwnEntry filePath contents) :
    OwnEntry filePath (setContent filePath content contents) := by
  induction contents with
  | nil =>
    intro entry hfind
    have hmem := mem_of_find?_eq_some hfind
    rw [setContent, mem_singleton] at hmem
    rw [hmem]
  | cons entry contents ih =>
    rw [setContent]
    split
    · intro found hfind
      rw [find?_cons_of_pos (by simp [keyNames])] at hfind
      cases hfind
      rfl
    · rename_i hkey
      have hnames : keyNames filePath entry.1 = false := by
        by_contra hnames
        exact hkey (h entry (by simp [hnames]))
      have htail : OwnEntry filePath contents := by
        intro found hfind
        exact h found (by simpa [hnames] using hfind)
      intro found hfind
      exact ih htail found (by simpa [hnames] using hfind)

theorem proposedContents_lookup {hunks : List PatchHunk}
    (hpaths : ∀ hunk ∈ hunks, hunk.filePath = filePath) (h : OwnEntry filePath contents) :
    (proposedContents hunks contents).lookup filePath = if hunks = [] then contents.lookup filePath
      else some (previewContent ((contents.lookup filePath).getD []) hunks) := by
  induction hunks generalizing contents with
  | nil => rfl
  | cons hunk hunks ih =>
    have hpath : hunk.filePath = filePath := hpaths hunk mem_cons_self
    rw [if_neg (cons_ne_nil _ _), proposedContents, foldl_cons, ← proposedContents,
      hpath, lookupContent_eq h, previewContent, foldl_cons, ← previewContent]
    rw [ih (fun hunk hhunk => hpaths hunk (mem_cons_of_mem _ hhunk))
      (ownEntry_setContent _ h), lookup_setContent]
    split
    · rename_i hnil
      rw [hnil]
      rfl
    · rfl

end Gate

theorem hunksOf_eq {plan : PatchPlan} {file : AffectedFile}
    (h : ∀ hunk ∈ plan.hunks, hunk.filePath = file.rel) : plan.hunksOf file = plan.hunks := by
  rw [PatchPlan.hunksOf, filter_eq_self]
  intro hunk hhunk
  simp [h hunk hhunk]

/-- What is previewed is what is applied exactly if every hunk finds its original and there is
something to preview, or the hunks of an existing file are rejected and change nothing. -/
theorem previewAgrees_iff (services : ApplyServices) (plan : PatchPlan) (file : AffectedFile)
    (fileContents : Contents) (hpaths : ∀ hunk ∈ plan.hunks, hunk.filePath = file.rel)
    (hown : OwnEntry file.rel fileContents) :
    PreviewAgrees services plan file fileContents ↔
      FindsOriginals ((fileContents.lookup file.rel).getD []) plan.hunks ∧
          (plan.hunks ≠ [] ∨ (fileContents.lookup file.rel).isSome) ∨
        MissesOriginal ((fileContents.lookup file.rel).getD []) plan.hunks ∧
          ∃ content, fileContents.lookup file.rel = some content ∧
            previewContent content plan.hunks = content := by
  have hproposed := proposedContents_lookup hpaths hown
  have hrejects := applyHunks_rejects_iff services ((fileContents.lookup file.rel).getD [])
    plan.hunks []
  rw [PreviewAgrees, hunksOf_eq hpaths]
  split
  · rename_i written hok
    have hmisses : ¬MissesOriginal ((fileContents.lookup file.rel).getD []) plan.hunks := by
      rw [← hrejects, hok]
      simp
    rw [hproposed, previewContent_eq_iff hok]
    simp only [hmisses, false_and, or_false]
    refine and_congr_right fun hfinds => ?_
    have hpreview := (previewContent_eq_iff hok).mpr hfinds
    split
    · rename_i hnil
      rw [hnil] at hpreview
      simp only [hnil, ne_eq, not_true_eq_false, false_or]
      cases hcurrent : fileContents.lookup file.rel with
      | none => simp
      | some content =>
        rw [hcurrent] at hpreview
        simpa [previewContent] using hpreview
    · rename_i hne
      simp [hpreview, hne]
  · rename_i result herror
    have hmisses : MissesOriginal ((fileContents.lookup file.rel).getD []) plan.hunks :=
      hrejects.mp ⟨result, herror⟩
    have hfinds : ¬FindsOriginals ((fileContents.lookup file.rel).getD []) plan.hunks :=
      fun hfinds => not_misses_of_finds hfinds hmisses
    have hne : plan.hunks ≠ [] := by
      intro hnil
      rw [hnil] at hmisses
      exact hmisses
    rw [hproposed, if_neg hne]
    simp only [hfinds, hmisses, false_and, false_or, true_and]
    cases hcurrent : fileContents.lookup file.rel with
    | none | some => simp

def plainServices : ApplyServices where
  platform := .posix
  sha256
    | .text chars => String.ofList chars
    | .binary _ => "binary"
  hasSecret _ := false
  syntaxCheck _ := (true, [])
  guard _ _ := []

/-- A hunk without original for a file with a text: the engine writes the
replacement, the diff and the quality gate see it in front of the text. -/
theorem previews_keep_replaced_text :
    ¬PreviewAgrees plainServices ⟨[], [⟨"hunk", "a", [], ['x']⟩]⟩ ⟨"a", some "a", some "a", none⟩
      [("a", ['1'])] ∧
    (applyHunks plainServices ['1'] [⟨"hunk", "a", [], ['x']⟩] []).1 matches .ok ['x'] ∧
    previewContent ['1'] [⟨"hunk", "a", [], ['x']⟩] = ['x', '1'] := by
  refine ⟨?_, by decide, by decide⟩
  intro h
  exact absurd h.1 (by decide)

/-- Two hunks, the second of which changes what the first has put there. -/
theorem following_hunk_is_previewed : PreviewAgrees plainServices
      ⟨[], [⟨"hunk", "a", ['1'], ['2']⟩, ⟨"hunk", "a", ['2'], ['3']⟩]⟩
      ⟨"a", some "a", some "a", none⟩ [("a", ['1'])] := by
  refine (previewAgrees_iff plainServices _ _ _ (by decide) ?_).mpr (.inl ⟨?_, by decide⟩)
  · intro entry hfind
    rw [mem_singleton.mp (mem_of_find?_eq_some hfind)]
    rfl
  · simp only [FindsOriginals]
    decide

end AIpinho.Patching
