import AIpinho.Lib.Lines
import AIpinho.Lib.Text
import AIpinho.Patching.PatchApply
import AIpinho.Runtime.Sanitize
import Mathlib.Data.Nat.Find

/-!
# Where a planned hunk lands

`PatchPlanningService` finds the lines of a symbol and plans a hunk for their text. The engine
replaces the first place where the text stands.
-/

namespace AIpinho.Patching

open List Lib AIpinho.Runtime

inductive PatchCandidateSymbolKind
  | file | function | classSymbol | method | property | block
  deriving DecidableEq

/-- `PatchCandidateArtifact`, as far as the context of a candidate depends on it. -/
structure PatchCandidate where
  symbolKind : PatchCandidateSymbolKind
  targetSymbol : Text

/-- Whether a line without the white space around it opens a symbol. -/
def opensSymbol (symbol stripped : Text) : Bool :=
  ("def ".toList ++ symbol ++ "(".toList).isPrefixOf stripped ||
    ("async def ".toList ++ symbol ++ "(".toList).isPrefixOf stripped ||
    ("class ".toList ++ symbol ++ "(".toList).isPrefixOf stripped ||
    ("class ".toList ++ symbol ++ ":".toList).isPrefixOf stripped ||
    ("fun ".toList ++ symbol ++ "(".toList).isPrefixOf stripped ||
    ("function ".toList ++ symbol ++ "(".toList).isPrefixOf stripped

/-- `len(line) - len(line.lstrip())`. -/
def indentOf (line : Text) : ℕ := line.length - (line.dropWhile isSpace).length

/-- Whether a block goes on with a line: the line is blank, or indented further than the line
that opens the block. -/
def goesOn (baseIndent : ℕ) (line : Text) : Bool :=
  trim isSpace line = [] || decide (baseIndent < indentOf line)

def blockRange (symbol : Text) (lines : List Text) : Option (ℕ × ℕ) :=
  (lines.findIdx? fun line => opensSymbol symbol (trim isSpace line)).map fun start =>
    (start, start + 1 +
      ((lines.drop (start + 1)).takeWhile (goesOn (indentOf (lines.getD start [])))).length)

def extractCandidateContext (candidate : PatchCandidate) (content : Text) : Except String Text :=
  if candidate.symbolKind = .file then .ok content
  else
    let symbol := trim isSpace candidate.targetSymbol
    if symbol = [] then .error "PATCH_CANDIDATE_INSUFFICIENT"
    else
      let lines := splitKeepEnds content
      match blockRange symbol lines with
      | none => .error "PATCH_SYMBOL_NOT_FOUND"
      | some (start, stop) => .ok (slice lines start stop).flatten

/-- A text between two others. -/
structure Place where
  before : Text
  text : Text
  after : Text

/-- The text of the lines from `start` to `stop`, in its place. -/
def linesPlace (content : Text) (start stop : ℕ) : Place where
  before := ((splitKeepEnds content).take start).flatten
  text := (slice (splitKeepEnds content) start stop).flatten
  after := ((splitKeepEnds content).drop stop).flatten

def candidatePlace (candidate : PatchCandidate) (content : Text) : Option Place :=
  if candidate.symbolKind = .file then some ⟨[], content, []⟩
  else if trim isSpace candidate.targetSymbol = [] then none
  else (blockRange (trim isSpace candidate.targetSymbol) (splitKeepEnds content)).map fun range =>
    linesPlace content range.1 range.2

def Place.fill (place : Place) (new : Text) : Text := place.before ++ (new ++ place.after)

/-- The text occurs before its place, perhaps overlapping it. -/
def Place.OccursBefore (place : Place) : Prop :=
  ∃ i < place.before.length, place.text <+: (place.fill place.text).drop i

theorem extractCandidateContext_ok_iff {candidate : PatchCandidate} {content text : Text} :
    extractCandidateContext candidate content = .ok text ↔
      ∃ place, candidatePlace candidate content = some place ∧ place.text = text := by
  rw [extractCandidateContext, candidatePlace]
  split
  · simp
  · dsimp only
    split
    · simp
    · cases blockRange (trim isSpace candidate.targetSymbol) (splitKeepEnds content) with
      | none => simp
      | some range => simp [linesPlace]

theorem blockRange_bounds {symbol : Text} {lines : List Text} {start stop : ℕ}
    (h : blockRange symbol lines = some (start, stop)) :
    start < stop ∧ stop ≤ lines.length := by
  obtain ⟨first, hfirst, hrange⟩ := Option.map_eq_some_iff.mp h
  obtain ⟨hlt, -⟩ := findIdx?_eq_some_iff_getElem.mp hfirst
  have htake := ( takeWhile_prefix (l := lines.drop (first + 1))
    (goesOn (indentOf (lines.getD first [])))).length_le
  rw [length_drop] at htake
  obtain ⟨rfl, rfl⟩ := Prod.mk.inj hrange
  omega

theorem candidatePlace_spec {candidate : PatchCandidate} {content : Text} {place : Place}
    (h : candidatePlace candidate content = some place) :
    place.fill place.text = content ∧ (place.text = [] → place.before = [] ∧ place.after = []) := by
  rw [candidatePlace] at h
  split at h
  · cases h
    exact ⟨append_nil content, fun _ => ⟨rfl, rfl⟩⟩
  · split at h
    · cases h
    · obtain ⟨⟨start, stop⟩, hrange, rfl⟩ := Option.map_eq_some_iff.mp h
      obtain ⟨hlt, hle⟩ := blockRange_bounds hrange
      have hlines : (splitKeepEnds content).take start ++
          (slice (splitKeepEnds content) start stop ++ (splitKeepEnds content).drop stop) =
            splitKeepEnds content := take_append_slice_append_drop hlt.le
      constructor
      · rw [Place.fill, linesPlace]
        dsimp only
        rw [← flatten_append, ← flatten_append, hlines, flatten_splitKeepEnds]
      · intro hempty
        have hlength : (slice (splitKeepEnds content) start stop).length = stop - start :=
          length_slice hle
        obtain ⟨line, hline⟩ := exists_mem_of_length_pos (by omega :
          0 < (slice (splitKeepEnds content) start stop).length)
        exact absurd (flatten_eq_nil_iff.mp hempty line hline)
          (ne_nil_of_mem_splitKeepEnds (mem_of_mem_slice hline))

section Replace

variable {old new before after text : Text}

theorem replaceFirst_of_prefix (hstart : old <+: text) :
    replaceFirst old new text = new ++ text.drop old.length := by
  cases text with
  | nil =>
    obtain rfl : old = [] := prefix_nil.mp hstart
    simp [replaceFirst]
  | cons c text => rw [replaceFirst, if_pos (by simpa using hstart)]

theorem replaceFirst_first
    (hfirst : ∀ i < before.length, ¬old <+: (before ++ (old ++ after)).drop i) :
    replaceFirst old new (before ++ (old ++ after)) = before ++ (new ++ after) := by
  induction before with
  | nil =>
    rw [nil_append, replaceFirst_of_prefix (prefix_append old after), drop_left]
    rfl
  | cons c before ih =>
    have hhead : ¬old <+: c :: (before ++ (old ++ after)) := hfirst 0 (Nat.succ_pos _)
    rw [cons_append, replaceFirst, if_neg (by simpa using hhead),
      ih fun i hi => hfirst (i + 1) (Nat.succ_lt_succ hi)]
    rfl

end Replace

variable {services : ApplyServices} {candidate : PatchCandidate} {content : Text} {place : Place}

/-- The engine changes what is in the place of the candidate and nothing else, or leaves the
content as it is. -/
def HunksLand (services : ApplyServices) (candidate : PatchCandidate) (content : Text) : Prop :=
  ∀ place, candidatePlace candidate content = some place → ∀ hunk : PatchHunk,
    extractCandidateContext candidate content = .ok hunk.original →
      (applyHunk services content hunk).1 = place.fill hunk.replacement ∨
        (applyHunk services content hunk).2.applied = false ∧
          (applyHunk services content hunk).1 = content

theorem applyHunk_place (hplace : candidatePlace candidate content = some place) (hunk : PatchHunk)
    (horiginal : hunk.original = place.text) :
    (applyHunk services content hunk).2.applied = true ∧ (applyHunk services content hunk).1 =
        if place.text = [] then hunk.replacement
        else replaceFirst place.text hunk.replacement content := by
  obtain ⟨hfill, -⟩ := candidatePlace_spec hplace
  have hinfix : hunk.original <:+: content := by
    rw [horiginal, ← hfill]
    exact ⟨place.before, place.after, by rw [Place.fill, append_assoc]⟩
  rw [applyHunk, ← horiginal]
  dsimp only
  split
  · exact ⟨rfl, rfl⟩
  · exact ⟨rfl, rfl⟩

theorem fst_applyHunk_of_first (hplace : candidatePlace candidate content = some place)
    (hfirst : ¬place.OccursBefore) (hunk : PatchHunk) (horiginal : hunk.original = place.text) :
    (applyHunk services content hunk).1 = place.fill hunk.replacement := by
  obtain ⟨hfill, hempty⟩ := candidatePlace_spec hplace
  rw [(applyHunk_place hplace hunk horiginal).2]
  split
  · rename_i htext
    obtain ⟨hbefore, hafter⟩ := hempty htext
    rw [Place.fill, hbefore, hafter, nil_append, append_nil]
  · rw [← hfill]
    exact replaceFirst_first fun i hi hoccurs => hfirst ⟨i, hi, hoccurs⟩

variable (services) in
/-- Where the text occurs before its place, some hunk lands elsewhere. -/
theorem exists_applyHunk_of_occursBefore (hplace : candidatePlace candidate content = some place)
    (hoccurs : place.OccursBefore) :
    ∃ hunk : PatchHunk, hunk.original = place.text ∧
      (applyHunk services content hunk).1 ≠ place.fill hunk.replacement := by
  classical
  obtain ⟨hfill, hempty⟩ := candidatePlace_spec hplace
  -- the first place where the text stands
  obtain ⟨i, ⟨hi, hstart⟩, hmin⟩ : ∃ i, (i < place.before.length ∧
      place.text <+: (place.fill place.text).drop i) ∧
        ∀ j < i, ¬(j < place.before.length ∧ place.text <+: (place.fill place.text).drop j) :=
    ⟨Nat.find hoccurs, Nat.find_spec hoccurs, fun j hj => Nat.find_min hoccurs hj⟩
  rw [hfill] at hstart hmin
  obtain ⟨rest, hrest⟩ := hstart
  have hsplit : content.take i ++ (place.text ++ rest) = content := by
    rw [hrest, take_append_drop]
  have hlength : (content.take i).length = i := by
    have hle := congrArg List.length hfill
    rw [Place.fill, length_append] at hle
    rw [length_take]
    omega
  have htext : place.text ≠ [] := fun htext => by
    rw [(hempty htext).1] at hi
    exact absurd hi (Nat.not_lt_zero i)
  have hreplace : ∀ new, replaceFirst place.text new content = content.take i ++ (new ++ rest) := by
    intro new
    have hfirst : replaceFirst place.text new (content.take i ++ (place.text ++ rest)) =
        content.take i ++ (new ++ rest) :=
      replaceFirst_first fun j hj hoccurs => hmin j (by omega) ⟨by omega, hsplit ▸ hoccurs⟩
    rwa [hsplit] at hfirst
  -- the hunk puts a character there that was not there
  obtain ⟨c, hc⟩ : ∃ c, place.before[i]? ≠ some c := by
    by_cases ha : place.before[i]? = some 'a'
    · exact ⟨'b', by rw [ha]; decide⟩
    · exact ⟨'a', ha⟩
  refine ⟨⟨"", "", place.text, [c]⟩, rfl, fun heq => hc ?_⟩
  rw [(applyHunk_place hplace _ rfl).2, if_neg htext, hreplace, Place.fill] at heq
  have hchar := congrArg (·[i]?) heq
  dsimp only at hchar
  rw [getElem?_append_right hlength.le, hlength, Nat.sub_self, getElem?_append_left hi] at hchar
  exact hchar.symm

/-- A planned hunk lands in its place exactly if the text of the place does not start before
it. -/
theorem hunksLand_iff (services : ApplyServices) (candidate : PatchCandidate) (content : Text) :
    HunksLand services candidate content ↔
      ∀ place, candidatePlace candidate content = some place → ¬place.OccursBefore := by
  constructor
  · intro hland place hplace hoccurs
    obtain ⟨hunk, horiginal, hne⟩ := exists_applyHunk_of_occursBefore services hplace hoccurs
    have hextract := extractCandidateContext_ok_iff.mpr ⟨place, hplace, horiginal.symm⟩
    rcases hland place hplace hunk hextract with heq | ⟨hrejected, -⟩
    · exact hne heq
    · rw [(applyHunk_place hplace hunk horiginal).1] at hrejected
      cases hrejected
  · intro hfirst place hplace hunk hextract
    obtain ⟨found, hfound, htext⟩ := extractCandidateContext_ok_iff.mp hextract
    obtain rfl : place = found := Option.some.inj (hplace.symm.trans hfound)
    exact .inl (fst_applyHunk_of_first hplace (hfirst place hplace) hunk htext.symm)

def bareServices : ApplyServices where
  platform := .posix
  sha256 _ := ""
  hasSecret _ := false
  syntaxCheck _ := (true, [])
  guard _ _ := []

def commentedFunction : Text := "# def f(): pass\ndef f(): pass\n".toList

/-- The hunk for the function changes the comment. -/
theorem comment_edited : extractCandidateContext ⟨.function, "f".toList⟩ commentedFunction =
        .ok "def f(): pass\n".toList ∧
      (applyHunk bareServices commentedFunction
        ⟨"hunk", "f.py", "def f(): pass\n".toList, "def f(): return 1\n".toList⟩).1 =
          "# def f(): return 1\ndef f(): pass\n".toList ∧
      ¬HunksLand bareServices ⟨.function, "f".toList⟩ commentedFunction := by
  have hextract : extractCandidateContext ⟨.function, "f".toList⟩ commentedFunction =
      .ok "def f(): pass\n".toList := by rfl
  refine ⟨hextract, by decide, fun hland => ?_⟩
  rcases hland ⟨"# def f(): pass\n".toList, "def f(): pass\n".toList, []⟩ rfl
    ⟨"hunk", "f.py", "def f(): pass\n".toList, "def f(): return 1\n".toList⟩ hextract
    with hfilled | ⟨hrejected, -⟩
  · exact absurd hfilled (by decide)
  · exact absurd hrejected (by decide)

end AIpinho.Patching
