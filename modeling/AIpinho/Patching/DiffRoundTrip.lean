import AIpinho.Patching.UnifiedDiff

/-!
# Reading a diff back

The parser reads back the diff that the builder has printed exactly if no line that goes starts
with two hyphens, no line that comes with two plus signs, and the header of a file can hold the
path.
-/

namespace AIpinho.Patching

open List Lib AIpinho.Runtime Option ParseState

/-- A path that the header of a file can hold. -/
structure PlainPath (path : Text) : Prop where
  ne_nil : path ≠ []
  /-- It is not the file that is not there. -/
  ne_devNull : path ≠ "/dev/null".toList
  unbroken : Unbroken path
  last : ∀ c ∈ path.getLast?, isSpace c = false

/-- A line that goes does not look like the header of a file. -/
def PlainRemoved (line : Text) : Prop := startsWith "--" line = false

/-- A line that comes does not look like the header of a file. -/
def PlainAdded (line : Text) : Prop := startsWith "++" line = false

/-- The lines of a hunk do not look like headers of files. -/
structure ParsedDiffHunk.Plain (hunk : ParsedDiffHunk) : Prop where
  removed : ∀ line ∈ hunk.removedLines, PlainRemoved line
  added : ∀ line ∈ hunk.addedLines, PlainAdded line

/-- What a parser can have read. -/
structure ParseState.Plain (s : ParseState) : Prop where
  files : ∀ file ∈ s.affectedFiles, PlainPath file
  hunks : ∀ hunk ∈ s.allHunks, hunk.Plain

theorem startsWith_iff {start : String} {line : Text} :
    startsWith start line = true ↔ start.toList <+: line := List.isPrefixOf_iff_prefix

theorem plainPath_normalizeFile {raw : Text} (hraw : Unbroken raw)
    (hne : normalizeFile (trim isSpace raw) ≠ [])
    (hnull : normalizeFile (trim isSpace raw) ≠ "/dev/null".toList) :
    PlainPath (normalizeFile (trim isSpace raw)) := by
  have hsuffix : normalizeFile (trim isSpace raw) <:+ trim isSpace raw := by
    rw [normalizeFile]
    split
    · exact suffix_rfl
    · split
      · exact drop_suffix 2 _
      · exact suffix_rfl
  obtain ⟨front, hfront⟩ := hsuffix
  refine ⟨hne, hnull, fun c hc => ?_, fun c hc => ?_⟩
  · have hmem : c ∈ trim isSpace raw := by
      rw [← hfront]
      exact mem_append_right front hc
    exact hraw c ((dropWhile_sublist _).mem (( rdropWhile_prefix _ _).mem hmem))
  · have hlast : (trim isSpace raw).getLast? = some c := by
      rw [← hfront, getLast?_append, hc, some_or]
    have htrim : trim isSpace raw ≠ [] := by
      intro hempty
      rw [hempty] at hlast
      cases hlast
    have hnot := rdropWhile_last_not isSpace (raw.dropWhile isSpace) htrim
    rw [getLast?_eq_some_getLast htrim, Option.some.injEq] at hlast
    change ¬isSpace ((trim isSpace raw).getLast htrim) = true at hnot
    rwa [hlast, Bool.not_eq_true] at hnot

/-- A line that is taken for one that goes does not look like a header without its mark. -/
theorem plainRemoved_of_isRemovedLine {line : Text} (h : isRemovedLine line = true) :
    PlainRemoved (line.drop 1) := by
  rw [isRemovedLine, Bool.and_eq_true, Bool.not_eq_true', startsWith_iff] at h
  obtain ⟨⟨rest, rfl⟩, hnot⟩ := h
  exact hnot

theorem plainAdded_of_isAddedLine {line : Text} (h : isAddedLine line = true) :
    PlainAdded (line.drop 1) := by
  rw [isAddedLine, Bool.and_eq_true, Bool.not_eq_true', startsWith_iff] at h
  obtain ⟨⟨rest, rfl⟩, hnot⟩ := h
  exact hnot

theorem ParsedDiffHunk.Plain.addLine {hunk : ParsedDiffHunk} (h : hunk.Plain) (line : Text) :
    (hunk.addLine line).Plain := by
  rw [ParsedDiffHunk.addLine]
  split
  · rename_i hadded
    refine ⟨h.removed, ?_⟩
    rw [forall_mem_append, forall_mem_singleton]
    exact ⟨h.added, plainAdded_of_isAddedLine hadded⟩
  · split
    · rename_i hremoved
      refine ⟨?_, h.added⟩
      rw [forall_mem_append, forall_mem_singleton]
      exact ⟨h.removed, plainRemoved_of_isRemovedLine hremoved⟩
    · split
      · exact ⟨h.removed, h.added⟩
      · exact h

variable {s : ParseState}

theorem ParseState.Plain.openFile {raw : Text} (h : s.Plain) (hraw : Unbroken raw) :
    (s.openFile raw).Plain := by
  refine ⟨?_, h.hunks⟩
  rw [ParseState.openFile]
  dsimp only
  split
  · rename_i hfile
    rw [forall_mem_append, forall_mem_singleton]
    exact ⟨h.files, plainPath_normalizeFile hraw hfile.1 hfile.2.1⟩
  · exact h.files

theorem ParseState.Plain.openHunk (h : s.Plain) (header : Text) (ranges : (ℕ × ℕ) × (ℕ × ℕ)) :
    (s.openHunk header ranges).Plain := by
  refine ⟨h.files, ?_⟩
  rw [ParseState.openHunk, ParseState.allHunks, forall_mem_append]
  refine ⟨h.hunks, ?_⟩
  rw [toList_some, forall_mem_singleton]
  exact ⟨forall_mem_nil _, forall_mem_nil _⟩

theorem ParseState.Plain.addLine (h : s.Plain) (line : Text) :
    ParseState.Plain { s with currentHunk := s.currentHunk.map (·.addLine line) } := by
  have hhunks := h.hunks
  rw [ParseState.allHunks, forall_mem_append] at hhunks
  refine ⟨h.files, ?_⟩
  rw [ParseState.allHunks, forall_mem_append]
  refine ⟨hhunks.1, ?_⟩
  cases hcurrent : s.currentHunk with
  | none => exact forall_mem_nil _
  | some hunk =>
    rw [hcurrent, toList_some, forall_mem_singleton] at hhunks
    rw [map_some, toList_some, forall_mem_singleton]
    exact hhunks.2.addLine line

theorem ParseState.Plain.parseLine {digits : DecimalDigits} {line : Text} (h : s.Plain)
    (hline : Unbroken line) : (parseLine digits s line).Plain := by
  rw [Patching.parseLine]
  split
  · exact h.openFile fun c hc => hline c (mem_of_mem_drop hc)
  · split
    · exact h.openHunk line _
    · exact h.addLine line

theorem ParseState.Plain.foldl {lines : List Text} (digits : DecimalDigits) (h : s.Plain)
    (hlines : ∀ line ∈ lines, Unbroken line) :
    (lines.foldl (Patching.parseLine digits) s).Plain := by
  induction lines generalizing s with
  | nil => exact h
  | cons line lines ih =>
    rw [forall_mem_cons] at hlines
    exact ih (h.parseLine hlines.1) hlines.2

theorem parseDiff_of_text (digits : DecimalDigits) {diffText : Text}
    (htext : trim isSpace diffText ≠ []) :
    (parseDiff digits diffText).affectedFiles =
        ((splitLines diffText).foldl (parseLine digits) .start).affectedFiles ∧
      (parseDiff digits diffText).hunks =
        ((splitLines diffText).foldl (parseLine digits) .start).allHunks := by
  rw [parseDiff, if_neg htext]
  exact ⟨rfl, rfl⟩

theorem plain_parseDiff (digits : DecimalDigits) (diffText : Text) :
    (∀ file ∈ (parseDiff digits diffText).affectedFiles, PlainPath file) ∧
      ∀ hunk ∈ (parseDiff digits diffText).hunks, hunk.Plain := by
  have hstart : ParseState.start.Plain := ⟨forall_mem_nil _, forall_mem_nil _⟩
  by_cases htext : trim isSpace diffText = []
  · rw [parseDiff, if_pos htext]
    exact ⟨forall_mem_nil _, forall_mem_nil _⟩
  · have hplain := hstart.foldl digits fun line (hline : line ∈ splitLines diffText) =>
      unbroken_of_mem_splitLines hline
    obtain ⟨hfiles, hhunks⟩ := parseDiff_of_text digits htext
    rw [hfiles, hhunks]
    exact ⟨hplain.files, hplain.hunks⟩

section Printed

variable {digits : DecimalDigits} {s : ParseState} {line rest : Text}

theorem dropText_append (start : String) (rest : Text) :
    DecimalDigits.dropText start (start.toList ++ rest) = some rest := by
  rw [DecimalDigits.dropText, if_pos (startsWith_iff.mpr (prefix_append _ _)), drop_left]

theorem value_of_isDigit {c : Char} (hc : c.isDigit = true) :
    digits.value c = some (c.toNat - '0'.toNat) := by
  rw [digits.ascii c, if_pos hc]
  have hle := (Char.isDigit_iff_toNat.mp hc).2
  have hnine : '9'.toNat = 57 := rfl
  omega

theorem toNat_of_isDigit {cs : Text} (hcs : ∀ c ∈ cs, c.isDigit = true) :
    digits.toNat cs = Nat.ofDigitChars 10 cs 0 := by
  have hfold : ∀ n, cs.foldl (fun n c => 10 * n + (digits.value c).getD 0) n =
      Nat.ofDigitChars 10 cs n := by
    induction cs with
    | nil => exact fun n => Nat.ofDigitChars_nil.symm
    | cons c cs ih =>
      rw [forall_mem_cons] at hcs
      intro n
      rw [foldl_cons, ih hcs.2, Nat.ofDigitChars_cons, value_of_isDigit hcs.1, getD_some]
  exact hfold 0

theorem scanNumber_toString (n : ℕ) (hrest : ∀ c ∈ rest.head?, digits.value c = none) :
    digits.scanNumber ((toString n).toList ++ rest) = some (n, rest) := by
  have hlist : (toString n).toList = Nat.toDigits 10 n := Nat.toList_repr
  have hdigit : ∀ c ∈ Nat.toDigits 10 n, c.isDigit = true := fun c hc =>
    Nat.isDigit_of_mem_toDigits (by omega) (by omega) hc
  have hall : ∀ c ∈ Nat.toDigits 10 n, digits.isDigit c = true := fun c hc => by
    rw [DecimalDigits.isDigit, value_of_isDigit (hdigit c hc), isSome_some]
  have htake : rest.takeWhile digits.isDigit = [] ∧ rest.dropWhile digits.isDigit = rest := by
    cases rest with
    | nil => exact ⟨rfl, rfl⟩
    | cons c rest =>
      have hc : ¬digits.isDigit c = true := by
        rw [DecimalDigits.isDigit, hrest c rfl]
        exact Bool.false_ne_true
      exact ⟨takeWhile_cons_of_neg hc, dropWhile_cons_of_neg hc⟩
  rw [hlist, DecimalDigits.scanNumber, takeWhile_append_of_pos hall,
    dropWhile_append_of_pos hall, htake.1, htake.2, append_nil,
    if_neg Nat.toDigits_ne_nil, toNat_of_isDigit hdigit, Nat.ofDigitChars_ten_toDigits]

theorem value_space : digits.value ' ' = none := digits.ascii ' ' (by decide)

theorem value_comma : digits.value ',' = none := digits.ascii ',' (by decide)

theorem scanRange_formatRange (start stop : ℕ) (rest : Text) :
    digits.scanRange (formatRange start stop ++ ' ' :: rest) =
      some ((rangeStart start stop, stop - start), ' ' :: rest) := by
  have hspace : ∀ c ∈ (' ' :: rest).head?, digits.value c = none := by
    rintro c ⟨⟩
    exact value_space
  rw [DecimalDigits.scanRange, formatRange]
  split
  · rename_i hone
    rw [scanNumber_toString _ hspace, hone]
    rfl
  · have hcomma : ∀ c ∈ (',' :: ((toString (stop - start)).toList ++ ' ' :: rest)).head?,
        digits.value c = none := by
      rintro c ⟨⟩
      exact value_comma
    rw [append_assoc, cons_append, scanNumber_toString _ hcomma]
    have hdrop : DecimalDigits.dropText ","
        (',' :: ((toString (stop - start)).toList ++ ' ' :: rest)) =
          some ((toString (stop - start)).toList ++ ' ' :: rest) := dropText_append "," _
    simp only [bind_eq_bind, bind_some, hdrop, scanNumber_toString _ hspace]

theorem hunkRanges_header {old new : List Text} (group : DiffGroup old new) :
    digits.hunkRanges group.header =
      some ((rangeStart group.oldFrom group.oldTo, group.oldTo - group.oldFrom),
        (rangeStart group.newFrom group.newTo, group.newTo - group.newFrom)) := by
  have hplus : ∀ rest : Text, " +".toList ++ rest = ' ' :: ("+".toList ++ rest) := fun _ => rfl
  have hend : " @@".toList = ' ' :: "@@".toList := rfl
  rw [DecimalDigits.hunkRanges, DiffGroup.header, dropText_append, hplus]
  simp only [bind_eq_bind, bind_some, scanRange_formatRange]
  rw [← hplus, dropText_append, bind_some, hend, scanRange_formatRange]
  rfl

theorem startsWith_cons_of_ne {start : String} {c d : Char} {cs : Text}
    (hstart : start.toList.head? = some d) (hne : d ≠ c) : startsWith start (c :: cs) = false := by
  rw [startsWith]
  cases hlist : start.toList with
  | nil =>
    rw [hlist] at hstart
    cases hstart
  | cons e rest =>
    rw [hlist] at hstart
    cases hstart
    simp [List.isPrefixOf, hne]

theorem hunkRanges_eq_none {c : Char} (hc : '@' ≠ c) : digits.hunkRanges (c :: line) = none := by
  rw [DecimalDigits.hunkRanges, DecimalDigits.dropText, startsWith_cons_of_ne rfl hc]
  rfl

theorem parseLine_of_mark {c : Char} (hc : '@' ≠ c)
    (hfile : startsWith "+++ " (c :: line) = false) :
    parseLine digits s (c :: line) =
      { s with currentHunk := s.currentHunk.map (·.addLine (c :: line)) } := by
  rw [parseLine, hfile, if_neg Bool.false_ne_true, hunkRanges_eq_none hc]

def ParsedDiffHunk.extend (context removed added : List Text) (hunk : ParsedDiffHunk) :
    ParsedDiffHunk :=
  { hunk with
    contextLines := hunk.contextLines ++ context
    removedLines := hunk.removedLines ++ removed
    addedLines := hunk.addedLines ++ added }

def ParseState.extend (context removed added : List Text) (s : ParseState) : ParseState :=
  { s with currentHunk := s.currentHunk.map (·.extend context removed added) }

theorem ParseState.extend_nil : s.extend [] [] [] = s := by
  obtain ⟨files, hunks, file, current⟩ := s
  cases current with
  | none => rfl
  | some hunk => simp [extend, ParsedDiffHunk.extend]

theorem ParseState.extend_extend (context removed added context' removed' added' : List Text) :
    (s.extend context removed added).extend context' removed' added' =
      s.extend (context ++ context') (removed ++ removed') (added ++ added') := by
  obtain ⟨files, hunks, file, current⟩ := s
  cases current with
  | none => rfl
  | some hunk => simp [extend, ParsedDiffHunk.extend]

theorem parseLine_context (line : Text) :
    parseLine digits s (' ' :: line) = s.extend [line] [] [] := by
  rw [parseLine_of_mark (by decide) (startsWith_cons_of_ne rfl (by decide))]
  obtain ⟨files, hunks, file, current⟩ := s
  have hline : ∀ hunk : ParsedDiffHunk, hunk.addLine (' ' :: line) = hunk.extend [line] [] [] := by
    intro hunk
    have hadded : isAddedLine (' ' :: line) = false := by
      rw [isAddedLine, startsWith_cons_of_ne rfl (by decide), Bool.false_and]
    have hremoved : isRemovedLine (' ' :: line) = false := by
      rw [isRemovedLine, startsWith_cons_of_ne rfl (by decide), Bool.false_and]
    have hspace : startsWith " " (' ' :: line) = true := startsWith_iff.mpr ⟨line, rfl⟩
    rw [ParsedDiffHunk.addLine, hadded, hremoved, hspace]
    simp [ParsedDiffHunk.extend]
  simp only [ParseState.extend, hline]

theorem parseLine_removed (hline : PlainRemoved line) :
    parseLine digits s ('-' :: line) = s.extend [] [line] [] := by
  rw [parseLine_of_mark (by decide) (startsWith_cons_of_ne rfl (by decide))]
  have hadd : ∀ hunk : ParsedDiffHunk, hunk.addLine ('-' :: line) = hunk.extend [] [line] [] := by
    intro hunk
    have hadded : isAddedLine ('-' :: line) = false := by
      rw [isAddedLine, startsWith_cons_of_ne rfl (by decide), Bool.false_and]
    have hremoved : isRemovedLine ('-' :: line) = true := by
      have hnot : startsWith "---" ('-' :: line) = false := hline
      have hmark : startsWith "-" ('-' :: line) = true := startsWith_iff.mpr ⟨line, rfl⟩
      rw [isRemovedLine, hnot, hmark]
      rfl
    rw [ParsedDiffHunk.addLine, hadded, hremoved]
    simp [ParsedDiffHunk.extend]
  simp only [ParseState.extend, hadd]

theorem parseLine_added (hline : PlainAdded line) :
    parseLine digits s ('+' :: line) = s.extend [] [] [line] := by
  have hfile : startsWith "+++ " ('+' :: line) = false := by
    rw [Bool.eq_false_iff]
    intro hstart
    obtain ⟨rest, hrest⟩ := startsWith_iff.mp hstart
    have hplus : startsWith "++" line = true :=
      startsWith_iff.mpr ⟨' ' :: rest, (List.cons.inj hrest).2⟩
    rw [hline] at hplus
    cases hplus
  rw [parseLine_of_mark (by decide) hfile]
  have hadd : ∀ hunk : ParsedDiffHunk, hunk.addLine ('+' :: line) = hunk.extend [] [] [line] := by
    intro hunk
    have hadded : isAddedLine ('+' :: line) = true := by
      have hnot : startsWith "+++" ('+' :: line) = false := hline
      have hmark : startsWith "+" ('+' :: line) = true := startsWith_iff.mpr ⟨line, rfl⟩
      rw [isAddedLine, hnot, hmark]
      rfl
    rw [ParsedDiffHunk.addLine, hadded]
    simp [ParsedDiffHunk.extend]
  simp only [ParseState.extend, hadd]

theorem foldl_context (lines : List Text) :
    (lines.map (' ' :: ·)).foldl (parseLine digits) s = s.extend lines [] [] := by
  induction lines generalizing s with
  | nil => exact extend_nil.symm
  | cons line lines ih =>
    rw [map_cons, foldl_cons, parseLine_context, ih, extend_extend]
    rfl

theorem foldl_removed {lines : List Text} (hlines : ∀ line ∈ lines, PlainRemoved line) :
    (lines.map ('-' :: ·)).foldl (parseLine digits) s = s.extend [] lines [] := by
  induction lines generalizing s with
  | nil => exact extend_nil.symm
  | cons line lines ih =>
    rw [forall_mem_cons] at hlines
    rw [map_cons, foldl_cons, parseLine_removed hlines.1, ih hlines.2, extend_extend]
    rfl

theorem foldl_added {lines : List Text} (hlines : ∀ line ∈ lines, PlainAdded line) :
    (lines.map ('+' :: ·)).foldl (parseLine digits) s = s.extend [] [] lines := by
  induction lines generalizing s with
  | nil => exact extend_nil.symm
  | cons line lines ih =>
    rw [forall_mem_cons] at hlines
    rw [map_cons, foldl_cons, parseLine_added hlines.1, ih hlines.2, extend_extend]
    rfl

variable {old new : List Text}

theorem foldl_ops {ops : List Opcode}
    (hremoved : ∀ line ∈ ops.flatMap (·.removed old), PlainRemoved line)
    (hadded : ∀ line ∈ ops.flatMap (·.added new), PlainAdded line) :
    (ops.flatMap (·.print old new)).foldl (parseLine digits) s =
      s.extend (ops.flatMap (·.context old)) (ops.flatMap (·.removed old))
        (ops.flatMap (·.added new)) := by
  induction ops generalizing s with
  | nil => exact extend_nil.symm
  | cons op ops ih =>
    rw [flatMap_cons, forall_mem_append] at hremoved hadded
    rw [flatMap_cons, foldl_append, Opcode.print, foldl_append, foldl_append,
      foldl_context, foldl_removed hremoved.1, foldl_added hadded.1, ih hremoved.2 hadded.2,
      extend_extend, extend_extend, extend_extend]
    simp only [flatMap_cons, nil_append]

def parsedGroup (path : Text) (group : DiffGroup old new) : ParsedDiffHunk where
  filePath := path
  header := group.header
  oldStart := rangeStart group.oldFrom group.oldTo
  oldCount := group.oldTo - group.oldFrom
  newStart := rangeStart group.newFrom group.newTo
  newCount := group.newTo - group.newFrom
  addedLines := group.added
  removedLines := group.removed
  contextLines := group.context

theorem foldl_group {path : Text} {group : DiffGroup old new}
    (hplain : (parsedGroup path group).Plain) (hfile : s.currentFile = some path) :
    group.print.foldl (parseLine digits) s =
      { s with hunks := s.allHunks, currentHunk := some (parsedGroup path group) } := by
  have hheader : parseLine digits s group.header = s.openHunk group.header
        ((rangeStart group.oldFrom group.oldTo, group.oldTo - group.oldFrom),
          (rangeStart group.newFrom group.newTo, group.newTo - group.newFrom)) := by
    have hplus : startsWith "+++ " group.header = false := startsWith_cons_of_ne rfl (by decide)
    rw [parseLine, hplus, if_neg Bool.false_ne_true, hunkRanges_header]
  rw [DiffGroup.print, foldl_cons, hheader, foldl_ops hplain.removed hplain.added]
  simp only [ParseState.openHunk, ParseState.extend, ParsedDiffHunk.extend, hfile, map_some,
    getD_some, nil_append]
  rfl

variable (digits) in
theorem foldl_groups {path : Text} {groups : List (DiffGroup old new)}
    (hplain : ∀ group ∈ groups, (parsedGroup path group).Plain)
    (hfile : s.currentFile = some path) :
    ((groups.flatMap DiffGroup.print).foldl (parseLine digits) s).affectedFiles = s.affectedFiles ∧
      ((groups.flatMap DiffGroup.print).foldl (parseLine digits) s).allHunks =
        s.allHunks ++ groups.map (parsedGroup path) := by
  induction groups generalizing s with
  | nil => simp
  | cons group groups ih =>
    rw [forall_mem_cons] at hplain
    rw [flatMap_cons, foldl_append, foldl_group hplain.1 hfile]
    obtain ⟨hfiles, hhunks⟩ := ih (s := { s with
      hunks := s.allHunks, currentHunk := some (parsedGroup path group) }) hplain.2 hfile
    refine ⟨hfiles, hhunks.trans ?_⟩
    rw [ParseState.allHunks, map_cons, append_cons]
    rfl

end Printed

section Whole

variable {digits : DecimalDigits} {difflib : Difflib} {path original replacement : Text}
  {maxChars : ℕ}

def diffGroups (difflib : Difflib) (original replacement : Text) :
    List (DiffGroup (splitLines original) (splitLines replacement)) :=
  difflib.groups (splitLines original) (splitLines replacement)

/-- The diff is read back: its one file, its hunks, and as many lines in each as its header
says. -/
structure ReadsBack (difflib : Difflib) (path original replacement : Text)
    (result : DiffParseResult) : Prop where
  files : result.affectedFiles = [path]
  hunks : result.hunks = (diffGroups difflib original replacement).map (parsedGroup path)
  old : ∀ hunk ∈ result.hunks,
    hunk.oldCount = hunk.removedLines.length + hunk.contextLines.length
  new : ∀ hunk ∈ result.hunks,
    hunk.newCount = hunk.addedLines.length + hunk.contextLines.length

/-- No line of the diff looks like the header of a file with its mark. -/
def PlainDiff (difflib : Difflib) (original replacement : Text) : Prop :=
  ∀ group ∈ diffGroups difflib original replacement,
    (∀ line ∈ group.removed, PlainRemoved line) ∧ ∀ line ∈ group.added, PlainAdded line

theorem diffLines_eq (hdiff : splitLines original ≠ splitLines replacement) :
    diffLines difflib path original replacement =
      ("--- a/".toList ++ path) :: ("+++ b/".toList ++ path) ::
        (diffGroups difflib original replacement).flatMap DiffGroup.print := by
  have hne := difflib.groups_ne_nil _ _ hdiff
  rw [diffLines, Difflib.unifiedDiff, if_neg (by simpa using hne)]
  rfl

variable (difflib) in
theorem unbroken_diffLines (hpath : Unbroken path)
    (hdiff : splitLines original ≠ splitLines replacement) :
    ∀ line ∈ diffLines difflib path original replacement, Unbroken line ∧ line ≠ [] := by
  rw [diffLines_eq hdiff, forall_mem_cons, forall_mem_cons]
  refine ⟨⟨Unbroken.append (unbroken_of_all (by decide)) hpath, cons_ne_nil _ _⟩,
    ⟨Unbroken.append (unbroken_of_all (by decide)) hpath, cons_ne_nil _ _⟩, ?_⟩
  intro line hline
  obtain ⟨group, -, hgroup⟩ := mem_flatMap.mp hline
  rw [DiffGroup.print, mem_cons] at hgroup
  rcases hgroup with rfl | hops
  · exact ⟨group.unbroken_header, cons_ne_nil _ _⟩
  · obtain ⟨op, -, hop⟩ := mem_flatMap.mp hops
    obtain ⟨mark, hmark, content, rfl, hcontent⟩ := Opcode.mem_print hop
    refine ⟨Unbroken.cons ?_ ?_, cons_ne_nil _ _⟩
    · have hmarks : Unbroken [' ', '-', '+'] := unbroken_of_all (by decide)
      exact hmarks mark hmark
    · rcases hcontent with hold | hnew
      · exact unbroken_of_mem_splitLines hold
      · exact unbroken_of_mem_splitLines hnew

theorem splitLines_diff (hpath : Unbroken path)
    (hdiff : splitLines original ≠ splitLines replacement) :
    splitLines (List.intercalate ['\n'] (diffLines difflib path original replacement)) =
      diffLines difflib path original replacement := by
  have hlines := unbroken_diffLines difflib hpath hdiff
  refine splitLines_intercalate (fun line hline => (hlines line hline).1) fun hlast => ?_
  exact (hlines [] (mem_of_getLast? hlast)).2 rfl

theorem normalizeFile_header (hpath : PlainPath path) :
    normalizeFile (trim isSpace ("b/".toList ++ path)) = path := by
  have htrim : trim isSpace ("b/".toList ++ path) = "b/".toList ++ path := by
    have hfront : ("b/".toList ++ path).dropWhile isSpace = "b/".toList ++ path := rfl
    rw [trim, hfront, rdropWhile_eq_self_iff]
    intro hne
    rw [getLast_append_of_right_ne_nil _ _ hpath.ne_nil,
      hpath.last _ (getLast?_eq_some_getLast hpath.ne_nil)]
    exact Bool.false_ne_true
  have hnull :
      ¬("b/".toList ++ path = "/dev/null".toList ∨ "b/".toList ++ path = "NUL".toList) := by
    rintro (h | h)
    · exact absurd (List.cons.inj h).1 (by decide)
    · exact absurd (List.cons.inj h).1 (by decide)
  have hprefix : startsWith "b/" ("b/".toList ++ path) = true :=
    startsWith_iff.mpr (prefix_append _ _)
  rw [htrim, normalizeFile, if_neg hnull, hprefix, Bool.or_true, if_pos rfl]
  rfl

theorem parse_headers (hpath : PlainPath path) :
    parseLine digits (parseLine digits .start ("--- a/".toList ++ path))
        ("+++ b/".toList ++ path) = ⟨[path], [], some path, none⟩ := by
  have hfirst : parseLine digits .start ("--- a/".toList ++ path) = .start :=
    parseLine_of_mark (by decide) (startsWith_cons_of_ne rfl (by decide))
  have hplus : startsWith "+++ " ("+++ b/".toList ++ path) = true :=
    startsWith_iff.mpr ⟨"b/".toList ++ path, rfl⟩
  have hdrop : ("+++ b/".toList ++ path).drop 4 = "b/".toList ++ path := rfl
  rw [hfirst, parseLine, hplus, if_pos rfl, hdrop, ParseState.openFile, normalizeFile_header hpath]
  rw [if_pos ⟨hpath.ne_nil, hpath.ne_devNull, not_mem_nil⟩]
  rfl

theorem readsBack_of_plain (hpath : PlainPath path)
    (hplain : PlainDiff difflib original replacement)
    (hdiff : splitLines original ≠ splitLines replacement)
    (hwhole : (buildDiff difflib path original replacement maxChars).truncated = false) :
    ReadsBack difflib path original replacement
      (parseDiff digits (buildDiff difflib path original replacement maxChars).diffText) := by
  have htext : (buildDiff difflib path original replacement maxChars).diffText =
      List.intercalate ['\n'] (diffLines difflib path original replacement) := by
    have hle : ¬maxChars < (List.intercalate ['\n']
        (diffLines difflib path original replacement)).length := of_decide_eq_false hwhole
    exact take_of_length_le (by omega)
  have hblank :
      trim isSpace (buildDiff difflib path original replacement maxChars).diffText ≠ [] := by
    rw [htext, diffLines_eq hdiff, intercalate_cons_cons]
    exact trim_cons_ne_nil (by decide) _
  have hgroups : ∀ group ∈ diffGroups difflib original replacement,
      (parsedGroup path group).Plain := fun group hgroup =>
    ⟨(hplain group hgroup).1, (hplain group hgroup).2⟩
  have hread := foldl_groups digits (s := ⟨[path], [], some path, none⟩) hgroups rfl
  obtain ⟨hfiles, hhunks⟩ := parseDiff_of_text digits hblank
  rw [htext, splitLines_diff hpath.unbroken hdiff, diffLines_eq hdiff, foldl_cons,
    foldl_cons, parse_headers hpath, ← diffLines_eq hdiff, ← htext] at hfiles hhunks
  have hcounts : ∀ hunk ∈ (diffGroups difflib original replacement).map (parsedGroup path),
      hunk.oldCount = hunk.removedLines.length + hunk.contextLines.length ∧
        hunk.newCount = hunk.addedLines.length + hunk.contextLines.length := by
    rw [List.forall_mem_map]
    exact fun group _ => ⟨group.length_removed_add.symm, group.length_added_add.symm⟩
  have hall : (parseDiff digits
      (buildDiff difflib path original replacement maxChars).diffText).hunks =
        (diffGroups difflib original replacement).map (parsedGroup path) := hhunks.trans hread.2
  exact ⟨hfiles.trans hread.1, hall, fun hunk hhunk => (hcounts hunk (hall ▸ hhunk)).1,
    fun hunk hhunk => (hcounts hunk (hall ▸ hhunk)).2⟩

/-- A diff is read back exactly if it is plain and its path too. -/
theorem parse_build_iff (digits : DecimalDigits) (difflib : Difflib)
    (path original replacement : Text) (maxChars : ℕ)
    (hdiff : splitLines original ≠ splitLines replacement)
    (hwhole : (buildDiff difflib path original replacement maxChars).truncated = false) :
    ReadsBack difflib path original replacement
        (parseDiff digits (buildDiff difflib path original replacement maxChars).diffText) ↔
      PlainPath path ∧ PlainDiff difflib original replacement := by
  constructor
  · intro h
    obtain ⟨hfiles, hhunks⟩ :=
      plain_parseDiff digits (buildDiff difflib path original replacement maxChars).diffText
    rw [h.files, forall_mem_singleton] at hfiles
    rw [h.hunks, List.forall_mem_map] at hhunks
    exact ⟨hfiles, fun group hgroup =>
      ⟨(hhunks group hgroup).removed, (hhunks group hgroup).added⟩⟩
  · rintro ⟨hpath, hplain⟩
    exact readsBack_of_plain hpath hplain hdiff hwhole

end Whole

def replaceLines (old new : List Text) : DiffGroup old new where
  ops := [⟨if old = [] then .insert else if new = [] then .delete else .replace, 0, old.length, 0,
    new.length⟩]
  ne_nil := List.cons_ne_nil _ _
  fits := by
    rw [List.forall_mem_singleton]
    refine ⟨Nat.zero_le _, le_rfl, Nat.zero_le _, le_rfl, ?_, ?_, ?_⟩
    · split_ifs <;> simp
    · split_ifs with hold hnew <;> simp [*]
    · split_ifs with hold hnew <;> simp [*]
  joins := List.isChain_singleton _

/-- What `difflib` does with texts of one line. -/
def oneLineDifflib : Difflib where
  groups old new := if old = new then [] else [replaceLines old new]
  groups_ne_nil old new hne := by rw [if_neg hne]; exact List.cons_ne_nil _ _

theorem parse_build_one_line : splitLines "a\n".toList ≠ splitLines "b\n".toList ∧
      (ReadsBack oneLineDifflib "f.py".toList "a\n".toList "b\n".toList
          (parseDiff asciiDigits
            (buildDiff oneLineDifflib "f.py".toList "a\n".toList "b\n".toList 50000).diffText) ↔
        PlainPath "f.py".toList ∧ PlainDiff oneLineDifflib "a\n".toList "b\n".toList) :=
  ⟨by decide, parse_build_iff asciiDigits oneLineDifflib _ _ _ 50000 (by decide) (by decide)⟩

/-- A comment of SQL that goes is taken for the header of a file. -/
theorem removed_comment_lost :
    splitLines "-- x\n".toList ≠ splitLines "y\n".toList ∧
      (buildDiff oneLineDifflib "q.sql".toList "-- x\n".toList "y\n".toList 50000).truncated =
        false ∧
      ¬ReadsBack oneLineDifflib "q.sql".toList "-- x\n".toList "y\n".toList
        (parseDiff asciiDigits
          (buildDiff oneLineDifflib "q.sql".toList "-- x\n".toList "y\n".toList
            50000).diffText) := by
  refine ⟨by decide, by decide, fun h => ?_⟩
  exact absurd h.old (by decide)

end AIpinho.Patching
