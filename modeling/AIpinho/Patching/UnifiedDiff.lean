import AIpinho.Lib.Difflib
import AIpinho.Lib.Text
import AIpinho.Patching.PatchApply
import AIpinho.Runtime.Sanitize

/-!
# Building and parsing diffs

`UnifiedDiffBuilder` prints the difference of two texts, and `UnifiedDiffParser` reads a diff
back. Every line that starts with three plus signs and a space is taken for the header of a
file.
-/

namespace AIpinho.Patching

open Lib AIpinho.Runtime

structure DiffPreview where
  diffText : Text
  truncated : Bool
  chars : ℕ
  addedLines : ℕ
  removedLines : ℕ

/-- `str.startswith`. -/
def startsWith (start : String) (line : Text) : Bool := start.toList.isPrefixOf line

def isAddedLine (line : Text) : Bool := startsWith "+" line && !startsWith "+++" line

def isRemovedLine (line : Text) : Bool := startsWith "-" line && !startsWith "---" line

def diffLines (difflib : Difflib) (filePath original replacement : Text) : List Text :=
  difflib.unifiedDiff (splitLines original) (splitLines replacement) ("a/".toList ++ filePath)
    ("b/".toList ++ filePath)

/-- `UnifiedDiffBuilder.build`. -/
def buildDiff (difflib : Difflib) (filePath original replacement : Text) (maxChars : ℕ) :
    DiffPreview :=
  let diff := List.intercalate ['\n'] (diffLines difflib filePath original replacement)
  { diffText := diff.take maxChars
    truncated := maxChars < diff.length
    chars := min diff.length maxChars
    addedLines := ((splitLines diff).filter isAddedLine).length
    removedLines := ((splitLines diff).filter isRemovedLine).length }

/-- `PatchQualityFinding`, as far as it is set. -/
structure PatchQualityFinding where
  findingId : String
  category : String
  severity : String
  message : String
  filePath : Option Text
  blocking : Bool
  deriving DecidableEq

structure ParsedDiffHunk where
  filePath : Text
  header : Text
  oldStart : ℕ
  oldCount : ℕ
  newStart : ℕ
  newCount : ℕ
  addedLines : List Text
  removedLines : List Text
  contextLines : List Text
  deriving DecidableEq

/-- `DiffParseResult`. It is `ok` if it is valid, and else `failed`. -/
structure DiffParseResult where
  /-- Whether nothing blocks the patch. -/
  valid : Bool
  affectedFiles : List Text
  hunks : List ParsedDiffHunk
  addedLines : ℕ
  removedLines : ℕ
  binaryDetected : Bool
  renameDetected : Bool
  deleteDetected : Bool
  findings : List PatchQualityFinding
  deriving DecidableEq

/-- The decimal digits, `\d` of a pattern. -/
structure DecimalDigits where
  value : Char → Option ℕ
  ascii : ∀ c, c.toNat < 128 → value c = if c.isDigit then some (c.toNat - '0'.toNat) else none

def asciiDigits : DecimalDigits where
  value c := if c.isDigit then some (c.toNat - '0'.toNat) else none
  ascii _ _ := rfl

namespace DecimalDigits

def dropText (start : String) (cs : Text) : Option Text :=
  if startsWith start cs then some (cs.drop start.toList.length) else none

variable (digits : DecimalDigits)

def isDigit (c : Char) : Bool := (digits.value c).isSome

/-- `int` of some digits. -/
def toNat (cs : Text) : ℕ :=
  cs.foldl (fun n c => 10 * n + (digits.value c).getD 0) 0

def scanNumber (cs : Text) : Option (ℕ × Text) :=
  let number := cs.takeWhile digits.isDigit
  if number = [] then none else some (digits.toNat number, cs.dropWhile digits.isDigit)

/-- A number, and the number after a comma, which is `1` if it is not there. -/
def scanRange (cs : Text) : Option ((ℕ × ℕ) × Text) := do
  let (start, rest) ← digits.scanNumber cs
  match (dropText "," rest).bind digits.scanNumber with
  | some (count, rest') => some ((start, count), rest')
  | none => some ((start, 1), rest)

/-- `HUNK_RE.match`: the two ranges of the header of a hunk. -/
def hunkRanges (line : Text) : Option ((ℕ × ℕ) × (ℕ × ℕ)) := do
  let rest ← dropText "@@ -" line
  let (old, rest) ← digits.scanRange rest
  let rest ← dropText " +" rest
  let (new, rest) ← digits.scanRange rest
  let _ ← dropText " @@" rest
  pure (old, new)

end DecimalDigits

def normalizeFile (raw : Text) : Text :=
  if raw = "/dev/null".toList ∨ raw = "NUL".toList then raw
  else if startsWith "a/" raw || startsWith "b/" raw then raw.drop 2
  else raw

/-- What the parser knows after some lines: the hunks are followed by the current one. -/
structure ParseState where
  affectedFiles : List Text
  hunks : List ParsedDiffHunk
  currentFile : Option Text
  currentHunk : Option ParsedDiffHunk

def ParseState.start : ParseState := ⟨[], [], none, none⟩

def ParseState.allHunks (s : ParseState) : List ParsedDiffHunk := s.hunks ++ s.currentHunk.toList

def ParseState.openFile (raw : Text) (s : ParseState) : ParseState :=
  let file := normalizeFile (trim isSpace raw)
  { s with
    currentFile := some file
    affectedFiles :=
      if file ≠ [] ∧ file ≠ "/dev/null".toList ∧ file ∉ s.affectedFiles then
        s.affectedFiles ++ [file]
      else s.affectedFiles }

def ParseState.openHunk (header : Text) (ranges : (ℕ × ℕ) × (ℕ × ℕ)) (s : ParseState) :
    ParseState :=
  { s with
    hunks := s.allHunks
    currentHunk := some ⟨s.currentFile.getD [], header, ranges.1.1, ranges.1.2, ranges.2.1,
      ranges.2.2, [], [], []⟩ }

def ParsedDiffHunk.addLine (line : Text) (hunk : ParsedDiffHunk) : ParsedDiffHunk :=
  if isAddedLine line then { hunk with addedLines := hunk.addedLines ++ [line.drop 1] }
  else if isRemovedLine line then { hunk with removedLines := hunk.removedLines ++ [line.drop 1] }
  else if startsWith " " line then { hunk with contextLines := hunk.contextLines ++ [line.drop 1] }
  else hunk

/-- The body of the loop over the lines. -/
def parseLine (digits : DecimalDigits) (s : ParseState) (line : Text) : ParseState :=
  if startsWith "+++ " line then s.openFile (line.drop 4)
  else
    match digits.hunkRanges line with
    | some ranges => s.openHunk line ranges
    | none => { s with currentHunk := s.currentHunk.map (·.addLine line) }

/-- `_finding`. -/
def diffFinding (category severity message : String) : PatchQualityFinding :=
  ⟨category ++ "_1", category, severity, message, none, true⟩

/-- `UnifiedDiffParser.parse`. -/
def parseDiff (digits : DecimalDigits) (diffText : Text) : DiffParseResult :=
  if trim isSpace diffText = [] then
    ⟨false, [], [], 0, 0, false, false, false,
      [diffFinding "empty_diff" "error" "Diff vazio nao pode passar no quality gate."]⟩
  else
    let lines := splitLines diffText
    let s := lines.foldl (parseLine digits) .start
    let hunks := s.allHunks
    let binaryDetected := lines.any fun line =>
      decide ("GIT binary patch".toList <:+: line) || startsWith "Binary files " line
    let renameDetected := lines.any fun line =>
      startsWith "rename from " line || startsWith "rename to " line
    let deleteDetected := lines.any (startsWith "deleted file mode")
    let findings :=
      (if binaryDetected then
        [diffFinding "binary_diff" "critical" "Diff binario nao e validavel estaticamente."]
        else []) ++
      (if renameDetected then
        [diffFinding "rename_diff" "high" "Rename em diff requer revisao manual explicita."]
        else []) ++
      (if deleteDetected then
        [diffFinding "delete_diff" "high" "Delecao em diff requer revisao manual explicita."]
        else []) ++
      (if s.affectedFiles = [] then
        [diffFinding "missing_target" "error" "Diff nao declara arquivo alvo em header +++."]
        else []) ++
      (if hunks = [] then
        [diffFinding "missing_hunk" "error" "Diff nao contem hunk unified valido."]
        else [])
    { valid := !findings.any (·.blocking)
      affectedFiles := s.affectedFiles
      hunks := hunks
      addedLines := (hunks.map (·.addedLines.length)).sum
      removedLines := (hunks.map (·.removedLines.length)).sum
      binaryDetected := binaryDetected
      renameDetected := renameDetected
      deleteDetected := deleteDetected
      findings := findings }

end AIpinho.Patching
