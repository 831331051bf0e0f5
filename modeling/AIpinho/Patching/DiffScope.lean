import AIpinho.Patching.UnifiedDiff

/-!
# The scope of a diff

`DiffScopeValidator` compares the files of a diff with those of a plan. It is enough that a path
of the diff ends a path of the plan; a plan without files sets no bound.
-/

namespace AIpinho.Patching

open Lib

/-- `path.replace("\\", "/")`. -/
def slashes (path : Text) : Text := path.map fun c => if c = '\\' then '/' else c

def PatchPlan.declaredFiles (plan : PatchPlan) : List Text :=
  plan.affectedFiles.map fun file => file.rel.toList

local instance lawfulText : LawfulBEq Text := inferInstance

def isOutOfScope (declared : List Text) (filePath : Text) : Bool :=
  decide (slashes filePath ∉ declared) &&
    !declared.any fun item => (slashes filePath).isSuffixOf item

def scopeFinding (index : ℕ) (filePath : Text) : PatchQualityFinding :=
  ⟨"diff_scope_" ++ toString index, "diff_scope", "high",
    "Diff altera arquivo fora do escopo declarado do plano.", some filePath, true⟩

/-- The loop over the files of a diff. -/
def scopeFindings (declared : List Text) : ℕ → List Text → List PatchQualityFinding
  | _, [] => []
  | index, filePath :: files =>
    if isOutOfScope declared filePath then
      scopeFinding index filePath :: scopeFindings declared (index + 1) files
    else scopeFindings declared (index + 1) files

/-- `validate`. -/
def validateScope (parse : DiffParseResult) (declaredFiles : List Text) :
    List PatchQualityFinding :=
  let declared := declaredFiles.map slashes
  if declared = [] then [] else scopeFindings declared 1 parse.affectedFiles

/-- The validation has nothing against the files of the diff. -/
def PatchPlan.AcceptsScope (plan : PatchPlan) (parse : DiffParseResult) : Prop :=
  validateScope parse plan.declaredFiles = []

section Scope

variable {declared files : List Text} {path item : Text}

def normalizePath (path : Text) : Text :=
  if startsWith "a/" (slashes path) || startsWith "b/" (slashes path) then (slashes path).drop 2
  else slashes path

def SameFile (path item : Text) : Prop := normalizePath path = normalizePath item

/-- The item ends with the path, perhaps within a component. -/
def Ends (path item : Text) : Prop := slashes path <:+ slashes item

/-- The last components of the item are the path. -/
def EndsWhole (path item : Text) : Prop :=
  slashes path = slashes item ∨ '/' :: slashes path <:+ slashes item

theorem EndsWhole.ends (h : EndsWhole path item) : Ends path item := by
  rcases h with hsame | hend
  · rw [Ends, hsame]
  · exact (List.suffix_cons _ _).trans hend

theorem isOutOfScope_eq_false_iff :
    isOutOfScope (declared.map slashes) path = false ↔ ∃ item ∈ declared, Ends path item := by
  rw [isOutOfScope, Bool.and_eq_false_iff, decide_eq_false_iff_not, not_not, Bool.not_eq_false',
    List.any_map, List.any_eq_true, List.mem_map]
  constructor
  · rintro (⟨item, hitem, hsame⟩ | ⟨item, hitem, hend⟩)
    · exact ⟨item, hitem, by rw [Ends, hsame]⟩
    · exact ⟨item, hitem, List.isSuffixOf_iff_suffix.mp hend⟩
  · rintro ⟨item, hitem, hend⟩
    exact .inr ⟨item, hitem, List.isSuffixOf_iff_suffix.mpr hend⟩

theorem scopeFindings_eq_nil_iff (index : ℕ) : scopeFindings declared index files = [] ↔
      ∀ file ∈ files, isOutOfScope declared file = false := by
  induction files generalizing index with
  | nil => simp [scopeFindings]
  | cons file files ih =>
    rw [scopeFindings, List.forall_mem_cons]
    split
    · rename_i hout
      simp [hout]
    · rename_i hout
      rw [ih, Bool.not_eq_true] at *
      simp [hout]

theorem acceptsScope_iff (plan : PatchPlan) (parse : DiffParseResult) :
    plan.AcceptsScope parse ↔ plan.declaredFiles = [] ∨
      ∀ path ∈ parse.affectedFiles, ∃ item ∈ plan.declaredFiles, Ends path item := by
  rw [PatchPlan.AcceptsScope, validateScope]
  by_cases hnone : plan.declaredFiles = []
  · rw [hnone]
    exact iff_of_true rfl (.inl rfl)
  · rw [if_neg fun hmap => hnone (List.map_eq_nil_iff.mp hmap), scopeFindings_eq_nil_iff,
      or_iff_right hnone]
    simp only [isOutOfScope_eq_false_iff]

/-- A path of the diff ends a declared file within a component. -/
def CutsComponent (plan : PatchPlan) (parse : DiffParseResult) : Prop :=
  ∃ path ∈ parse.affectedFiles, ∃ item ∈ plan.declaredFiles, Ends path item ∧ ¬EndsWhole path item

/-- What the validator accepts of a plan with files ends their paths; where no component is
cut, it accepts exactly the declared files and their last components. -/
theorem acceptsScope_components (plan : PatchPlan) (parse : DiffParseResult) :
    (plan.AcceptsScope parse → plan.declaredFiles ≠ [] →
        ∀ path ∈ parse.affectedFiles, ∃ item ∈ plan.declaredFiles, Ends path item) ∧
      (¬CutsComponent plan parse → (plan.AcceptsScope parse ↔ plan.declaredFiles = [] ∨
          ∀ path ∈ parse.affectedFiles, ∃ item ∈ plan.declaredFiles, EndsWhole path item)) := by
  rw [acceptsScope_iff]
  refine ⟨fun haccepts hsome => haccepts.resolve_left hsome, fun hwhole => ?_⟩
  refine or_congr_right (forall₂_congr fun path hpath => exists_congr fun item => ?_)
  refine and_congr_right fun hitem => ⟨fun hends => ?_, EndsWhole.ends⟩
  by_contra hcut
  exact hwhole ⟨path, hpath, item, hitem, hends, hcut⟩

end Scope

def nestedPlan : PatchPlan := ⟨[⟨"src/util.py", none, some "src/util.py", none⟩], []⟩

def rootDiff : DiffParseResult :=
  parseDiff asciiDigits "--- a/util.py\n+++ b/util.py\n@@ -1 +1 @@\n-a\n+b".toList

/-- The file at the root is accepted for the one in the directory. -/
theorem root_file_accepted : rootDiff.valid = true ∧ nestedPlan.AcceptsScope rootDiff ∧
      ∃ path ∈ rootDiff.affectedFiles, ∀ item ∈ nestedPlan.declaredFiles, ¬SameFile path item := by
  have hfiles : "util.py".toList ∈ rootDiff.affectedFiles := by decide
  refine ⟨by decide, by rw [PatchPlan.AcceptsScope]; decide, _, hfiles, ?_⟩
  simp only [SameFile]
  decide

end AIpinho.Patching
