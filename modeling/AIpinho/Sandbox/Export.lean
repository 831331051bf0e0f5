import AIpinho.Lib.Glob
import AIpinho.Sandbox.Isolation

/-!
# Exports of a sandbox

An export puts the files at and below some paths into an archive, except those that a glob
excludes, with a manifest as its last entry.
-/

namespace AIpinho.Sandbox

open List Lib FileTree

/-- `SandboxArtifactExportRequest`. -/
structure ExportRequest where
  workspaceId : String
  taskId : Option String := none
  projectGenerationId : Option String := none
  filename : String := "sandbox_artifact.zip"
  includePaths : List String := ["."]
  excludeGlobs : List String := []

/-- A file in a manifest. -/
structure ManifestFile where
  relativePath : String
  size : ℕ
  sha256 : String
  deriving DecidableEq

/-- The manifest of an export. -/
structure ExportManifest where
  taskId : Option String
  workspaceId : String
  sourceDirectory : FilePath
  files : List ManifestFile
  validationStatus : String := "pending"
  /-- References to what was exported. -/
  evidenceRefs : List String

/-- The entries of an archive in the order in which they were written. -/
abbrev Archive := List (String × Bytes)

/-- An artifact that has been stored. -/
structure UploadedArtifact where
  artifactId : String
  filename : String
  size : ℕ
  downloadEndpoint : Option String
  requiresToken : Bool

/-- What an export uses of the standard library, of the policy and of the artifact store. -/
structure ExportServices where
  /-- `json.dumps` of a manifest. -/
  dumps : ExportManifest → String
  zip : Archive → Bytes
  /-- `testzip`: the name of a bad entry, if there is one. -/
  testzip : Bytes → Option String
  /-- The `max_bytes` of the policy. -/
  maxBytes : ℕ
  /-- `upload_artifact`, by name and content. -/
  upload : String → Bytes → Except String UploadedArtifact

/-- The status of an export. -/
inductive ExportStatus
  | blocked | ready | failed
  deriving DecidableEq

/-- `SandboxArtifactExport`. -/
structure ArtifactExport where
  exportId : String
  taskId : Option String
  workspaceId : String
  projectGenerationId : Option String := none
  sourceDirectory : Option FilePath := none
  artifactId : Option String := none
  filename : String
  size : ℕ
  status : ExportStatus
  reasonCode : String
  downloadEndpoint : Option String := none
  requiresToken : Bool := true
  manifestPath : Option String := none
  validationId : Option String := none

def defaultExcludeGlobs : List String :=
  ["__pycache__/*", "*/__pycache__/*", "*.pyc", "*/build/*", "build/*", "*/.gradle/*", ".gradle/*",
    "*/node_modules/*", "node_modules/*", "*/dist/*", "dist/*"]

/-- `PurePosixPath.as_posix` of a relative path, from its first part to its last. -/
def asPosix (parts : List String) : String :=
  if parts = [] then "." else "/".intercalate parts

/-- `path.relative_to(root).as_posix()`. -/
def relativePosix (root path : FilePath) : String :=
  asPosix (path.take (path.length - root.length)).reverse

def isExcluded (excludeGlobs : List String) (name : String) : Bool :=
  (defaultExcludeGlobs ++ excludeGlobs).any (fnmatch name)

/-- An archive while it is written, and what is listed so far. -/
structure Written where
  archive : Archive := []
  files : List ManifestFile := []

/-- `_write_file`, for a file that is there. -/
def writeEntry (env : SandboxEnv) (files : FileTree Bytes) (root : FilePath)
    (excludeGlobs : List String) (written : Written) (path : FilePath) : Written :=
  let rel := relativePosix root path
  if isExcluded excludeGlobs rel then written
  else
    let data := (files.content? path).getD []
    { archive := written.archive ++ [(rel, data)]
      files := written.files ++ [⟨rel, data.length, env.sha256 data⟩] }

def includedFiles (files : FileTree Bytes) (base : FilePath) : List FilePath :=
  if files.isFile base then [base] else files.filesBelow base

def ExportRequest.included (request : ExportRequest) : List String :=
  if request.includePaths = [] then ["."] else request.includePaths

/-- The loop of `export_zip` over the included paths. -/
def writeIncluded (env : SandboxEnv) (s : SandboxState) (request : ExportRequest)
    (root : FilePath) : List String → Written → Except String Written
  | [], written => .ok written
  | rel :: rest, written => do
    let base ← resolvePath env s request.workspaceId rel "read" request.taskId
    writeIncluded env s request root rest
      ((includedFiles s.files base).foldl (writeEntry env s.files root request.excludeGlobs)
        written)

def manifestName : String := "sandbox_manifest.json"

def manifestOf (request : ExportRequest) (root : FilePath) (files : List ManifestFile) :
    ExportManifest where
  taskId := request.taskId
  workspaceId := request.workspaceId
  sourceDirectory := root
  files := files
  evidenceRefs := ["sandbox_workspace:" ++ request.workspaceId]

def buildArchive (env : SandboxEnv) (services : ExportServices) (s : SandboxState)
    (request : ExportRequest) : Except String (Archive × ExportManifest) := do
  let _ ← getWorkspace s request.workspaceId
  let root ← operationRoot s request.workspaceId request.taskId
  let written ← writeIncluded env s request root request.included {}
  let manifest := manifestOf request root written.files
  pure (written.archive ++ [(manifestName, env.encode (services.dumps manifest))], manifest)

def safeFilename (env : SandboxEnv) (filename default : String) : String :=
  let name := (pathParts filename).getLast?.getD ""
  let safe := String.ofList (trim (fun c => c == '.' || c == '_') (name.toList.map fun ch =>
    if env.isAlnum ch || ['-', '_', '.'].contains ch then ch else '_'))
  if safe = "" then default else safe

def archiveName (env : SandboxEnv) (filename : String) : String :=
  let safe := safeFilename env filename "sandbox_artifact.zip"
  if ".zip".toList.isSuffixOf safe.toList then safe else safe ++ ".zip"

def SandboxTask.afterExport (task : SandboxTask) (made : ArtifactExport) (artifactId validationId
    now : String) : SandboxTask :=
  { task with
    artifactIds := task.artifactIds ++ [artifactId]
    validationIds := task.validationIds ++ [validationId]
    status := if made.status = .ready then .completed else .failed
    completedAt := if made.status = .ready then some now else task.completedAt
    evidenceRefs := addMissing task.evidenceRefs ("sandbox_artifact_export:" ++ made.exportId) }

def storedExport (services : ExportServices) (request : ExportRequest) (root : FilePath)
    (content : Bytes) (artifact : UploadedArtifact) (exportId validationId : String) :
    ArtifactExport where
  exportId := exportId
  taskId := request.taskId
  workspaceId := request.workspaceId
  projectGenerationId := request.projectGenerationId
  sourceDirectory := some root
  artifactId := some artifact.artifactId
  filename := artifact.filename
  size := artifact.size
  status := if services.testzip content = none then .ready else .failed
  reasonCode := "sandbox_artifact_export_allowed"
  downloadEndpoint := artifact.downloadEndpoint
  requiresToken := artifact.requiresToken
  manifestPath := some manifestName
  validationId := some validationId

/-- `export_zip`, for the identifiers that are drawn. -/
def exportZip (env : SandboxEnv) (services : ExportServices) (s : SandboxState)
    (request : ExportRequest) (exportId validationId now : String) :
    Except String ArtifactExport × SandboxState :=
  match buildArchive env services s request with
  | .error e => (.error e, s)
  | .ok (archive, manifest) =>
    let content := services.zip archive
    let filename := archiveName env request.filename
    if services.maxBytes < content.length then
      (.ok
        { exportId := exportId
          taskId := request.taskId
          workspaceId := request.workspaceId
          filename := filename
          size := content.length
          status := .blocked
          reasonCode := "sandbox_artifact_too_large" }, s)
    else
      match services.upload filename content with
      | .error e => (.error e, s)
      | .ok artifact =>
        let made := storedExport services request manifest.sourceDirectory content artifact exportId
          validationId
        match (request.taskId.filter (· ≠ "")).bind fun id => (s.tasks id).map (id, ·) with
        | none => (.ok made, s)
        | some (id, task) =>
          let updated := task.afterExport made artifact.artifactId validationId now
          (.ok made, { s with tasks := Function.update s.tasks id (some updated) })

variable {env : SandboxEnv} {services : ExportServices} {s : SandboxState}
  {request : ExportRequest} {root path : FilePath}

/-- A name that a file can have next to others in a directory. -/
def IsName (name : String) : Prop := name ≠ "." ∧ '/' ∉ name.toList

/-- The paths of the tree are made of file names. -/
def NamesOk (files : FileTree Bytes) : Prop :=
  ∀ path, files.isThere path = true → ∀ name ∈ path, IsName name

instance (name : String) : Decidable (IsName name) := inferInstanceAs (Decidable (_ ∧ _))

theorem namesOk_of_keys {files : FileTree Bytes}
    (h : ∀ path ∈ files.map Prod.fst, ∀ name ∈ path, IsName name) : NamesOk files := by
  intro path hthere
  by_cases hnil : path = []
  · subst hnil
    simp
  · obtain ⟨e, hat⟩ := isThere_iff.mp hthere
    exact h path (FileTree.mem_keys hnil hat)

theorem asPosix_injective {parts others : List String} (hparts : ∀ name ∈ parts, IsName name)
    (hothers : ∀ name ∈ others, IsName name) (h : asPosix parts = asPosix others) :
    parts = others := by
  have hread : ∀ names : List String, (∀ name ∈ names, IsName name) →
      (asPosix names).toList.splitOn '/' =
        if names = [] then [['.']] else names.map String.toList := by
    intro names hnames
    by_cases hnil : names = []
    · subst hnil
      decide
    · rw [if_neg hnil, asPosix, if_neg hnil, String.toList_intercalate]
      refine splitOn_intercalate '/' ?_ (by simpa using hnil)
      intro letters hletters
      obtain ⟨name, hname, rfl⟩ := mem_map.mp hletters
      exact (hnames name hname).2
  have hdot : ∀ names : List String, (∀ name ∈ names, IsName name) →
      names.map String.toList ≠ [['.']] := by
    intro names hnames heq
    obtain ⟨name, rfl, hname⟩ := map_eq_singleton_iff.mp heq
    refine (hnames name (mem_singleton_self name)).1 ?_
    exact String.toList_injective hname
  have hsame : (asPosix parts).toList.splitOn '/' = (asPosix others).toList.splitOn '/' := by
    rw [h]
  rw [hread parts hparts, hread others hothers] at hsame
  split at hsame <;> split at hsame
  · rename_i hnil hnil'
    rw [hnil, hnil']
  · exact absurd hsame.symm (hdot others hothers)
  · exact absurd hsame (hdot parts hparts)
  · exact map_injective_iff.mpr (fun _ _ hsame => String.toList_injective hsame) hsame

theorem relativePosix_injective {other : FilePath} (hpath : root <:+ path) (hother : root <:+ other)
    (hnames : ∀ name ∈ path, IsName name) (hothers : ∀ name ∈ other, IsName name)
    (h : relativePosix root path = relativePosix root other) : path = other := by
  obtain ⟨parts, rfl⟩ := hpath
  obtain ⟨parts', rfl⟩ := hother
  have htake : ∀ parts : List String,
      (parts ++ root).take ((parts ++ root).length - root.length) = parts := by
    intro parts
    simp
  unfold relativePosix at h
  rw [htake, htake] at h
  have heq := asPosix_injective
    (fun name hname => hnames name (mem_append_left _ (mem_reverse.mp hname)))
    (fun name hname => hothers name (mem_append_left _ (mem_reverse.mp hname))) h
  rw [reverse_injective heq]

def keptFiles (env : SandboxEnv) (s : SandboxState) (request : ExportRequest) (root : FilePath)
    (rel : String) : List FilePath :=
  match resolvePath env s request.workspaceId rel "read" request.taskId with
  | .error _ => []
  | .ok base => (includedFiles s.files base).filter fun path =>
      !isExcluded request.excludeGlobs (relativePosix root path)

def entryOf (files : FileTree Bytes) (root path : FilePath) : String × Bytes :=
  (relativePosix root path, (files.content? path).getD [])

def listedOf (env : SandboxEnv) (entry : String × Bytes) : ManifestFile :=
  ⟨entry.1, entry.2.length, env.sha256 entry.2⟩

theorem foldl_writeEntry (files : FileTree Bytes) (excludeGlobs : List String)
    (paths : List FilePath) (written : Written) :
    paths.foldl (writeEntry env files root excludeGlobs) written =
      let kept := (paths.filter fun path =>
        !isExcluded excludeGlobs (relativePosix root path)).map (entryOf files root)
      ⟨written.archive ++ kept, written.files ++ kept.map (listedOf env)⟩ := by
  induction paths generalizing written with
  | nil => simp
  | cons path paths ih =>
    rw [foldl_cons, ih]
    unfold writeEntry
    cases hexcluded : isExcluded excludeGlobs (relativePosix root path) with
    | true => simp [hexcluded]
    | false => simp [hexcluded, entryOf, listedOf]

theorem writeIncluded_eq {rels : List String} {written result : Written}
    (h : writeIncluded env s request root rels written = .ok result) :
    let kept := (rels.flatMap (keptFiles env s request root)).map (entryOf s.files root)
    result = ⟨written.archive ++ kept, written.files ++ kept.map (listedOf env)⟩ := by
  induction rels generalizing written with
  | nil =>
    cases h
    simp
  | cons rel rels ih =>
    unfold writeIncluded at h
    obtain ⟨base, hbase, h⟩ := value_bind_ok_iff.mp h
    rw [foldl_writeEntry] at h
    have hrest := ih h
    have hkept : keptFiles env s request root rel = (includedFiles s.files base).filter fun path =>
        !isExcluded request.excludeGlobs (relativePosix root path) := by
      unfold keptFiles
      rw [hbase]
    dsimp only at hrest ⊢
    rw [hrest, flatMap_cons, hkept]
    simp [append_assoc]

theorem buildArchive_eq {archive : Archive} {manifest : ExportManifest}
    (h : buildArchive env services s request = .ok (archive, manifest)) :
    ∃ root, operationRoot s request.workspaceId request.taskId = .ok root ∧
      let kept := (request.included.flatMap (keptFiles env s request root)).map
        (entryOf s.files root)
      manifest = manifestOf request root (kept.map (listedOf env)) ∧
      archive = kept ++ [(manifestName, env.encode (services.dumps manifest))] := by
  unfold buildArchive at h
  obtain ⟨workspace, -, h⟩ := value_bind_ok_iff.mp h
  obtain ⟨root, hroot, h⟩ := value_bind_ok_iff.mp h
  obtain ⟨written, hwritten, h⟩ := value_bind_ok_iff.mp h
  have heq := writeIncluded_eq hwritten
  dsimp only at heq
  simp only [nil_append] at heq
  have hpair := Except.ok.inj h
  rw [heq] at hpair
  obtain ⟨harchive, hmanifest⟩ := Prod.mk.inj hpair
  refine ⟨root, hroot, hmanifest.symm, ?_⟩
  rw [← hmanifest, ← harchive]

def IsIncluded (env : SandboxEnv) (s : SandboxState) (request : ExportRequest) (rel : String)
    (path : FilePath) : Prop :=
  ∃ base, resolvePath env s request.workspaceId rel "read" request.taskId = .ok base ∧
    base <:+ path ∧ s.files.isFile path = true

/-- An archive is what its manifest says it is. -/
structure MatchesManifest (env : SandboxEnv) (s : SandboxState) (request : ExportRequest)
    (archive : Archive) (manifest : ExportManifest) : Prop where
  /-- The entries have different names. -/
  distinct : (archive.map Prod.fst).Nodup
  /-- They are the manifest and the files that it lists. -/
  consists : ∀ name, name ∈ archive.map Prod.fst ↔
    name = manifestName ∨ name ∈ manifest.files.map ManifestFile.relativePath
  /-- Every file that is included and not excluded is listed once. -/
  complete : ∀ rel ∈ request.included, ∀ path, IsIncluded env s request rel path →
    isExcluded request.excludeGlobs (relativePosix manifest.sourceDirectory path) = false →
      (manifest.files.map ManifestFile.relativePath).count
        (relativePosix manifest.sourceDirectory path) = 1
  /-- The sizes and hashes are those of the entries. -/
  digests : ∀ file ∈ manifest.files, ∀ data, (file.relativePath, data) ∈ archive →
    file.size = data.length ∧ file.sha256 = env.sha256 data

/-- No file that is kept lies in two included paths, and none has the name of the manifest. -/
structure Apart (env : SandboxEnv) (s : SandboxState) (request : ExportRequest) (root : FilePath) :
    Prop where
  once : request.included.Pairwise fun rel rel' => ∀ path, IsIncluded env s request rel path →
    IsIncluded env s request rel' path →
      isExcluded request.excludeGlobs (relativePosix root path) = true
  /-- A file with the name of the manifest is excluded. -/
  unnamed : ∀ rel ∈ request.included, ∀ path, IsIncluded env s request rel path →
    relativePosix root path = manifestName → isExcluded request.excludeGlobs manifestName = true

theorem mem_includedFiles (hw : FileTree.WellFormed s.files) {base : FilePath} :
    path ∈ includedFiles s.files base ↔ base <:+ path ∧ s.files.isFile path = true := by
  unfold includedFiles
  by_cases hbase : s.files.isFile base = true
  · rw [if_pos hbase, mem_singleton]
    constructor
    · rintro rfl
      exact ⟨suffix_rfl, hbase⟩
    · rintro ⟨⟨above, rfl⟩, hfile⟩
      rcases eq_nil_or_concat above with rfl | ⟨front, name, rfl⟩
      · rfl
      · rw [concat_append] at hfile
        exact absurd (isThere_of_isFile hfile) (hw.nothing_below_file hbase front)
  · rw [if_neg hbase, mem_filesBelow]
    constructor
    · rintro ⟨hsuffix, -, hfile⟩
      exact ⟨hsuffix, hfile⟩
    · rintro ⟨hsuffix, hfile⟩
      refine ⟨hsuffix, ?_, hfile⟩
      rintro rfl
      exact hbase hfile

theorem mem_keptFiles (hw : FileTree.WellFormed s.files) {rel : String} :
    path ∈ keptFiles env s request root rel ↔ IsIncluded env s request rel path ∧
      isExcluded request.excludeGlobs (relativePosix root path) = false := by
  unfold keptFiles IsIncluded
  cases hbase : resolvePath env s request.workspaceId rel "read" request.taskId with
  | error e => simp
  | ok base => simp [mem_includedFiles hw]

theorem nodup_keptFiles (rel : String) : (keptFiles env s request root rel).Nodup := by
  unfold keptFiles
  cases resolvePath env s request.workspaceId rel "read" request.taskId with
  | error e => exact nodup_nil
  | ok base =>
    refine List.Nodup.filter _ ?_
    unfold includedFiles
    split
    · exact nodup_singleton base
    · exact nodup_filesBelow _ _

theorem apart_iff (hw : FileTree.WellFormed s.files) : Apart env s request root ↔
      (request.included.flatMap (keptFiles env s request root)).Nodup ∧
        ∀ path ∈ request.included.flatMap (keptFiles env s request root),
          relativePosix root path ≠ manifestName := by
  rw [nodup_flatMap]
  constructor
  · intro h
    refine ⟨⟨fun rel _ => nodup_keptFiles rel, h.once.imp ?_⟩, ?_⟩
    · intro rel rel' hapart path hpath hpath'
      obtain ⟨hin, hkept⟩ := (mem_keptFiles hw).mp hpath
      obtain ⟨hin', -⟩ := (mem_keptFiles hw).mp hpath'
      rw [hapart path hin hin'] at hkept
      cases hkept
    · intro path hpath hname
      obtain ⟨rel, hrel, hpath⟩ := mem_flatMap.mp hpath
      obtain ⟨hin, hkept⟩ := (mem_keptFiles hw).mp hpath
      rw [hname, h.unnamed rel hrel path hin hname] at hkept
      cases hkept
  · rintro ⟨⟨-, hapart⟩, hnames⟩
    constructor
    · refine hapart.imp fun {rel rel'} hdisjoint path hin hin' => ?_
      by_contra hkept
      rw [Bool.not_eq_true] at hkept
      exact hdisjoint ((mem_keptFiles hw).mpr ⟨hin, hkept⟩) ((mem_keptFiles hw).mpr ⟨hin', hkept⟩)
    · intro rel hrel path hin hname
      by_contra hkept
      rw [Bool.not_eq_true, ← hname] at hkept
      have hmem := mem_flatMap.mpr ⟨rel, hrel, (mem_keptFiles hw).mpr ⟨hin, hkept⟩⟩
      exact hnames path hmem hname

theorem IsIncluded.below {rel : String} (h : IsIncluded env s request rel path)
    (hroot : operationRoot s request.workspaceId request.taskId = .ok root) : root <:+ path := by
  obtain ⟨base, hbase, hsuffix, -⟩ := h
  obtain ⟨workspace, root', -, -, hroot', -, rfl⟩ := resolvePath_ok hbase
  rw [hroot] at hroot'
  have heq := Except.ok.inj hroot'
  subst heq
  exact (suffix_append _ _).trans hsuffix

theorem relativePosix_inj_on_kept (env : SandboxEnv) (hw : FileTree.WellFormed s.files)
    (hnames : NamesOk s.files)
    (hroot : operationRoot s request.workspaceId request.taskId = .ok root) :
    ∀ path ∈ request.included.flatMap (keptFiles env s request root),
      ∀ other ∈ request.included.flatMap (keptFiles env s request root),
        relativePosix root path = relativePosix root other → path = other := by
  intro path hpath other hother hname
  obtain ⟨rel, -, hpath⟩ := mem_flatMap.mp hpath
  obtain ⟨rel', -, hother⟩ := mem_flatMap.mp hother
  obtain ⟨hin, -⟩ := (mem_keptFiles hw).mp hpath
  obtain ⟨hin', -⟩ := (mem_keptFiles hw).mp hother
  have hthere : s.files.isThere path = true := isThere_of_isFile hin.choose_spec.2.2
  have hthere' : s.files.isThere other = true := isThere_of_isFile hin'.choose_spec.2.2
  exact relativePosix_injective (hin.below hroot) (hin'.below hroot) (hnames path hthere)
    (hnames other hthere') hname

/-- An export matches its manifest exactly if no file that is kept lies in two included paths and
none has the name of the manifest. -/
theorem matches_manifest_iff (hw : FileTree.WellFormed s.files) (hnames : NamesOk s.files)
    {archive : Archive} {manifest : ExportManifest}
    (hbuilt : buildArchive env services s request = .ok (archive, manifest)) :
    MatchesManifest env s request archive manifest ↔
      Apart env s request manifest.sourceDirectory := by
  obtain ⟨root, hroot, hmanifest, harchive⟩ := buildArchive_eq hbuilt
  have hinj := relativePosix_inj_on_kept env hw hnames hroot
  have hsource : manifest.sourceDirectory = root := by rw [hmanifest]; rfl
  have hfiles : manifest.files = ((request.included.flatMap (keptFiles env s request root)).map
      (entryOf s.files root)).map (listedOf env) := by rw [hmanifest]; rfl
  have hlisted : manifest.files.map ManifestFile.relativePath =
      (request.included.flatMap (keptFiles env s request root)).map (relativePosix root) := by
    rw [hfiles, map_map, map_map]
    rfl
  have hentries : archive.map Prod.fst =
      (request.included.flatMap (keptFiles env s request root)).map (relativePosix root) ++
        [manifestName] := by
    rw [harchive, map_append, map_map]
    rfl
  rw [hsource, apart_iff hw]
  constructor
  · intro h
    have hdistinct := h.distinct
    rw [hentries, nodup_concat_iff] at hdistinct
    refine ⟨hdistinct.2.of_map, fun path hpath hname => hdistinct.1 ?_⟩
    exact mem_map.mpr ⟨path, hpath, hname⟩
  · rintro ⟨hnodup, hunnamed⟩
    have hnodup' := (nodup_map_iff_inj_on hnodup).mpr hinj
    constructor
    · rw [hentries, nodup_concat_iff]
      refine ⟨fun hmem => ?_, hnodup'⟩
      obtain ⟨path, hpath, hname⟩ := mem_map.mp hmem
      exact hunnamed path hpath hname
    · intro name
      rw [hentries, hlisted, mem_append, mem_singleton, or_comm]
    · intro rel hrel path hin hkept
      rw [hlisted, hsource]
      rw [hsource] at hkept
      refine count_eq_one_of_mem hnodup' (mem_map_of_mem ?_)
      exact mem_flatMap.mpr ⟨rel, hrel, (mem_keptFiles hw).mpr ⟨hin, hkept⟩⟩
    · intro file hfile data hdata
      rw [hfiles, map_map] at hfile
      obtain ⟨path, hpath, rfl⟩ := mem_map.mp hfile
      rw [harchive, mem_append, mem_singleton] at hdata
      rcases hdata with hdata | hdata
      · obtain ⟨other, hother, heq⟩ := mem_map.mp hdata
        obtain ⟨hname, rfl⟩ := Prod.mk.inj heq
        have hsame := hinj other hother path hpath hname
        subst hsame
        exact ⟨rfl, rfl⟩
      · exact absurd (Prod.mk.inj hdata).1 (hunnamed path hpath)

def plainExport : ExportServices where
  dumps _ := "{}"
  zip _ := []
  testzip _ := none
  maxBytes := 200000000
  upload filename _ := .ok ⟨"artifact", filename, 0, none, true⟩

def startWith (name : String) : SandboxState :=
  { plainStart with
    files := plainStart.files.put (name :: plainEnv.directory "default") (.file [65]) }

/-- The archive of the whole default workspace, with one file in it. -/
def soleArchive (name : String) : Archive := [(name, [65]), (manifestName, [123, 125])]

def exportOf (paths : List String) : ExportRequest where
  workspaceId := "sandbox_ws_default"
  includePaths := paths

theorem matches_manifest_sole :
    ∃ manifest, buildArchive plainEnv plainExport (startWith "notes.txt") (exportOf []) =
        .ok (soleArchive "notes.txt", manifest) ∧
      MatchesManifest plainEnv (startWith "notes.txt") (exportOf []) (soleArchive "notes.txt")
        manifest := by
  have hbuilt : buildArchive plainEnv plainExport (startWith "notes.txt") (exportOf []) =
      .ok (soleArchive "notes.txt", manifestOf (exportOf []) (plainEnv.directory "default")
        [⟨"notes.txt", 1, ""⟩]) := by rfl
  have hw : FileTree.WellFormed (startWith "notes.txt").files :=
    wellFormed_of_keys (by decide +kernel)
  have hnames : NamesOk (startWith "notes.txt").files := namesOk_of_keys (by decide +kernel)
  have hapart : Apart plainEnv (startWith "notes.txt") (exportOf [])
      (plainEnv.directory "default") := (apart_iff hw).mpr (by decide +kernel)
  exact ⟨_, hbuilt, (matches_manifest_iff hw hnames hbuilt).mpr hapart⟩

/-- A file that is included twice has two entries, and a file with the name of the manifest shares
it with the manifest. -/
theorem exports_repeat_names :
    (∃ archive manifest, buildArchive plainEnv plainExport (startWith "notes.txt")
        (exportOf ["notes.txt", "."]) = .ok (archive, manifest) ∧
      ¬MatchesManifest plainEnv (startWith "notes.txt") (exportOf ["notes.txt", "."]) archive
        manifest) ∧
    ∃ archive manifest, buildArchive plainEnv plainExport (startWith "sandbox_manifest.json")
        (exportOf ["."]) = .ok (archive, manifest) ∧
      ¬MatchesManifest plainEnv (startWith "sandbox_manifest.json") (exportOf ["."]) archive
        manifest := by
  constructor
  · refine ⟨("notes.txt", [65]) :: soleArchive "notes.txt", _, rfl, fun h => ?_⟩
    exact absurd h.distinct (by decide +kernel)
  · refine ⟨soleArchive "sandbox_manifest.json", _, rfl, fun h => ?_⟩
    exact absurd h.distinct (by decide +kernel)

end AIpinho.Sandbox
