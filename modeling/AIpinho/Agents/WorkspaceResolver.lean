import AIpinho.Agents.PolicyKernel
import Mathlib.Data.List.MinMax

/-!
# Where a tool call takes place

A workspace is found by its identifier, by the longest registered root around a path, or among
the local resources of a mission. Its role decides about the access. A forbidden or protected
root around the path overrides that role, a nested root of another role does not.
-/

namespace AIpinho.Agents

open List
open AIpinho.Mission (MissionResourceScope)

/-- What the file system and the path library of Python answer. -/
structure PathServices (Path : Type) where
  /-- `Path(text).expanduser().resolve()`, unless the system raises. -/
  resolve : String → Option Path
  /-- `(root / text).resolve()`, unless the system raises. -/
  resolveIn : Path → String → Option Path
  /-- `Path(text).is_absolute()`. -/
  isAbsolute : String → Bool
  /-- The text of `Path(text).expanduser()`, if that is absolute. -/
  expandAbsolute : String → Option String
  /-- `path.relative_to(root)` does not raise. -/
  isRelativeTo : Path → Path → Bool
  /-- `str`. -/
  text : Path → String
  /-- `MissionLocalResourceScopeService.is_under`. -/
  isUnder : String → String → Bool
  /-- The length of what `normalize` gives. -/
  normalLength : String → ℕ

/-- An enabled entry of the registry whose root was resolved. -/
structure WorkspaceEntry (Path : Type) where
  workspaceId : String
  role : Option String
  resolvedRoot : Path

/-- What was asked for. -/
structure ResolveRequest where
  workspaceId : Option String
  pathRef : Option String
  relativePath : Option String
  /-- `read`, `write` or `shell`. -/
  access : String
  localResources : List MissionResourceScope

def given (text : Option String) : Option String := text.filter (· ≠ "")

/-- The workspace that was found. -/
structure Selected (Path : Type) where
  workspaceId : String
  role : String
  root : Path
  missionResource : Bool

def roleAllows (role access : String) : Bool :=
  if ["forbidden", "protected", "unknown"].contains role then false
  else if access = "read" then
    ["source_readonly", "target_mutable", "system_mutable"].contains role
  else if access = "write" then ["target_mutable", "system_mutable"].contains role
  else if access = "shell" then ["target_mutable", "system_mutable"].contains role
  else false

/-- The role of a name; the schema refuses the others. -/
def roleOf (role : String) : Except String WorkspaceRole :=
  if role = "source_readonly" then .ok .sourceReadonly
  else if role = "target_mutable" then .ok .targetMutable
  else if role = "system_mutable" then .ok .systemMutable
  else if role = "protected" then .ok .protectedArea
  else if role = "forbidden" then .ok .forbidden
  else if role = "unknown" then .ok .unknown
  else .error "ValidationError"

def isLocalResource (resource : MissionResourceScope) : Bool :=
  resource.resourceType = .localWorkspace || resource.resourceType = .missionStaging

/-- `resource_by_id`. -/
def localResourceById (resources : List MissionResourceScope) (resourceId : String) :
    Option MissionResourceScope :=
  resources.find? fun resource => isLocalResource resource && resource.resourceId = resourceId

/-- `AgentToolWorkspaceResolver`. -/
structure WorkspaceResolver (Path : Type) where
  paths : PathServices Path
  entries : List (WorkspaceEntry Path)

namespace WorkspaceResolver

variable {Path : Type} (resolver : WorkspaceResolver Path)

variable (entry : WorkspaceEntry Path)

def entryRole : String := entry.role.getD "unknown"

def Contains (path : Path) : Prop :=
  resolver.paths.isRelativeTo path entry.resolvedRoot = true

instance (entry : WorkspaceEntry Path) (path : Path) : Decidable (resolver.Contains entry path) :=
  inferInstanceAs (Decidable (_ = true))

def rootLength : ℕ :=
  (resolver.paths.text entry.resolvedRoot).length

def longestMatch (path : Path) : Option (WorkspaceEntry Path) :=
  (resolver.entries.filter fun entry => resolver.Contains entry path).argmax resolver.rootLength

def scopeForPath (resources : List MissionResourceScope) (path : Path) :
    Option MissionResourceScope :=
  (resources.filter fun resource => isLocalResource resource &&
    match given resource.locator with
    | some locator => resolver.paths.isUnder (resolver.paths.text path) locator
    | none => false).argmax fun resource =>
      resolver.paths.normalLength (resource.locator.getD "")

def explicitPath (request : ResolveRequest) : Option String :=
  match given request.pathRef with
  | some path => some path
  | none => (given request.relativePath).bind resolver.paths.expandAbsolute

def ofEntry : Selected Path :=
  ⟨entry.workspaceId, entryRole entry, entry.resolvedRoot, false⟩

def ofResource (resource : MissionResourceScope) : Except String (Option (Selected Path)) :=
  match given resource.locator with
  | none => .ok none
  | some locator =>
    match resolver.paths.resolve locator with
    | none => .error "OSError"
    | some root =>
      .ok (some ⟨resource.resourceId, (given resource.role).getD "source_readonly", root, true⟩)

def selectByPath (request : ResolveRequest) (text : String) :
    Except String (Option (Selected Path)) :=
  match resolver.paths.resolve text with
  | none => .error "OSError"
  | some path =>
    match resolver.longestMatch path with
    | some entry => .ok (some (ofEntry entry))
    | none =>
      match resolver.scopeForPath request.localResources path with
      | some resource => resolver.ofResource resource
      | none => .ok none

def selectById (request : ResolveRequest) (workspaceId : String) :
    Option (Except String (Option (Selected Path))) :=
  match resolver.entries.find? (·.workspaceId = workspaceId) with
  | some entry => some (.ok (some (ofEntry entry)))
  | none => (localResourceById request.localResources workspaceId).map resolver.ofResource

def select (request : ResolveRequest) : Except String (Option (Selected Path)) :=
  match (given request.workspaceId).bind (resolver.selectById request) with
  | some selected => selected
  | none =>
    match resolver.explicitPath request with
    | some text => resolver.selectByPath request text
    | none => .ok none

def resolveChild (root : Path) (request : ResolveRequest) : Option Path :=
  let candidate :=
    match given request.relativePath with
    | some relative =>
      if resolver.paths.isAbsolute relative then resolver.paths.resolve relative
      else resolver.paths.resolveIn root relative
    | none =>
      match given request.pathRef with
      | some path => resolver.paths.resolve path
      | none => resolver.paths.resolveIn root ""
  candidate.filter fun path => resolver.paths.isRelativeTo path root

def isDenied : Bool :=
  entry.role = some "forbidden" || entry.role = some "protected"

def denyOverride (path : Path) : Option (WorkspaceEntry Path) :=
  (resolver.entries.filter fun entry => isDenied entry && resolver.Contains entry path).argmax
    resolver.rootLength

def roleReason (role access : String) : String :=
  if roleAllows role access then "workspace_allowed"
  else if role = "source_readonly" ∧ (access = "write" ∨ access = "shell") then
    "source_readonly_write_denied"
  else role ++ "_does_not_allow_" ++ access

def resolveAt (request : ResolveRequest) (selected : Selected Path) (path : Path) :
    Except String WorkspaceResolution :=
  match resolver.denyOverride path with
  | some entry => do
    let role ← roleOf (entry.role.getD "forbidden")
    pure { workspaceId := some entry.workspaceId
           workspaceRole := role
           rootPath := some (resolver.paths.text entry.resolvedRoot)
           resolvedPath := some (resolver.paths.text path)
           allowed := false
           reasonCode := "workspace_deny_override"
           evidenceRefs := ["workspace:" ++ entry.workspaceId] }
  | none => do
    let role ← roleOf selected.role
    pure { workspaceId := some selected.workspaceId
           workspaceRole := role
           rootPath := some (resolver.paths.text selected.root)
           resolvedPath := some (resolver.paths.text path)
           allowed := roleAllows selected.role request.access
           reasonCode := roleReason selected.role request.access
           evidenceRefs := ("workspace:" ++ selected.workspaceId) ::
             if selected.missionResource then ["authority:mission_contract.local_resources"]
             else [] }

def resolve (request : ResolveRequest) : Except String WorkspaceResolution := do
  match ← resolver.select request with
  | none =>
    pure { workspaceId := request.workspaceId
           workspaceRole := .unknown
           rootPath := none
           resolvedPath := none
           allowed := false
           reasonCode := if (given request.workspaceId).isSome then "workspace_id_not_registered"
             else "workspace_unknown"
           evidenceRefs := [] }
  | some selected =>
    match resolver.resolveChild selected.root request with
    | none =>
      let role ← roleOf selected.role
      pure { workspaceId := some selected.workspaceId
             workspaceRole := role
             rootPath := some (resolver.paths.text selected.root)
             resolvedPath := none
             allowed := false
             reasonCode := "path_traversal_or_outside_workspace"
             evidenceRefs := [] }
    | some path => resolver.resolveAt request selected path

def Governs (path : Path) : Prop :=
  entry ∈ resolver.entries ∧ resolver.Contains entry path ∧
    ∀ other ∈ resolver.entries, resolver.Contains other path →
      resolver.rootLength other ≤ resolver.rootLength entry

/-- An access that is allowed stays in the selected root, touches nothing forbidden or
protected, and is one that the closest registered role allows. -/
def UsesClosestRole (request : ResolveRequest) : Prop :=
  ∀ resolution, resolver.resolve request = .ok resolution → resolution.allowed = true →
    ∃ selected path, resolver.select request = .ok (some selected) ∧
      resolver.resolveChild selected.root request = some path ∧
      resolution.resolvedPath = some (resolver.paths.text path) ∧
      resolver.paths.isRelativeTo path selected.root = true ∧
      (∀ entry ∈ resolver.entries, resolver.Contains entry path → isDenied entry = false) ∧
      ∀ entry, resolver.Governs entry path →
        roleAllows (entryRole entry) request.access = true

/-- The selected role allows the access, but a registered workspace that is closest to the path
has a role that does not, and is neither forbidden nor protected. The selected one need not be
closest where the request names it, or a mission resource, by its identifier, or where it gives a
relative path beside a path; and two may be closest. -/
def IsShadowed (request : ResolveRequest) : Prop :=
  ∃ selected path, resolver.select request = .ok (some selected) ∧
    resolver.resolveChild selected.root request = some path ∧
    roleAllows selected.role request.access = true ∧
    (∀ entry ∈ resolver.entries, resolver.Contains entry path → isDenied entry = false) ∧
    ∃ entry, resolver.Governs entry path ∧ roleAllows (entryRole entry) request.access = false

variable {resolver} {request : ResolveRequest}

theorem denyOverride_eq_none_iff {path : Path} : resolver.denyOverride path = none ↔
    ∀ entry ∈ resolver.entries, resolver.Contains entry path → isDenied entry = false := by
  rw [denyOverride, argmax_eq_none, filter_eq_nil_iff]
  refine forall₂_congr fun entry _ => ?_
  by_cases hcontains : resolver.Contains entry path <;> simp [hcontains]

theorem roleOf_of_roleAllows {role access : String} (h : roleAllows role access = true) :
    ∃ known, roleOf role = .ok known := by
  have hrole : role ∈ ["source_readonly", "target_mutable", "system_mutable"] := by
    rw [roleAllows] at h
    split at h
    · cases h
    split at h
    · simpa using h
    split at h
    · simp only [contains_cons, contains_nil, Bool.or_false, Bool.or_eq_true, beq_iff_eq] at h
      rcases h with rfl | rfl <;> simp
    split at h
    · simp only [contains_cons, contains_nil, Bool.or_false, Bool.or_eq_true, beq_iff_eq] at h
      rcases h with rfl | rfl <;> simp
    · cases h
  simp only [mem_cons, not_mem_nil, or_false] at hrole
  rcases hrole with rfl | rfl | rfl
  · exact ⟨.sourceReadonly, rfl⟩
  · exact ⟨.targetMutable, rfl⟩
  · exact ⟨.systemMutable, rfl⟩

/-- What is allowed was selected, by its own role, and nothing around it denies. -/
theorem selected_of_allowed {resolution : WorkspaceResolution}
    (h : resolver.resolve request = .ok resolution) (hallowed : resolution.allowed = true) :
    ∃ selected path, resolver.select request = .ok (some selected) ∧
      resolver.resolveChild selected.root request = some path ∧
      roleAllows selected.role request.access = true ∧
      (∀ entry ∈ resolver.entries, resolver.Contains entry path → isDenied entry = false) ∧
      resolution.resolvedPath = some (resolver.paths.text path) := by
  rw [resolve] at h
  cases hselect : resolver.select request with
  | error e =>
    rw [hselect] at h
    cases h
  | ok found =>
    rw [hselect] at h
    cases found with
    | none =>
      cases h
      cases hallowed
    | some selected =>
      change (match resolver.resolveChild selected.root request with
        | none => _
        | some path => resolver.resolveAt request selected path) = _ at h
      cases hchild : resolver.resolveChild selected.root request with
      | none =>
        rw [hchild] at h
        cases hrole : roleOf selected.role with
        | error e =>
          rw [hrole] at h
          cases h
        | ok role =>
          rw [hrole] at h
          cases h
          cases hallowed
      | some path =>
        rw [hchild] at h
        change resolver.resolveAt request selected path = _ at h
        rw [resolveAt] at h
        cases hdeny : resolver.denyOverride path with
        | some entry =>
          rw [hdeny] at h
          dsimp only at h
          cases hrole : roleOf (entry.role.getD "forbidden") with
          | error e =>
            rw [hrole] at h
            cases h
          | ok role =>
            rw [hrole] at h
            cases h
            cases hallowed
        | none =>
          rw [hdeny] at h
          dsimp only at h
          cases hrole : roleOf selected.role with
          | error e =>
            rw [hrole] at h
            cases h
          | ok role =>
            rw [hrole] at h
            cases h
            exact ⟨selected, path, rfl, hchild, hallowed, denyOverride_eq_none_iff.mp hdeny, rfl⟩

theorem resolve_of_selected {selected : Selected Path} {path : Path}
    (hselect : resolver.select request = .ok (some selected))
    (hchild : resolver.resolveChild selected.root request = some path)
    (hallows : roleAllows selected.role request.access = true)
    (hdeny : ∀ entry ∈ resolver.entries, resolver.Contains entry path → isDenied entry = false) :
    ∃ resolution, resolver.resolve request = .ok resolution ∧ resolution.allowed = true := by
  obtain ⟨role, hrole⟩ := roleOf_of_roleAllows hallows
  have hresolve : resolver.resolve request = resolver.resolveAt request selected path := by
    rw [resolve, hselect]
    change (match resolver.resolveChild selected.root request with
      | none => _
      | some path => resolver.resolveAt request selected path) = _
    rw [hchild]
  rw [hresolve, resolveAt, denyOverride_eq_none_iff.mpr hdeny, hrole]
  exact ⟨_, rfl, hallows⟩

/-- An access that is allowed is one that the closest registered role allows, unless a
registered workspace nested in the selected one has a role that does not. -/
theorem uses_closest_role_iff (resolver : WorkspaceResolver Path) (request : ResolveRequest) :
    resolver.UsesClosestRole request ↔ ¬resolver.IsShadowed request := by
  constructor
  · rintro hclosest ⟨selected, path, hselect, hchild, hallows, hdeny, entry, hgoverns, hrefuses⟩
    obtain ⟨resolution, hresolve, hallowed⟩ := resolve_of_selected hselect hchild hallows hdeny
    obtain ⟨selected', path', hselect', hchild', -, -, -, hcloser⟩ :=
      hclosest resolution hresolve hallowed
    have hselected : selected' = selected := by
      rw [hselect] at hselect'
      cases hselect'
      rfl
    have hpath : path' = path := by
      rw [hselected, hchild] at hchild'
      cases hchild'
      rfl
    have hrole := hcloser entry (hpath ▸ hgoverns)
    rw [hrefuses] at hrole
    cases hrole
  · intro hnot resolution hresolve hallowed
    obtain ⟨selected, path, hselect, hchild, hallows, hdeny, hresolved⟩ :=
      selected_of_allowed hresolve hallowed
    refine ⟨selected, path, hselect, hchild, hresolved, ?_, hdeny, fun entry hgoverns => ?_⟩
    · exact (Option.filter_eq_some_iff.mp hchild).2
    · by_contra hrefuses
      exact hnot ⟨selected, path, hselect, hchild, hallows, hdeny, entry, hgoverns,
        by simpa using hrefuses⟩

end WorkspaceResolver

def pathNames (text : String) : List String :=
  ((text.toList.splitOn '/').filter (· ≠ [])).map String.ofList

/-- Paths without links, home directories and relative parts. -/
def plainPaths : PathServices (List String) where
  resolve text := some (pathNames text)
  resolveIn root text := some (root ++ pathNames text)
  isAbsolute text := "/".toList.isPrefixOf text.toList
  expandAbsolute text := if "/".toList.isPrefixOf text.toList then some text else none
  isRelativeTo path root := root.isPrefixOf path
  text path := "/" ++ "/".intercalate path
  isUnder path root := (pathNames root).isPrefixOf (pathNames path)
  normalLength text := text.length

def nestedResolver : WorkspaceResolver (List String) where
  paths := plainPaths
  entries :=
    [⟨"aipinho_project", some "system_mutable", ["dev", "aipinho"]⟩,
      ⟨"rc2_source_readonly", some "source_readonly", ["dev", "aipinho", "rc2"]⟩]

/-- The outer root is named, and a path in the inner one is asked for. -/
def outerRequest : ResolveRequest where
  workspaceId := some "aipinho_project"
  pathRef := none
  relativePath := some "rc2/notes.txt"
  access := "write"
  localResources := []

/-- The write is allowed, although the closest role is read-only. -/
theorem outer_id_writes_into_readonly : ¬nestedResolver.UsesClosestRole outerRequest := by
  intro hclosest
  have hselect : nestedResolver.select outerRequest =
      .ok (some ⟨"aipinho_project", "system_mutable", ["dev", "aipinho"], false⟩) := rfl
  have hchild : nestedResolver.resolveChild ["dev", "aipinho"] outerRequest =
      some ["dev", "aipinho", "rc2", "notes.txt"] := by decide +kernel
  obtain ⟨resolution, hresolve, hallowed⟩ :=
    WorkspaceResolver.resolve_of_selected hselect hchild rfl (by decide)
  obtain ⟨selected, path, hselect', hchild', -, -, -, hcloser⟩ :=
    hclosest resolution hresolve hallowed
  rw [hselect] at hselect'
  cases hselect'
  rw [hchild] at hchild'
  cases hchild'
  have hgoverns : nestedResolver.Governs
      ⟨"rc2_source_readonly", some "source_readonly", ["dev", "aipinho", "rc2"]⟩
      ["dev", "aipinho", "rc2", "notes.txt"] := by
    refine ⟨by simp [nestedResolver], by decide, ?_⟩
    simp only [nestedResolver, forall_mem_cons]
    exact ⟨fun _ => by decide, fun _ => le_rfl, by simp⟩
  have hrole := hcloser _ hgoverns
  revert hrole
  decide

end AIpinho.Agents
