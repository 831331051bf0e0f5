import AIpinho.Lib.Runs
import AIpinho.Sandbox.Operations

/-!
# Workspaces keep apart

What an operation changes is in the root of its workspace or task, or in the trash, and the
roots have nothing in common as long as no two names are sanitised to one. A root stays where it
is unless it is itself deleted: `delete_safe` refuses the path `.`, but not its other spellings.
-/

namespace AIpinho.Sandbox

open List Lib

variable {env : SandboxEnv} {s s' : SandboxState} {root : FilePath}

/-- The calls. Each has what the call draws: an identifier, or the end of a name. -/
inductive FileCall
  | createWorkspace (name : String) (role : WorkspaceRole) (id : String)
  | createTask (workspaceId title stamp id : String)
  /-- `read_file`. -/
  | read (request : FileRequest) (operationId : String)
  /-- `write_file`. -/
  | write (request : FileRequest) (append : Bool) (operationId : String)
  /-- `modify_file`. -/
  | modify (request : FileRequest) (operationId : String)
  | mkdir (request : FileRequest) (operationId : String)
  | copy (request : FileRequest) (operationId : String)
  | move (request : FileRequest) (operationId : String)
  | deleteSafe (request : FileRequest) (operationId : String)

def fileStep (env : SandboxEnv) (s : SandboxState) : FileCall → SandboxState
  | .createWorkspace name role id => (createWorkspace env s name role id).2
  | .createTask workspaceId title stamp id => (createTask env s workspaceId title stamp id).2
  | .read request operationId => (readFile env s request operationId).2
  | .write request append operationId => (writeFile env s request append operationId).2
  | .modify request operationId => (modifyFile env s request operationId).2
  | .mkdir request operationId => (mkdir env s request operationId).2
  | .copy request operationId => (copy env s request operationId).2
  | .move request operationId => (move env s request operationId).2
  | .deleteSafe request operationId => (deleteSafe env s request operationId).2

def FileCall.request? : FileCall → Option FileRequest
  | .createWorkspace .. | .createTask .. => none
  | .read request _ | .write request _ _ | .modify request _ | .mkdir request _
  | .copy request _ | .move request _ | .deleteSafe request _ => some request

def FileCall.root? (env : SandboxEnv) (s : SandboxState) : FileCall → Option FilePath
  | .createWorkspace name _ _ => some (safeName env name :: env.directory "projects")
  | .createTask _ title stamp _ =>
    some (taskRootName env title stamp :: env.directory "tasks")
  | .read request _ | .write request _ _ | .modify request _ | .mkdir request _
  | .copy request _ | .move request _ | .deleteSafe request _ =>
    (operationRoot s request.workspaceId request.taskId).toOption

def IsRoot (s : SandboxState) (root : FilePath) : Prop :=
  (∃ id workspace, s.workspaces id = some workspace ∧ workspace.rootPath = root) ∨
    ∃ id task, s.tasks id = some task ∧ task.taskRoot = some root

def BelongsTo (s : SandboxState) (workspaceId : String) (p : FilePath) : Prop :=
  (∃ workspace, s.workspaces workspaceId = some workspace ∧ workspace.rootPath <:+ p) ∨
    ∃ id task root, s.tasks id = some task ∧ task.workspaceId = workspaceId ∧
      task.taskRoot = some root ∧ root <:+ p

/-- A call stays where it belongs. -/
structure Confined (env : SandboxEnv) (s : SandboxState) (call : FileCall) : Prop where
  changed : ∀ p, (fileStep env s call).files.at? p ≠ s.files.at? p →
    (∃ root, call.root? env s = some root ∧ root <:+ p) ∨ env.directory "trash" <:+ p
  roots : ∀ root, IsRoot s root → (fileStep env s call).files.isDir root = true
  trash : ∀ p e, env.directory "trash" <:+ p → s.files.at? p = some e →
    (fileStep env s call).files.at? p = some e
  /-- What belongs to another workspace does not change. -/
  isolated : ∀ id p, BelongsTo s id p →
    (∀ request, call.request? = some request → request.workspaceId ≠ id) →
      (fileStep env s call).files.at? p = s.files.at? p
  /-- What belongs to a workspace that is only read does not change. -/
  readonly : ∀ id workspace p, s.workspaces id = some workspace → workspace.role = .readonly →
    BelongsTo s id p → (fileStep env s call).files.at? p = s.files.at? p

/-- A workspace gets a root that no other has, and what is deleted is not the root itself in a
spelling that `delete_safe` takes. -/
def Separate (env : SandboxEnv) (s : SandboxState) : FileCall → Prop
  | .createWorkspace name _ _ => ∀ id workspace, s.workspaces id = some workspace →
      workspace.rootPath ≠ safeName env name :: env.directory "projects"
  | .deleteSafe request _ => ∀ path, resolvePath env s request.workspaceId request.relativePath
      "delete-safe" request.taskId = .ok path → pathParts request.relativePath ≠ []
  | _ => True

/-- Where roots and the trash are. -/
inductive Area (env : SandboxEnv) : FilePath → Prop
  | default : Area env (env.directory "default")
  /-- The root of a workspace. -/
  | project (name : String) : Area env (name :: env.directory "projects")
  | task (name : String) : Area env (name :: env.directory "tasks")
  | trash : Area env (env.directory "trash")

theorem Area.eq_of_suffix {r r' : FilePath} (h : Area env r) (h' : Area env r')
    (hsuffix : r <:+ r') : r = r' := by
  have hone : ∀ name, ¬name :: env.root <:+ env.root := by
    intro name hin
    have hle := hin.length_le
    rw [length_cons] at hle
    omega
  have htwo : ∀ first second, ¬first :: second :: env.root <:+ env.root := by
    intro first second hin
    have hle := hin.length_le
    rw [length_cons, length_cons] at hle
    omega
  cases h <;> cases h' <;>
    simp_all [SandboxEnv.directory, suffix_cons_iff]

theorem Area.disjoint {r r' p : FilePath} (h : Area env r) (h' : Area env r') (hne : r ≠ r')
    (hr : r <:+ p) : ¬r' <:+ p := by
  intro hr'
  rcases suffix_or_suffix_of_suffix hr hr' with hin | hin
  · exact hne (h.eq_of_suffix h' hin)
  · exact hne (h'.eq_of_suffix h hin).symm

/-- The directories and the roots are there, and roots are different. -/
structure Ready (env : SandboxEnv) (s : SandboxState) : Prop where
  /-- What is there lies in a directory. -/
  wellFormed : s.files.WellFormed
  dirs : ∀ dir ∈ sandboxDirs env, s.files.isDir dir = true
  /-- The roots of workspaces are there, each in its place. -/
  workspaces : ∀ id workspace, s.workspaces id = some workspace →
    s.files.isDir workspace.rootPath = true ∧
      (workspace.rootPath = env.directory "default" ∨
        ∃ name, workspace.rootPath = name :: env.directory "projects")
  tasks : ∀ id task root, s.tasks id = some task → task.taskRoot = some root →
    s.files.isDir root = true ∧ ∃ name, root = name :: env.directory "tasks"
  /-- Different workspaces have different roots. -/
  distinctWorkspaces : ∀ id id' workspace workspace', s.workspaces id = some workspace →
    s.workspaces id' = some workspace' → workspace.rootPath = workspace'.rootPath → id = id'
  distinctTasks : ∀ id id' task task' root, s.tasks id = some task → s.tasks id' = some task' →
    task.taskRoot = some root → task'.taskRoot = some root → id = id'

theorem Ready.ensureSandboxDirs (h : Ready env s) {files : FileTree Bytes}
    (hmade : ensureSandboxDirs env s.files = some files) : files = s.files := by
  have hall : ∀ (dirs : List FilePath) (t t' : FileTree Bytes), (∀ dir ∈ dirs, t.isDir dir = true) →
      dirs.foldlM (FileTree.makeDirs env.limit) t = some t' → t' = t := by
    intro dirs
    induction dirs with
    | nil =>
      intro t t' _ heq
      exact (Option.some.inj heq).symm
    | cons dir dirs ih =>
      intro t t' hdirs heq
      rw [foldlM_cons] at heq
      obtain ⟨made, hfirst, hrest⟩ := Option.bind_eq_some_iff.mp heq
      have hmade := FileTree.makeDirs_of_isDir (hdirs dir mem_cons_self) hfirst
      subst hmade
      exact ih _ _ (fun other hother => hdirs other (mem_cons_of_mem _ hother)) hrest
  exact hall _ _ _ h.dirs hmade

variable {workspaceId : String} {taskId : Option String} {call : FileCall} {request : FileRequest}

theorem operationRoot_cases (h : operationRoot s workspaceId taskId = .ok root) :
    (∃ workspace, s.workspaces workspaceId = some workspace ∧ workspace.rootPath = root) ∨
      ∃ id task, s.tasks id = some task ∧ task.workspaceId = workspaceId ∧
        task.taskRoot = some root := by
  unfold operationRoot getWorkspace getTask at h
  cases hworkspace : s.workspaces workspaceId with
  | none =>
    rw [hworkspace] at h
    cases h
  | some workspace =>
    rw [hworkspace] at h
    dsimp only [Option.elim_some, bind, Except.bind] at h
    split at h
    · exact Or.inl ⟨workspace, rfl, Except.ok.inj h⟩
    · rename_i id _
      cases htask : s.tasks id with
      | none =>
        rw [htask] at h
        cases h
      | some task =>
        rw [htask] at h
        dsimp only [Option.elim_some] at h
        split at h
        · cases h
        · rename_i hsame
          cases hroot : task.taskRoot with
          | none =>
            rw [hroot] at h
            cases h
          | some found =>
            rw [hroot] at h
            cases h
            exact Or.inr ⟨id, task, htask, not_not.mp hsame, hroot⟩

theorem Ready.area (h : Ready env s) (hroot : IsRoot s root) :
    Area env root ∧ root ≠ env.directory "trash" ∧ s.files.isDir root = true := by
  rcases hroot with ⟨id, workspace, hworkspace, rfl⟩ | ⟨id, task, htask, hroot⟩
  · obtain ⟨hdir, hplace | ⟨name, hplace⟩⟩ := h.workspaces id workspace hworkspace
    · rw [hplace] at hdir ⊢
      exact ⟨.default, by simp [SandboxEnv.directory], hdir⟩
    · rw [hplace] at hdir ⊢
      exact ⟨.project name, by simp [SandboxEnv.directory], hdir⟩
  · obtain ⟨hdir, name, rfl⟩ := h.tasks id task root htask hroot
    exact ⟨.task name, by simp [SandboxEnv.directory], hdir⟩

theorem isRoot_of_operationRoot (h : operationRoot s workspaceId taskId = .ok root) :
    IsRoot s root := by
  rcases operationRoot_cases h with ⟨workspace, hworkspace, hroot⟩ | ⟨id, task, htask, -, hroot⟩
  · exact Or.inl ⟨_, workspace, hworkspace, hroot⟩
  · exact Or.inr ⟨id, task, htask, hroot⟩

/-- What is deleted and is not the root is moved to the trash, and the rest stays. -/
theorem works_deleteSafe (h : Ready env s) (request : FileRequest) (operationId : String)
    (hseparate : Separate env s (.deleteSafe request operationId)) :
    Works env s request (deleteSafe env s request operationId).2 := by
  unfold deleteSafe
  cases hpath : resolvePath env s request.workspaceId request.relativePath "delete-safe"
      request.taskId with
  | error e => exact Works.refl s request
  | ok path =>
    obtain ⟨workspace, root, hworkspace, hrole, hroot, -, rfl⟩ := resolvePath_ok hpath
    obtain ⟨harea, hnotTrash, hrootDir⟩ := h.area (isRoot_of_operationRoot hroot)
    have hparts : pathParts request.relativePath ≠ [] := hseparate _ hpath
    let path := (pathParts request.relativePath).reverse ++ root
    let trash := request.workspaceId :: env.directory "trash"
    have hbelow : ¬path <:+ root := by
      intro hin
      have hle := hin.length_le
      have hpos := length_pos_iff.mpr hparts
      rw [length_append, length_reverse] at hle
      omega
    have hnil : path ≠ [] := fun hnil => hbelow (hnil ▸ nil_suffix)
    have hdisjoint : ∀ p, root <:+ p → ¬env.directory "trash" <:+ p :=
      fun p => harea.disjoint .trash hnotTrash
    have htrashIn : env.directory "trash" <:+ trash := suffix_cons _ _
    dsimp only
    cases hmade : (ensureSandboxDirs env s.files).bind (FileTree.makeDirs env.limit · trash) with
    | none => exact Works.refl s request
    | some made =>
      obtain ⟨ensured, hensured, hmade⟩ := Option.bind_eq_some_iff.mp hmade
      have heq := h.ensureSandboxDirs hensured
      subst heq
      have htrashDir : s.files.isDir (env.directory "trash") = true :=
        h.dirs _ (mem_cons_of_mem _ (mem_map_of_mem (by decide)))
      have hstays := FileTree.staysIn_makeDirs htrashDir htrashIn hmade
      have hkept : ∀ p e, s.files.at? p = some e → made.at? p = some e := fun p e =>
        FileTree.at?_of_makeMissing (FileTree.makeMissing_of_makeDirs hmade)
      have hmadeWf := hstays.wellFormed h.wellFormed
      have htouched : ∀ files : FileTree Bytes, files.WellFormed →
          (∀ p, ¬root <:+ p → ¬env.directory "trash" <:+ p → files.at? p = made.at? p) →
          (∀ p e, ¬path <:+ p → made.at? p = some e → files.at? p = some e) →
          Touches env root s.files files := by
        intro files hwf hother hstay
        refine ⟨fun p hp hp' => ?_, fun p e hp hat => ?_, ?_, fun _ => hwf⟩
        · exact (hother p hp hp').trans (hstays.elsewhere p hp')
        · exact hstay p e (fun hin => hp ((suffix_append _ _).trans hin)) (hkept p e hat)
        · rw [FileTree.isDir_iff]
          exact hstay root _ hbelow (hkept root _ (FileTree.isDir_iff.mp hrootDir))
      let target := freeTarget made trash (path.head?.getD "") (made.length + 1) 0
      have hfree : ¬made.isThere target = true := freeTarget_free made trash _
      have hfreeDir : ¬made.isDir target = true :=
        fun hdir => hfree (FileTree.isThere_of_isDir hdir)
      have htarget : env.directory "trash" <:+ target :=
        htrashIn.trans (freeTarget_in_trash made trash _ _ _)
      dsimp only
      cases hmoved : made.move env.limit path target with
      | none =>
        apply Works.of_files
        refine ⟨workspace, root, hworkspace, hrole (by decide), hroot, fun _ _ => ?_⟩
        exact htouched made hmadeWf (fun _ _ _ => rfl) (fun _ _ _ hat => hat)
      | some files =>
        apply Works.record
        apply Works.of_files
        refine ⟨workspace, root, hworkspace, hrole (by decide), hroot, fun _ _ => ?_⟩
        unfold FileTree.move at hmoved
        rw [if_neg hfreeDir] at hmoved
        obtain ⟨hwf, hother, hstay⟩ := FileTree.rename_new hmadeWf hnil hfree hmoved
        refine htouched files hwf (fun p hp hp' => ?_) hstay
        apply hother
        · exact fun hin => hp ((suffix_append _ _).trans hin)
        · exact fun hin => hp' (htarget.trans hin)

theorem Area.eq_of_dir {dir : FilePath} (h : Area env root) (hdir : dir ∈ sandboxDirs env)
    (hin : root <:+ dir) : root = dir := by
  have hle := hin.length_le
  rcases mem_cons.mp hdir with rfl | hdir
  · have hlong : env.root.length < root.length := by
      cases h <;> simp only [SandboxEnv.directory, length_cons] <;> omega
    omega
  · obtain ⟨name, -, rfl⟩ := mem_map.mp hdir
    apply hin.eq_of_length
    cases h <;> simp [SandboxEnv.directory] at hle ⊢

section Touched

variable {files : FileTree Bytes}

theorem Touches.isDir_of (ht : Touches env root s.files files) {p : FilePath}
    (hp : s.files.isDir p = true) (hin : root <:+ p → root = p) : files.isDir p = true := by
  by_cases hroot : root <:+ p
  · rw [← hin hroot]
    exact ht.isDir
  · rw [FileTree.isDir_iff]
    exact ht.kept p _ hroot (FileTree.isDir_iff.mp hp)

theorem Ready.touched (h : Ready env s) (harea : Area env root)
    (ht : Touches env root s.files files) :
    (∀ dir ∈ sandboxDirs env, files.isDir dir = true) ∧ ∀ r, IsRoot s r → files.isDir r = true := by
  constructor
  · intro dir hdir
    exact ht.isDir_of (h.dirs dir hdir) (harea.eq_of_dir hdir)
  · intro r hr
    obtain ⟨hrArea, -, hrDir⟩ := h.area hr
    exact ht.isDir_of hrDir (harea.eq_of_suffix hrArea)

theorem Confined.of_touches {call : FileCall} (h : Ready env s) (harea : Area env root)
    (hnotTrash : root ≠ env.directory "trash") (hroot : call.root? env s = some root)
    (ht : Touches env root s.files (fileStep env s call).files)
    (hisolated : ∀ id p, BelongsTo s id p →
      (∀ request, call.request? = some request → request.workspaceId ≠ id) → ¬root <:+ p)
    (hreadonly : ∀ id workspace p, s.workspaces id = some workspace →
      workspace.role = .readonly → BelongsTo s id p → ¬root <:+ p) :
    Confined env s call := by
  have hbelongs : ∀ id p, BelongsTo s id p → ¬env.directory "trash" <:+ p := by
    rintro id p (⟨workspace, hworkspace, hin⟩ | ⟨taskId, task, r, htask, -, hr, hin⟩)
    · obtain ⟨hrArea, hrTrash, -⟩ := h.area (Or.inl ⟨id, workspace, hworkspace, rfl⟩)
      exact hrArea.disjoint .trash hrTrash hin
    · obtain ⟨hrArea, hrTrash, -⟩ := h.area (Or.inr ⟨taskId, task, htask, hr⟩)
      exact hrArea.disjoint .trash hrTrash hin
  refine ⟨fun p hp => ?_, (h.touched harea ht).2, fun p e hp hat => ?_, fun id p hp hother => ?_,
    fun id workspace p hworkspace hrole hp => ?_⟩
  · by_contra hnot
    rw [not_or] at hnot
    exact hp (ht.elsewhere p (fun hin => hnot.1 ⟨root, hroot, hin⟩) hnot.2)
  · have hout : ¬root <:+ p := fun hin => harea.disjoint .trash hnotTrash hin hp
    exact ht.kept p e hout hat
  · exact ht.elsewhere p (hisolated id p hp hother) (hbelongs id p hp)
  · exact ht.elsewhere p (hreadonly id workspace p hworkspace hrole hp) (hbelongs id p hp)

end Touched

theorem Confined.of_same (h : Ready env s) (hfiles : (fileStep env s call).files = s.files) :
    Confined env s call := by
  constructor
  · intro p hp
    rw [hfiles] at hp
    exact absurd rfl hp
  · intro r hr
    rw [hfiles]
    exact (h.area hr).2.2
  · intro p e _ hat
    rw [hfiles]
    exact hat
  · intro id p _ _
    rw [hfiles]
  · intro id workspace p _ _ _
    rw [hfiles]

theorem Ready.belongs (h : Ready env s) {id : String} {p : FilePath}
    (hroot : operationRoot s workspaceId taskId = .ok root) (hp : BelongsTo s id p)
    (hin : root <:+ p) : workspaceId = id := by
  obtain ⟨harea, -, -⟩ := h.area (isRoot_of_operationRoot hroot)
  have hsame : ∀ r, IsRoot s r → r <:+ p → root = r := by
    intro r hr hrp
    by_contra hne
    exact harea.disjoint (h.area hr).1 hne hin hrp
  rcases hp with ⟨workspace, hworkspace, hrp⟩ | ⟨tid, task, r, htask, htaskWorkspace, hr, hrp⟩
  · have heq := hsame _ (Or.inl ⟨id, workspace, hworkspace, rfl⟩) hrp
    rcases operationRoot_cases hroot with ⟨other, hother, hotherRoot⟩ | ⟨oid, other, hother, -, hor⟩
    · exact h.distinctWorkspaces _ _ _ _ hother hworkspace (hotherRoot.trans heq)
    · obtain ⟨-, name, hname⟩ := h.tasks oid other root hother hor
      obtain ⟨-, hplace | ⟨name', hplace⟩⟩ := h.workspaces id workspace hworkspace
      · rw [heq, hplace] at hname
        simp [SandboxEnv.directory] at hname
      · rw [heq, hplace] at hname
        simp [SandboxEnv.directory] at hname
  · have heq := hsame _ (Or.inr ⟨tid, task, htask, hr⟩) hrp
    obtain ⟨-, name, hname⟩ := h.tasks tid task r htask hr
    rcases operationRoot_cases hroot with
      ⟨other, hother, hotherRoot⟩ | ⟨oid, other, hother, hotherWorkspace, hor⟩
    · obtain ⟨-, hplace | ⟨name', hplace⟩⟩ := h.workspaces _ other hother
      · rw [← heq, ← hotherRoot, hplace] at hname
        simp [SandboxEnv.directory] at hname
      · rw [← heq, ← hotherRoot, hplace] at hname
        simp [SandboxEnv.directory] at hname
    · rw [heq] at hor
      have hids := h.distinctTasks _ _ _ _ _ hother htask hor hr
      subst hids
      rw [hother] at htask
      cases htask
      exact hotherWorkspace.symm.trans htaskWorkspace

theorem Works.confined (h : Ready env s) (hrequest : call.request? = some request)
    (hroot : call.root? env s = (operationRoot s request.workspaceId request.taskId).toOption)
    (hw : Works env s request (fileStep env s call)) : Confined env s call := by
  rcases hw.files with hfiles | ⟨workspace, root, hworkspace, hrole, hop, htouches⟩
  · exact Confined.of_same h hfiles
  · obtain ⟨harea, hnotTrash, hdir⟩ := h.area (isRoot_of_operationRoot hop)
    have ht := htouches h.wellFormed hdir
    rw [hop] at hroot
    refine Confined.of_touches h harea hnotTrash hroot ht ?_ ?_
    · intro id p hp hother hin
      exact hother request hrequest (h.belongs hop hp hin)
    · intro id other p hother hreadonly hp hin
      have hid := h.belongs hop hp hin
      subst hid
      rw [hworkspace] at hother
      cases hother
      exact hrole hreadonly

/-- What holds in every state holds after an operation. -/
theorem Works.ready (h : Ready env s) (hw : Works env s request s') : Ready env s' := by
  obtain ⟨hwf, hdirs, hroots⟩ : s'.files.WellFormed ∧
      (∀ dir ∈ sandboxDirs env, s'.files.isDir dir = true) ∧
      ∀ r, IsRoot s r → s'.files.isDir r = true := by
    rcases hw.files with hfiles | ⟨workspace, root, -, -, hop, htouches⟩
    · rw [hfiles]
      exact ⟨h.wellFormed, h.dirs, fun r hr => (h.area hr).2.2⟩
    · obtain ⟨harea, -, hdir⟩ := h.area (isRoot_of_operationRoot hop)
      have ht := htouches h.wellFormed hdir
      exact ⟨ht.wellFormed h.wellFormed, h.touched harea ht⟩
  have htask : ∀ id task, s'.tasks id = some task → ∃ old, s.tasks id = some old ∧
      old.workspaceId = task.workspaceId ∧ old.taskRoot = task.taskRoot := by
    intro id task htask
    have hplaces := hw.places.tasks id
    rw [htask, Option.map_some] at hplaces
    obtain ⟨old, hold, hpair⟩ := Option.map_eq_some_iff.mp hplaces.symm
    exact ⟨old, hold, congrArg Prod.fst hpair, congrArg Prod.snd hpair⟩
  refine ⟨hwf, hdirs, ?_, ?_, ?_, ?_⟩
  · intro id workspace hworkspace
    rw [hw.places.workspaces] at hworkspace
    exact ⟨hroots _ (Or.inl ⟨id, workspace, hworkspace, rfl⟩),
      (h.workspaces id workspace hworkspace).2⟩
  · intro id task root htask' hroot
    obtain ⟨old, hold, -, hsame⟩ := htask id task htask'
    have hroot' : old.taskRoot = some root := hsame.trans hroot
    exact ⟨hroots _ (Or.inr ⟨id, old, hold, hroot'⟩), (h.tasks id old root hold hroot').2⟩
  · intro id id' workspace workspace' hworkspace hworkspace'
    rw [hw.places.workspaces] at hworkspace hworkspace'
    exact h.distinctWorkspaces id id' workspace workspace' hworkspace hworkspace'
  · intro id id' task task' root htask₁ htask₂ hroot₁ hroot₂
    obtain ⟨old₁, hold₁, -, hsame₁⟩ := htask id task htask₁
    obtain ⟨old₂, hold₂, -, hsame₂⟩ := htask id' task' htask₂
    exact h.distinctTasks id id' old₁ old₂ root hold₁ hold₂ (hsame₁.trans hroot₁)
      (hsame₂.trans hroot₂)

theorem works_of_request (h : Ready env s) (hrequest : call.request? = some request)
    (hseparate : Separate env s call) : Works env s request (fileStep env s call) := by
  cases call with
  | createWorkspace | createTask => cases hrequest
  | read request' operationId =>
    cases hrequest
    exact works_readFile _ _
  | write request' append operationId =>
    cases hrequest
    exact works_writeFile _ _ _
  | modify request' operationId =>
    cases hrequest
    exact works_modifyFile _ _
  | mkdir request' operationId =>
    cases hrequest
    exact works_mkdir _ _
  | copy request' operationId =>
    cases hrequest
    exact works_copy _ _
  | move request' operationId =>
    cases hrequest
    exact works_move _ _
  | deleteSafe request' operationId =>
    cases hrequest
    exact works_deleteSafe h _ _ hseparate

theorem touches_of_makeDirs {name : String} {parent : FilePath} {files : FileTree Bytes}
    (hparent : s.files.isDir parent = true)
    (hmade : s.files.makeDirs env.limit (name :: parent) = some files) :
    Touches env (name :: parent) s.files files := by
  have hmissing := FileTree.makeMissing_of_makeDirs hmade
  have hstays := FileTree.staysIn_makeDirs hparent (suffix_cons _ _) hmade
  refine ⟨fun p hp _ => ?_, fun p e _ hat => ?_, FileTree.isDir_of_makeMissing hmissing,
    hstays.wellFormed⟩
  · rcases FileTree.makeMissing_child hparent hmissing with rfl | ⟨-, rfl⟩
    · rfl
    · rw [FileTree.at?_put (cons_ne_nil _ _), if_neg]
      rintro rfl
      exact hp suffix_rfl
  · exact FileTree.at?_of_makeMissing hmissing hat

theorem Ready.not_belongs (h : Ready env s) (harea : Area env root) (hnew : ¬IsRoot s root)
    {id : String} {p : FilePath} (hp : BelongsTo s id p) : ¬root <:+ p := by
  intro hin
  have hsame : ∀ r, IsRoot s r → ¬r <:+ p := by
    intro r hr
    apply harea.disjoint (h.area hr).1
    · rintro rfl
      exact hnew hr
    · exact hin
  rcases hp with ⟨workspace, hworkspace, hrp⟩ | ⟨taskId, task, r, htask, -, hr, hrp⟩
  · exact hsame _ (Or.inl ⟨id, workspace, hworkspace, rfl⟩) hrp
  · exact hsame _ (Or.inr ⟨taskId, task, htask, hr⟩) hrp

theorem Confined.of_new_root (h : Ready env s) (harea : Area env root)
    (hnotTrash : root ≠ env.directory "trash") (hnew : ¬IsRoot s root)
    (hroot : call.root? env s = some root)
    (ht : Touches env root s.files (fileStep env s call).files) : Confined env s call := by
  have hout : ∀ id p, BelongsTo s id p → ¬root <:+ p := fun _ _ hp => h.not_belongs harea hnew hp
  exact Confined.of_touches h harea hnotTrash hroot ht (fun id p hp _ => hout id p hp)
    (fun id _ p _ _ hp => hout id p hp)

theorem update_eq_some {α : Type} {records : String → Option α} {id id' : String} {new found : α}
    (h : Function.update records id (some new) id' = some found) :
    id' = id ∧ found = new ∨ id' ≠ id ∧ records id' = some found := by
  by_cases hid : id' = id
  · subst hid
    rw [Function.update_self] at h
    exact Or.inl ⟨rfl, (Option.some.inj h).symm⟩
  · rw [Function.update_of_ne hid] at h
    exact Or.inr ⟨hid, h⟩

theorem eq_of_agree_update {α : Type} {records : String → Option α} {id : String} {new : α}
    {A : α → α → Prop}
    (hnew : ∀ id' old, records id' = some old → ¬A new old ∧ ¬A old new)
    (hold : ∀ first second found found', records first = some found →
      records second = some found' → A found found' → first = second)
    {first second : String} {found found' : α}
    (hfound : Function.update records id (some new) first = some found)
    (hfound' : Function.update records id (some new) second = some found')
    (hagree : A found found') : first = second := by
  rcases update_eq_some hfound with ⟨rfl, rfl⟩ | ⟨-, hrecord⟩
  · rcases update_eq_some hfound' with ⟨rfl, -⟩ | ⟨-, hrecord'⟩
    · rfl
    · exact absurd hagree (hnew second found' hrecord').1
  · rcases update_eq_some hfound' with ⟨-, rfl⟩ | ⟨-, hrecord'⟩
    · exact absurd hagree (hnew first found hrecord).2
    · exact hold first second found found' hrecord hrecord' hagree

/-- Creating a workspace writes within its own root only. -/
theorem step_createWorkspace (h : Ready env s) (name : String) (role : WorkspaceRole)
    (id : String) (hseparate : Separate env s (.createWorkspace name role id)) :
    Confined env s (.createWorkspace name role id) ∧
      Ready env (fileStep env s (.createWorkspace name role id)) := by
  let root := safeName env name :: env.directory "projects"
  have harea : Area env root := .project _
  have hnotTrash : root ≠ env.directory "trash" := by simp [root, SandboxEnv.directory]
  have hparent : s.files.isDir (env.directory "projects") = true :=
    h.dirs _ (mem_cons_of_mem _ (mem_map_of_mem (by decide)))
  have hnew : ¬IsRoot s root := by
    rintro (⟨id', workspace, hworkspace, hroot⟩ | ⟨id', task, htask, hroot⟩)
    · exact hseparate id' workspace hworkspace hroot
    · obtain ⟨-, name', hname⟩ := h.tasks id' task root htask hroot
      simp [root, SandboxEnv.directory] at hname
  cases hmade : s.files.makeDirs env.limit root with
  | none =>
    have hsame : fileStep env s (.createWorkspace name role id) = s := by
      unfold fileStep createWorkspace
      have hmade' : s.files.makeDirs env.limit (newWorkspace env name role).rootPath = none := hmade
      dsimp only
      rw [hmade']
    rw [hsame]
    exact ⟨Confined.of_same h (congrArg SandboxState.files hsame), h⟩
  | some files =>
    have ht : Touches env root s.files files := touches_of_makeDirs hparent hmade
    have hstep : fileStep env s (.createWorkspace name role id) = { s with
          files := files
          workspaces := Function.update s.workspaces id (some (newWorkspace env name role)) } := by
      unfold fileStep createWorkspace
      have hmade' : s.files.makeDirs env.limit (newWorkspace env name role).rootPath =
          some files := hmade
      dsimp only
      rw [hmade']
    have hplace : (newWorkspace env name role).rootPath = root := rfl
    obtain ⟨hdirs, hroots⟩ := h.touched harea ht
    constructor
    · refine Confined.of_new_root h harea hnotTrash hnew rfl ?_
      rw [hstep]
      exact ht
    · rw [hstep]
      refine ⟨ht.wellFormed h.wellFormed, hdirs, ?_, ?_, ?_, h.distinctTasks⟩
      · intro id' found hfound
        rcases update_eq_some hfound with ⟨-, rfl⟩ | ⟨-, hold⟩
        · rw [hplace]
          exact ⟨ht.isDir, Or.inr ⟨_, rfl⟩⟩
        · exact ⟨hroots _ (Or.inl ⟨id', found, hold, rfl⟩), (h.workspaces id' found hold).2⟩
      · intro id' task r htask hr
        exact ⟨hroots r (Or.inr ⟨id', task, htask, hr⟩), (h.tasks id' task r htask hr).2⟩
      · intro first second found found' hfound hfound' hsame
        have hother : ∀ id' old, s.workspaces id' = some old →
            (newWorkspace env name role).rootPath ≠ old.rootPath ∧
              old.rootPath ≠ (newWorkspace env name role).rootPath :=
          fun id' old hold => ⟨fun heq => hseparate id' old hold (heq.symm.trans hplace),
            fun heq => hseparate id' old hold (heq.trans hplace)⟩
        exact eq_of_agree_update hother h.distinctWorkspaces hfound hfound' hsame

/-- Creating a task writes within its workspace only. -/
theorem step_createTask (h : Ready env s) (workspaceId title stamp id : String) :
    Confined env s (.createTask workspaceId title stamp id) ∧
      Ready env (fileStep env s (.createTask workspaceId title stamp id)) := by
  let root := taskRootName env title stamp :: env.directory "tasks"
  have harea : Area env root := .task _
  have hnotTrash : root ≠ env.directory "trash" := by simp [root, SandboxEnv.directory]
  have hparent : s.files.isDir (env.directory "tasks") = true :=
    h.dirs _ (mem_cons_of_mem _ (mem_map_of_mem (by decide)))
  by_cases hstep : ∃ files task, s.files.isThere root = false ∧
      s.files.makeDirs env.limit root = some files ∧ task.taskRoot = some root ∧
      fileStep env s (.createTask workspaceId title stamp id) =
        { s with files := files, tasks := Function.update s.tasks id (some task) }
  · obtain ⟨files, task, hthere, hmade, hplace, hstep⟩ := hstep
    have ht : Touches env root s.files files := touches_of_makeDirs hparent hmade
    obtain ⟨hdirs, hroots⟩ := h.touched harea ht
    have hnew : ¬IsRoot s root := by
      intro hroot
      rw [FileTree.isThere_of_isDir (h.area hroot).2.2] at hthere
      cases hthere
    constructor
    · refine Confined.of_new_root h harea hnotTrash hnew rfl ?_
      rw [hstep]
      exact ht
    · rw [hstep]
      refine ⟨ht.wellFormed h.wellFormed, hdirs, ?_, ?_, h.distinctWorkspaces, ?_⟩
      · intro id' workspace hworkspace
        exact ⟨hroots _ (Or.inl ⟨id', workspace, hworkspace, rfl⟩),
          (h.workspaces id' workspace hworkspace).2⟩
      · intro id' found r hfound hr
        rcases update_eq_some hfound with ⟨-, rfl⟩ | ⟨-, hold⟩
        · rw [hplace] at hr
          cases hr
          exact ⟨ht.isDir, _, rfl⟩
        · exact ⟨hroots r (Or.inr ⟨id', found, hold, hr⟩), (h.tasks id' found r hold hr).2⟩
      · intro first second found found' r hfound hfound' hr hr'
        have hother : ∀ id' old, s.tasks id' = some old →
            ¬(task.taskRoot = some r ∧ old.taskRoot = some r) ∧
              ¬(old.taskRoot = some r ∧ task.taskRoot = some r) := by
          intro id' old hold
          have hnone : old.taskRoot = some r → task.taskRoot ≠ some r := by
            intro hplaced hplaced'
            rw [hplace] at hplaced'
            cases hplaced'
            exact hnew (Or.inr ⟨id', old, hold, hplaced⟩)
          exact ⟨fun both => hnone both.2 both.1, fun both => hnone both.1 both.2⟩
        exact eq_of_agree_update
          (A := fun task task' => task.taskRoot = some r ∧ task'.taskRoot = some r) hother
          (fun _ _ _ _ hold hold' both => h.distinctTasks _ _ _ _ _ hold hold' both.1 both.2)
          hfound hfound' ⟨hr, hr'⟩
  · have hsame : fileStep env s (.createTask workspaceId title stamp id) = s := by
      by_contra hne
      apply hstep
      unfold fileStep createTask at hne ⊢
      dsimp only at hne ⊢
      cases hworkspace : getWorkspace s workspaceId with
      | error e =>
        rw [hworkspace] at hne
        exact absurd rfl hne
      | ok workspace =>
        rw [hworkspace] at hne
        dsimp only at hne ⊢
        by_cases hthere : s.files.isThere root = true
        · rw [if_pos hthere] at hne
          exact absurd rfl hne
        · rw [if_neg hthere] at hne ⊢
          cases hmade : s.files.makeDirs env.limit root with
          | none =>
            rw [hmade] at hne
            exact absurd rfl hne
          | some files =>
            have hnotThere : s.files.isThere root = false := (Bool.not_eq_true _).mp hthere
            exact ⟨files, newTask env workspaceId title stamp, hnotThere, rfl, rfl, rfl⟩
    rw [hsame]
    exact ⟨Confined.of_same h (congrArg SandboxState.files hsame), h⟩

def defaultWorkspace (env : SandboxEnv) : SandboxWorkspace where
  name := "default"
  displayName := "Default Sandbox"
  role := .mutable
  rootPath := env.directory "default"

/-- The services have just been started: the directories are there, and so is the default
workspace. -/
structure Started (env : SandboxEnv) (s : SandboxState) : Prop where
  /-- What is there lies in a directory. -/
  wellFormed : s.files.WellFormed
  dirs : ∀ dir ∈ sandboxDirs env, s.files.isDir dir = true
  workspaces : s.workspaces =
    Function.update (fun _ => none) "sandbox_ws_default" (some (defaultWorkspace env))
  tasks : s.tasks = fun _ => none

theorem Started.ready (h : Started env s) : Ready env s := by
  have hdefault : ∀ id workspace, s.workspaces id = some workspace →
      id = "sandbox_ws_default" ∧ workspace = defaultWorkspace env := by
    intro id workspace hworkspace
    rw [h.workspaces] at hworkspace
    rcases update_eq_some hworkspace with hid | ⟨-, hnone⟩
    · exact hid
    · cases hnone
  have htask : ∀ id task, s.tasks id ≠ some task := by
    intro id task htask
    rw [h.tasks] at htask
    cases htask
  refine ⟨h.wellFormed, h.dirs, ?_, ?_, ?_, ?_⟩
  · intro id workspace hworkspace
    obtain ⟨-, rfl⟩ := hdefault id workspace hworkspace
    exact ⟨h.dirs _ (mem_cons_of_mem _ (mem_map_of_mem (by decide))), Or.inl rfl⟩
  · intro id task root hfound
    exact absurd hfound (htask id task)
  · intro id id' workspace workspace' hworkspace hworkspace' _
    exact (hdefault id workspace hworkspace).1.trans (hdefault id' workspace' hworkspace').1.symm
  · intro id id' task task' root hfound
    exact absurd hfound (htask id task)

/-- A call is confined, and what holds in every state is kept, if the roots are separate. -/
theorem step_separate (h : Ready env s) (hseparate : Separate env s call) :
    Confined env s call ∧ Ready env (fileStep env s call) := by
  have hrequest : ∀ request, call.request? = some request →
      call.root? env s = (operationRoot s request.workspaceId request.taskId).toOption →
      Confined env s call ∧ Ready env (fileStep env s call) := by
    intro request hrequest hroot
    have hworks := works_of_request h hrequest hseparate
    exact ⟨hworks.confined h hrequest hroot, hworks.ready h⟩
  cases call with
  | createWorkspace name role id => exact step_createWorkspace h name role id hseparate
  | createTask workspaceId title stamp id => exact step_createTask h workspaceId title stamp id
  | read request operationId => exact hrequest request rfl rfl
  | write request append operationId => exact hrequest request rfl rfl
  | modify request operationId => exact hrequest request rfl rfl
  | mkdir request operationId => exact hrequest request rfl rfl
  | copy request operationId => exact hrequest request rfl rfl
  | move request operationId => exact hrequest request rfl rfl
  | deleteSafe request operationId => exact hrequest request rfl rfl

/-- A system with short paths. -/
def plainEnv : SandboxEnv where
  root := ["sandbox"]
  limit := 8
  isAlnum := Char.isAlphanum
  casefold := id
  encode text := text.toList.map fun c => c.toNat.toUInt8
  sha256 _ := ""

def plainStart : SandboxState where
  files := (sandboxDirs plainEnv).map fun dir => (dir, .dir)
  workspaces := Function.update (fun _ => none) "sandbox_ws_default"
    (some (defaultWorkspace plainEnv))
  tasks _ := none

theorem plainStart_started : Started plainEnv plainStart :=
  ⟨FileTree.wellFormed_of_keys (by decide), by decide, rfl, rfl⟩

def tidyCalls : List FileCall :=
  [.createWorkspace "a b" .mutable "workspace",
    .write { workspaceId := "workspace", relativePath := "notes.txt", content := some "x" } false
      "first",
    .deleteSafe { workspaceId := "workspace", relativePath := "notes.txt" } "second",
    .write { workspaceId := "workspace", relativePath := "notes.txt", content := some "y" } false
      "third",
    .deleteSafe { workspaceId := "workspace", relativePath := "notes.txt" } "fourth"]

example : ((Lib.run (fileStep plainEnv) plainStart tidyCalls).files.isFile
    ["notes_1.txt", "workspace", "trash", "sandbox"]) = true := by decide

end AIpinho.Sandbox
