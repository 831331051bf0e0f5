import AIpinho.Lib.Checks
import AIpinho.Sandbox.FileService
import Mathlib.Data.List.Perm.Subperm

/-!
# What file operations change

Each operation changes the files in the root of its request only, and the records only in what
they say about the progress of a task.
-/

namespace AIpinho.Sandbox

open List Lib

variable {env : SandboxEnv} {s s' : SandboxState} {root : FilePath}

/-- An area changes, and the trash gets something more. -/
structure Touches (env : SandboxEnv) (root : FilePath) (t t' : FileTree Bytes) : Prop where
  /-- What is in neither of them is as before. -/
  elsewhere : ∀ p, ¬root <:+ p → ¬env.directory "trash" <:+ p → t'.at? p = t.at? p
  kept : ∀ p e, ¬root <:+ p → t.at? p = some e → t'.at? p = some e
  isDir : t'.isDir root = true
  wellFormed : t.WellFormed → t'.WellFormed

theorem touches_of_staysIn {t t' : FileTree Bytes} (h : FileTree.StaysIn root t t') :
    Touches env root t t' :=
  ⟨fun p hp _ => h.elsewhere p hp, fun p _ hp hat => (h.elsewhere p hp).trans hat, h.after,
    h.wellFormed⟩

/-- The records are as before, apart from what tasks say about their progress. -/
structure SamePlaces (s s' : SandboxState) : Prop where
  workspaces : s'.workspaces = s.workspaces
  tasks : ∀ id, (s'.tasks id).map (fun task => (task.workspaceId, task.taskRoot)) =
    (s.tasks id).map fun task => (task.workspaceId, task.taskRoot)

theorem SamePlaces.refl (s : SandboxState) : SamePlaces s s := ⟨rfl, fun _ => rfl⟩

def ChangesInRoot (env : SandboxEnv) (s : SandboxState) (request : FileRequest)
    (files : FileTree Bytes) : Prop :=
  ∃ workspace root, s.workspaces request.workspaceId = some workspace ∧
    workspace.role ≠ .readonly ∧ operationRoot s request.workspaceId request.taskId = .ok root ∧
    (s.files.WellFormed → s.files.isDir root = true → Touches env root s.files files)

/-- What an operation for a request comes to: the records are as before, and the files, too, or
they change in the root of the request. -/
structure Works (env : SandboxEnv) (s : SandboxState) (request : FileRequest)
    (s' : SandboxState) : Prop where
  places : SamePlaces s s'
  files : s'.files = s.files ∨ ChangesInRoot env s request s'.files

theorem Works.refl (s : SandboxState) (request : FileRequest) : Works env s request s :=
  ⟨SamePlaces.refl s, Or.inl rfl⟩

variable {request : FileRequest} {files : FileTree Bytes} {operation : String}

theorem Works.of_files (h : ChangesInRoot env s request files) :
    Works env s request { s with files := files } :=
  ⟨⟨rfl, fun _ => rfl⟩, Or.inr h⟩

theorem samePlaces_recordOperation (s : SandboxState) (request : FileRequest)
    (operation : FileOperation) : SamePlaces s (recordOperation s request operation).2 ∧
      (recordOperation s request operation).2.files = s.files := by
  unfold recordOperation
  split
  · exact ⟨SamePlaces.refl s, rfl⟩
  · split
    · exact ⟨SamePlaces.refl s, rfl⟩
    · split
      · rename_i taskId _ _ _ task _ htask
        refine ⟨⟨rfl, fun id => ?_⟩, rfl⟩
        dsimp only
        by_cases hid : id = taskId
        · subst hid
          rw [Function.update_self, htask]
          unfold SandboxTask.afterOperation
          dsimp only [Option.map_some]
          split
          · rfl
          · split <;> rfl
        · rw [Function.update_of_ne hid]
      · exact ⟨SamePlaces.refl s, rfl⟩

theorem Works.record (h : Works env s request s') (operation : FileOperation) :
    Works env s request (recordOperation s' request operation).2 := by
  obtain ⟨hplaces, hfiles⟩ := samePlaces_recordOperation s' request operation
  refine ⟨⟨hplaces.workspaces.trans h.places.workspaces, fun id => ?_⟩, ?_⟩
  · exact (hplaces.tasks id).trans (h.places.tasks id)
  · rw [hfiles]
    exact h.files

theorem resolvePath_ok {workspaceId relativePath : String} {taskId : Option String}
    {path : FilePath} (h : resolvePath env s workspaceId relativePath operation taskId = .ok path) :
    ∃ workspace root, s.workspaces workspaceId = some workspace ∧
      (operation ∉ ["read", "list", "validation", "artifact_export"] → workspace.role ≠ .readonly) ∧
      operationRoot s workspaceId taskId = .ok root ∧
      allowPath env root relativePath operation = none ∧
      path = (pathParts relativePath).reverse ++ root := by
  unfold resolvePath at h
  obtain ⟨workspace, hworkspace, h⟩ := value_bind_ok_iff.mp h
  have hstored : s.workspaces workspaceId = some workspace := by
    unfold getWorkspace at hworkspace
    cases hget : s.workspaces workspaceId with
    | none =>
      rw [hget] at hworkspace
      cases hworkspace
    | some found =>
      rw [hget] at hworkspace
      cases hworkspace
      rfl
  split at h
  · cases h
  · rename_i hrole
    obtain ⟨root, hroot, h⟩ := value_bind_ok_iff.mp h
    cases hallow : allowPath env root relativePath operation with
    | some reason =>
      rw [hallow] at h
      cases h
    | none =>
      rw [hallow] at h
      have heq := Except.ok.inj h
      subst heq
      refine ⟨workspace, root, hstored, ?_, hroot, hallow, ?_⟩
      · intro hoperation hreadonly
        exact hrole ⟨hreadonly, hoperation⟩
      · have hrelative : isAbsolute relativePath = false := by
          cases habsolute : isAbsolute relativePath with
          | false => rfl
          | true =>
            unfold allowPath isRelativePathSafe at hallow
            rw [habsolute] at hallow
            split at hallow
            · cases hallow
            · simp at hallow
        unfold joinPath
        rw [hrelative]
        rfl

theorem changesInRoot_of_resolvePath {relativePath : String} {path : FilePath}
    (h : resolvePath env s request.workspaceId relativePath operation request.taskId = .ok path)
    (hoperation : operation ∉ ["read", "list", "validation", "artifact_export"])
    (hfiles : ∀ root, root <:+ path → s.files.WellFormed → s.files.isDir root = true →
      operationRoot s request.workspaceId request.taskId = .ok root →
      FileTree.StaysIn root s.files files) : ChangesInRoot env s request files := by
  obtain ⟨workspace, root, hworkspace, hrole, hroot, -, rfl⟩ := resolvePath_ok h
  refine ⟨workspace, root, hworkspace, hrole hoperation, hroot, fun hw hdir => ?_⟩
  exact touches_of_staysIn (hfiles root (suffix_append _ _) hw hdir hroot)

theorem works_readFile (request : FileRequest) (operationId : String) :
    Works env s request (readFile env s request operationId).2 := by
  unfold readFile
  split
  · exact Works.refl s request
  · split
    · exact Works.refl s request
    · exact (Works.refl s request).record _

theorem works_writeContent {path : FilePath}
    (h : resolvePath env s request.workspaceId request.relativePath "write" request.taskId =
      .ok path) (operationId type : String) (append : Bool) :
    Works env s request (writeContent env s request operationId type path append).2 := by
  unfold writeContent
  cases hmade : s.files.makeDirs env.limit path.tail with
  | none => exact Works.refl s request
  | some made =>
    dsimp only
    have hparents : ∀ root, root <:+ path → s.files.WellFormed → s.files.isDir root = true →
        FileTree.StaysIn root s.files made :=
      fun root hroot hw hdir => FileTree.staysIn_makeDirs_tail hw hdir hroot hmade
    cases hwritten : made.writeFile env.limit path
        ((if append then (made.content? path).getD [] else []) ++ env.encode request.text) with
    | none =>
      apply Works.of_files
      refine changesInRoot_of_resolvePath h (by decide) fun root hroot hw hdir _ => ?_
      exact hparents root hroot hw hdir
    | some files =>
      apply Works.record
      apply Works.of_files
      refine changesInRoot_of_resolvePath h (by decide) fun root hroot hw hdir _ => ?_
      have hin := hparents root hroot hw hdir
      exact hin.trans (FileTree.staysIn_writeFile hin.after hroot hwritten)

theorem works_writeFile (request : FileRequest) (append : Bool) (operationId : String) :
    Works env s request (writeFile env s request append operationId).2 := by
  unfold writeFile
  cases h : resolvePath env s request.workspaceId request.relativePath "write" request.taskId with
  | error e => exact Works.refl s request
  | ok path =>
    dsimp only
    split
    · exact (Works.refl s request).record _
    · split
      · exact (Works.refl s request).record _
      · exact works_writeContent h _ _ _

theorem works_modifyFile (request : FileRequest) (operationId : String) :
    Works env s request (modifyFile env s request operationId).2 := by
  unfold modifyFile
  cases h : resolvePath env s request.workspaceId request.relativePath "write" request.taskId with
  | error e => exact Works.refl s request
  | ok path =>
    dsimp only
    split
    · exact (Works.refl s request).record _
    · split
      · exact works_writeContent h _ _ _
      · split
        · exact Works.refl s request
        · split
          · exact (Works.refl s request).record _
          · exact works_writeContent h _ _ _

theorem works_mkdir (request : FileRequest) (operationId : String) :
    Works env s request (mkdir env s request operationId).2 := by
  unfold mkdir
  cases h : resolvePath env s request.workspaceId request.relativePath "write" request.taskId with
  | error e => exact Works.refl s request
  | ok path =>
    dsimp only
    cases hmade : s.files.makeDirs env.limit path with
    | none => exact Works.refl s request
    | some files =>
      apply Works.record
      apply Works.of_files
      refine changesInRoot_of_resolvePath h (by decide) fun root hroot _ hdir _ => ?_
      exact FileTree.staysIn_makeDirs hdir hroot hmade

theorem resolveBoth_ok {destination : String} {paths : FilePath × FilePath}
    (h : resolveBoth env s request operation destination = .ok paths) :
    resolvePath env s request.workspaceId request.relativePath operation request.taskId =
        .ok paths.1 ∧
      resolvePath env s request.workspaceId destination "write" request.taskId = .ok paths.2 := by
  unfold resolveBoth at h
  obtain ⟨src, hsrc, h⟩ := value_bind_ok_iff.mp h
  obtain ⟨dst, hdst, h⟩ := value_bind_ok_iff.mp h
  have heq := Except.ok.inj h
  subst heq
  exact ⟨hsrc, hdst⟩

/-- A copy works in its workspace only. -/
theorem works_copy (request : FileRequest) (operationId : String) :
    Works env s request (copy env s request operationId).2 := by
  unfold copy
  split
  · exact (Works.refl s request).record _
  · rename_i destination _
    cases h : resolveBoth env s request "read" destination with
    | error e => exact Works.refl s request
    | ok paths =>
      obtain ⟨src, dst⟩ := paths
      obtain ⟨-, hdst⟩ := resolveBoth_ok h
      dsimp only at hdst ⊢
      cases hmade : s.files.makeDirs env.limit dst.tail with
      | none => exact Works.refl s request
      | some made =>
        have hparents : ∀ root, root <:+ dst → s.files.WellFormed → s.files.isDir root = true →
            FileTree.StaysIn root s.files made :=
          fun root hroot hw hdir => FileTree.staysIn_makeDirs_tail hw hdir hroot hmade
        have hmadeWorks : Works env s request { s with files := made } := by
          apply Works.of_files
          refine changesInRoot_of_resolvePath hdst (by decide) fun root hroot hw hdir _ => ?_
          exact hparents root hroot hw hdir
        dsimp only
        split
        · have hcopied : Works env s request { s with
              files := (made.copyTree env.limit (env.limit + 1) src dst request.overwrite).1 } := by
            apply Works.of_files
            refine changesInRoot_of_resolvePath hdst (by decide) fun root hroot hw hdir _ => ?_
            have hin := hparents root hroot hw hdir
            exact hin.trans (FileTree.staysIn_copyTree hin.after hroot _)
          split
          · exact hcopied.record _
          · exact hcopied
        · split
          · exact hmadeWorks.record _
          · cases hcopied : made.copyFile env.limit src dst with
            | none => exact hmadeWorks
            | some files =>
              apply Works.record
              apply Works.of_files
              refine changesInRoot_of_resolvePath hdst (by decide) fun root hroot hw hdir _ => ?_
              have hin := hparents root hroot hw hdir
              exact hin.trans (FileTree.staysIn_copyFile hin.after hroot hcopied)

/-- A move works in its workspace only. -/
theorem works_move (request : FileRequest) (operationId : String) :
    Works env s request (move env s request operationId).2 := by
  unfold move
  split
  · exact (Works.refl s request).record _
  · rename_i destination _
    cases h : resolveBoth env s request "write" destination with
    | error e => exact Works.refl s request
    | ok paths =>
      obtain ⟨src, dst⟩ := paths
      obtain ⟨hsrc, hdst⟩ := resolveBoth_ok h
      dsimp only at hsrc hdst ⊢
      cases hmade : s.files.makeDirs env.limit dst.tail with
      | none => exact Works.refl s request
      | some made =>
        have hparents : ∀ root, root <:+ dst → s.files.WellFormed → s.files.isDir root = true →
            FileTree.StaysIn root s.files made :=
          fun root hroot hw hdir => FileTree.staysIn_makeDirs_tail hw hdir hroot hmade
        dsimp only
        cases hmoved : made.move env.limit src dst with
        | none =>
          apply Works.of_files
          refine changesInRoot_of_resolvePath hdst (by decide) fun root hroot hw hdir _ => ?_
          exact hparents root hroot hw hdir
        | some files =>
          apply Works.record
          apply Works.of_files
          obtain ⟨workspace, root, hworkspace, hrole, hroot, -, hpath⟩ := resolvePath_ok hdst
          refine ⟨workspace, root, hworkspace, hrole (by decide), hroot, fun hw hdir => ?_⟩
          obtain ⟨-, root', -, -, hroot', -, hpath'⟩ := resolvePath_ok hsrc
          have hsame : root' = root := Except.ok.inj (hroot'.symm.trans hroot)
          have hin : root <:+ dst := hpath ▸ suffix_append _ _
          have hin' : root <:+ src := by
            rw [hpath', hsame]
            exact suffix_append _ _
          have hstays := hparents root hin hw hdir
          exact touches_of_staysIn
            (hstays.trans (FileTree.staysIn_move hstays.after hin' hin hmoved))

theorem toString_injective : Function.Injective fun n : ℕ => toString n := by
  intro m n h
  have hdigits : Nat.toDigits 10 m = Nat.toDigits 10 n := by
    have htexts : (toString m).toList = (toString n).toList := congrArg String.toList h
    have hlist : ∀ k : ℕ, (toString k).toList = Nat.toDigits 10 k := fun _ => Nat.toList_repr
    rwa [hlist, hlist] at htexts
  rw [← Nat.ofDigitChars_ten_toDigits (n := m), hdigits, Nat.ofDigitChars_ten_toDigits]

theorem trashName_injective (name : String) :
    Function.Injective fun counter : ℕ => trashName name (counter + 1) := by
  intro first second h
  have hcounters : toString (first + 1) = toString (second + 1) := by
    have htexts : (stemAndSuffix name).1 ++ "_" ++ toString (first + 1) ++ (stemAndSuffix name).2 =
        (stemAndSuffix name).1 ++ "_" ++ toString (second + 1) ++ (stemAndSuffix name).2 := h
    exact (String.append_right_inj _).mp ((String.append_left_inj _).mp htexts)
  have hnumbers := toString_injective hcounters
  omega

theorem isThere_of_freeTarget {trash : FilePath} {name : String} {rounds counter : ℕ}
    (h : files.isThere (freeTarget files trash name rounds counter) = true) :
    ∀ k ≤ rounds, files.isThere (trashName name (counter + k) :: trash) = true := by
  induction rounds generalizing counter with
  | zero =>
    intro k hk
    rw [Nat.le_zero.mp hk]
    exact h
  | succ rounds ih =>
    unfold freeTarget at h
    split at h
    · rename_i hfirst
      intro k hk
      cases k with
      | zero => exact hfirst
      | succ k =>
        have hrest := ih h k (by omega)
        rwa [Nat.add_assoc, Nat.add_comm 1 k] at hrest
    · rename_i hfirst
      exact absurd h hfirst

theorem freeTarget_free (files : FileTree Bytes) (trash : FilePath) (name : String) :
    ¬files.isThere (freeTarget files trash name (files.length + 1) 0) = true := by
  intro h
  have htaken := isThere_of_freeTarget h
  let paths := (List.range (files.length + 1)).map fun counter =>
    trashName name (counter + 1) :: trash
  have hnodup : paths.Nodup := by
    refine List.Nodup.map ?_ nodup_range
    intro first second hsame
    exact trashName_injective name (List.cons.inj hsame).1
  have hsubset : paths ⊆ files.map Prod.fst := by
    intro path hpath
    obtain ⟨counter, hcounter, rfl⟩ := mem_map.mp hpath
    have hlt := mem_range.mp hcounter
    have hthere := htaken (counter + 1) (by omega)
    rw [Nat.zero_add] at hthere
    obtain ⟨e, hat⟩ := FileTree.isThere_iff.mp hthere
    exact FileTree.mem_keys (cons_ne_nil _ _) hat
  have hlength := (subperm_of_subset hnodup hsubset).length_le
  rw [length_map, length_map, length_range] at hlength
  omega

theorem freeTarget_in_trash (files : FileTree Bytes) (trash : FilePath) (name : String)
    (rounds counter : ℕ) : trash <:+ freeTarget files trash name rounds counter := by
  induction rounds generalizing counter with
  | zero => exact suffix_cons _ _
  | succ rounds ih =>
    unfold freeTarget
    split
    · exact ih _
    · exact suffix_cons _ _

end AIpinho.Sandbox
