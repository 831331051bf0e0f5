import AIpinho.Sandbox.Export
import AIpinho.Sandbox.Shell

/-!
# Finished sandbox tasks

File operations, commands, exports and the calls on tasks write the status of a task without
regard to the status that is there. A task that is cancelled or completed is to stay so through
file operations and commands.
-/

namespace AIpinho.Sandbox

open Lib Option

/-- What commands and exports use. -/
structure TaskServices where
  shell : ShellServices
  policy : SandboxShellPolicy
  exports : ExportServices

/-- The calls that write the status of a task. A command comes with what becomes of its
process. -/
inductive TaskCall
  | file (call : FileCall)
  /-- `SandboxShellService.run`. -/
  | shell (request : ShellRequest) (commandId : String)
    (process : FileTree Bytes → List String → ProcessOutcome × FileTree Bytes)
  | exportZip (request : ExportRequest) (exportId validationId now : String)
  /-- `cancel_task`. -/
  | cancel (taskId : String)
  /-- `update_task_status`. -/
  | updateStatus (taskId : String) (status : TaskStatus) (evidenceRefs : List String)
    (completed : Bool) (now : String)

def taskStep (env : SandboxEnv) (services : TaskServices) (s : SandboxState) :
    TaskCall → SandboxState
  | .file call => fileStep env s call
  | .shell request commandId process =>
    (runShell env services.shell services.policy process s request commandId).2
  | .exportZip request exportId validationId now =>
    (exportZip env services.exports s request exportId validationId now).2
  | .cancel taskId => (cancelTask s taskId).2
  | .updateStatus taskId status evidenceRefs completed now =>
    (updateTaskStatus s taskId status evidenceRefs completed now).2

def taskStatus (s : SandboxState) (id : String) : Option TaskStatus :=
  (s.tasks id).map SandboxTask.status

def IsFinished (s : SandboxState) (id : String) : Prop :=
  taskStatus s id = some .cancelled ∨ taskStatus s id = some .completed

def TaskCall.IsWork : TaskCall → Prop
  | .file _ | .shell .. => True
  | _ => False

def TaskCall.Validates (env : SandboxEnv) (services : TaskServices) (s : SandboxState)
    (id : String) : TaskCall → Prop
  | .exportZip request .. => request.taskId = some id ∧ ∃ archive manifest,
      buildArchive env services.exports s request = .ok (archive, manifest) ∧
        services.exports.testzip (services.exports.zip archive) = none
  | _ => False

/-- A call keeps finished tasks finished: no file operation and no command makes one running or
failed, and what becomes completed does so by an export that passes its test. -/
structure StaysFinished (env : SandboxEnv) (services : TaskServices) (s : SandboxState)
    (call : TaskCall) : Prop where
  finished : call.IsWork → ∀ id, IsFinished s id →
    taskStatus (taskStep env services s call) id ≠ some .running ∧
      taskStatus (taskStep env services s call) id ≠ some .failed
  completed : ∀ id, taskStatus (taskStep env services s call) id = some .completed →
    taskStatus s id = some .completed ∨ call.Validates env services s id

def succeeded : Except String FileOperation → Bool
  | .ok operation => operation.status = .succeeded
  | .error _ => false

def fileResult (env : SandboxEnv) (s : SandboxState) : FileCall → Except String FileOperation
  | .createWorkspace .. | .createTask .. => .error ""
  | .read request operationId => (readFile env s request operationId).1
  | .write request append operationId => (writeFile env s request append operationId).1
  | .modify request operationId => (modifyFile env s request operationId).1
  | .mkdir request operationId => (mkdir env s request operationId).1
  | .copy request operationId => (copy env s request operationId).1
  | .move request operationId => (move env s request operationId).1
  | .deleteSafe request operationId => (deleteSafe env s request operationId).1

/-- The ways in which a file operation ends: it raises, or it is recorded. -/
inductive Ends (s : SandboxState) (request : FileRequest) : Outcome → Prop
  | raises (e : String) (files : FileTree Bytes) :
    Ends s request (.error e, { s with files := files })
  | records (operation : FileOperation) (files : FileTree Bytes) :
    Ends s request (recordOperation { s with files := files } request operation)

variable {env : SandboxEnv} {s : SandboxState} {request : FileRequest} {operationId : String}

theorem ends_readFile : Ends s request (readFile env s request operationId) := by
  unfold readFile
  split
  · exact .raises _ s.files
  · split
    · exact .raises _ s.files
    · exact .records _ s.files

theorem ends_writeContent {type : String} {path : FilePath} {append : Bool} :
    Ends s request (writeContent env s request operationId type path append) := by
  unfold writeContent
  split
  · exact .raises _ s.files
  · rename_i made _
    dsimp only
    split
    · exact .raises _ made
    · exact .records _ _

theorem ends_writeFile {append : Bool} :
    Ends s request (writeFile env s request append operationId) := by
  unfold writeFile
  split
  · exact .raises _ s.files
  · dsimp only
    split
    · exact .records _ s.files
    · split
      · exact .records _ s.files
      · exact ends_writeContent

theorem ends_modifyFile : Ends s request (modifyFile env s request operationId) := by
  unfold modifyFile
  split
  · exact .raises _ s.files
  · split
    · exact .records _ s.files
    · split
      · exact ends_writeContent
      · split
        · exact .raises _ s.files
        · split
          · exact .records _ s.files
          · exact ends_writeContent

theorem ends_mkdir : Ends s request (mkdir env s request operationId) := by
  unfold mkdir
  split
  · exact .raises _ s.files
  · split
    · exact .raises _ s.files
    · exact .records _ _

theorem ends_copy : Ends s request (copy env s request operationId) := by
  unfold copy
  split
  · exact .records _ s.files
  · split
    · exact .raises _ s.files
    · split
      · exact .raises _ s.files
      · rename_i made _
        split
        · dsimp only
          split
          · exact .records _ _
          · exact .raises _ _
        · split
          · exact .records _ made
          · split
            · exact .raises _ made
            · exact .records _ _

theorem ends_move : Ends s request (move env s request operationId) := by
  unfold move
  split
  · exact .records _ s.files
  · split
    · exact .raises _ s.files
    · split
      · exact .raises _ s.files
      · rename_i made _
        split
        · exact .raises _ made
        · exact .records _ _

theorem ends_deleteSafe : Ends s request (deleteSafe env s request operationId) := by
  unfold deleteSafe
  split
  · exact .raises _ s.files
  · dsimp only
    split
    · exact .raises _ s.files
    · rename_i made _
      split
      · exact .raises _ made
      · exact .records _ _

theorem ends_fileStep {call : FileCall} (h : call.request? = some request) :
    Ends s request (fileResult env s call, fileStep env s call) := by
  cases call <;> cases h
  · exact ends_readFile
  · exact ends_writeFile
  · exact ends_modifyFile
  · exact ends_mkdir
  · exact ends_copy
  · exact ends_move
  · exact ends_deleteSafe

theorem taskStatus_update {tasks : String → Option SandboxTask} {taskId : String}
    {task : SandboxTask} {files : FileTree Bytes} {workspaces : String → Option SandboxWorkspace}
    (id : String) :
    taskStatus ⟨files, workspaces, Function.update tasks taskId (some task)⟩ id =
      if id = taskId then some task.status else (tasks id).map SandboxTask.status := by
  unfold taskStatus
  by_cases hid : id = taskId
  · subst hid
    simp
  · rw [if_neg hid]
    dsimp only
    rw [Function.update_of_ne hid]

theorem afterOperation_status (task : SandboxTask) (type path operationId : String) :
    (task.afterOperation type path operationId).status = .running := by
  unfold SandboxTask.afterOperation
  dsimp only
  split
  · rfl
  · split <;> rfl

theorem recordOperation_cases (s : SandboxState) (request : FileRequest)
    (operation : FileOperation) :
    (∃ e, recordOperation s request operation = (.error e, s)) ∨
    (recordOperation s request operation = (.ok operation, s) ∧
      ∀ id task, operation.status = .succeeded → request.taskId.filter (· ≠ "") = some id →
        s.tasks id ≠ some task) ∨
    ∃ id task, operation.status = .succeeded ∧ request.taskId.filter (· ≠ "") = some id ∧
      s.tasks id = some task ∧ recordOperation s request operation = (.ok operation, { s with
          tasks := Function.update s.tasks id (some (task.afterOperation operation.operationType
            operation.relativePath operation.operationId)) }) := by
  unfold recordOperation
  cases hroot : operationRoot s request.workspaceId request.taskId with
  | error e => exact .inl ⟨e, rfl⟩
  | ok root =>
    right
    dsimp only
    cases htask : request.taskId.filter (· ≠ "") with
    | none => exact .inl ⟨rfl, fun id task _ hid => by cases hid⟩
    | some taskId =>
      dsimp only
      split
      · rename_i task hstatus hget
        exact .inr ⟨taskId, task, hstatus, rfl, hget, rfl⟩
      · rename_i hnot
        refine .inl ⟨rfl, fun id task hstatus hid hget => ?_⟩
        cases hid
        exact hnot task hstatus hget

theorem taskStatus_of_ends {outcome : Outcome} (h : Ends s request outcome) (id : String) :
    taskStatus outcome.2 id =
      if succeeded outcome.1 = true ∧ request.taskId.filter (· ≠ "") = some id ∧
          taskStatus s id ≠ none then some .running
      else taskStatus s id := by
  cases h with
  | raises e files => simp [succeeded, taskStatus]
  | records operation files =>
    rcases recordOperation_cases { s with files := files } request operation with
      ⟨e, heq⟩ | ⟨heq, hnone⟩ | ⟨taskId, task, hstatus, htask, hget, heq⟩
    · rw [heq]
      simp [succeeded, taskStatus]
    · rw [heq, if_neg]
      · rfl
      · rintro ⟨hdone, hid, hthere⟩
        obtain ⟨status, hthere⟩ := ne_none_iff_exists'.mp hthere
        obtain ⟨task, hget, -⟩ := map_eq_some_iff.mp hthere
        exact hnone id task (of_decide_eq_true hdone) hid hget
    · rw [heq, taskStatus_update, afterOperation_status, htask]
      by_cases hid : id = taskId
      · subst hid
        have hstored : s.tasks id = some task := hget
        have hthere : taskStatus s id ≠ none := by simp [taskStatus, hstored]
        rw [if_pos rfl, if_pos ⟨decide_eq_true hstatus, rfl, hthere⟩]
      · rw [if_neg hid, if_neg fun h => hid (Option.some.inj h.2.1).symm]
        rfl

theorem taskStatus_of_creation (env : SandboxEnv) (s : SandboxState) {call : FileCall}
    (h : call.request? = none) (id : String) :
    taskStatus (fileStep env s call) id = taskStatus s id ∨
      taskStatus (fileStep env s call) id = some .created := by
  cases call with
  | createWorkspace name role workspaceId =>
    left
    unfold fileStep createWorkspace
    dsimp only
    split <;> rfl
  | createTask workspaceId title stamp taskId =>
    unfold fileStep createTask
    dsimp only
    split
    · exact .inl rfl
    · split
      · exact .inl rfl
      · split
        · exact .inl rfl
        · rw [taskStatus_update]
          by_cases hid : id = taskId
          · rw [if_pos hid]
            exact .inr rfl
          · rw [if_neg hid]
            exact .inl rfl
  | _ => cases h

def ProcessOutcome.isRaised : ProcessOutcome → Bool
  | .raised _ => true
  | _ => false

def RunsProcess (env : SandboxEnv) (services : TaskServices) (s : SandboxState)
    (request : ShellRequest)
    (process : FileTree Bytes → List String → ProcessOutcome × FileTree Bytes) : Prop :=
  ∃ argv, startedProcess env services.shell services.policy s request = some argv ∧
    (process s.files argv).1.isRaised = false

variable {services : TaskServices} {command : ShellRequest} {commandId : String}
  {process : FileTree Bytes → List String → ProcessOutcome × FileTree Bytes}

theorem runShell_of_started {argv : List String} {made : ShellCommand}
    (h : startedProcess env services.shell services.policy s command = some argv)
    (hmade : commandOf env services.shell services.policy command commandId argv
      (process s.files argv).1 = .ok made) :
    runShell env services.shell services.policy process s command commandId =
      recordCommand { s with files := (process s.files argv).2 } command made := by
  obtain ⟨hdecision, hwords, hne⟩ := startedProcess_eq_some_iff.mp h
  unfold runShell
  rw [hdecision]
  dsimp only
  rw [hwords]
  dsimp only
  rw [if_neg hne, hmade]

theorem runShell_of_raised {argv : List String} {e : String}
    (h : startedProcess env services.shell services.policy s command = some argv)
    (hraised : commandOf env services.shell services.policy command commandId argv
      (process s.files argv).1 = .error e) :
    (runShell env services.shell services.policy process s command commandId).2 =
      { s with files := (process s.files argv).2 } := by
  obtain ⟨hdecision, hwords, hne⟩ := startedProcess_eq_some_iff.mp h
  unfold runShell
  rw [hdecision]
  dsimp only
  rw [hwords]
  dsimp only
  rw [if_neg hne, hraised]

theorem taskStatus_of_runsProcess (commandId : String)
    (h : RunsProcess env services s command process) {id : String}
    (htask : command.taskId.filter (· ≠ "") = some id) (hthere : taskStatus s id ≠ none) :
    taskStatus (runShell env services.shell services.policy process s command commandId).2 id =
        some .running ∨
      taskStatus (runShell env services.shell services.policy process s command commandId).2 id =
        some .failed := by
  obtain ⟨argv, hstarted, hran⟩ := h
  obtain ⟨status, hthere⟩ := ne_none_iff_exists'.mp hthere
  obtain ⟨task, hget, -⟩ := map_eq_some_iff.mp hthere
  have hmade : ∃ made, commandOf env services.shell services.policy command commandId argv
      (process s.files argv).1 = .ok made := by
    cases houtcome : (process s.files argv).1 with
    | completed | timeout => exact ⟨_, rfl⟩
    | raised error =>
      rw [houtcome] at hran
      cases hran
  obtain ⟨made, hmade⟩ := hmade
  rw [runShell_of_started hstarted hmade]
  unfold recordCommand
  rw [htask]
  dsimp only
  rw [hget]
  dsimp only
  rw [taskStatus_update, if_pos rfl, SandboxTask.afterCommand]
  dsimp only
  split
  · exact .inl rfl
  · exact .inr rfl

theorem taskStatus_of_runShell {id : String}
    (h : command.taskId.filter (· ≠ "") = some id → RunsProcess env services s command process →
      taskStatus s id = none) :
    taskStatus (runShell env services.shell services.policy process s command commandId).2 id =
      taskStatus s id := by
  cases hstarted : startedProcess env services.shell services.policy s command with
  | none => rw [runShell_of_not_started process command commandId hstarted]
  | some argv =>
    cases hmade : commandOf env services.shell services.policy command commandId argv
        (process s.files argv).1 with
    | error e =>
      rw [runShell_of_raised hstarted hmade]
      rfl
    | ok made =>
      rw [runShell_of_started hstarted hmade]
      have hran : RunsProcess env services s command process := by
        refine ⟨argv, hstarted, ?_⟩
        cases houtcome : (process s.files argv).1 with
        | completed | timeout => rfl
        | raised error =>
          rw [houtcome] at hmade
          cases hmade
      unfold recordCommand
      cases htask : command.taskId.filter (· ≠ "") with
      | none => rfl
      | some taskId =>
        dsimp only
        cases hget : s.tasks taskId with
        | none => rfl
        | some task =>
          dsimp only
          rw [taskStatus_update, if_neg]
          · rfl
          · rintro rfl
            have hnone := h htask hran
            simp [taskStatus, hget] at hnone

theorem taskStatus_of_exportZip (request : ExportRequest) (exportId validationId now id : String) :
    taskStatus (exportZip env services.exports s request exportId validationId now).2 id =
        taskStatus s id ∨
      taskStatus (exportZip env services.exports s request exportId validationId now).2 id =
        some .failed ∨
      (TaskCall.exportZip request exportId validationId now).Validates env services s id := by
  unfold exportZip
  cases hbuilt : buildArchive env services.exports s request with
  | error e => exact .inl rfl
  | ok built =>
    obtain ⟨archive, manifest⟩ := built
    dsimp only
    split
    · exact .inl rfl
    · split
      · exact .inl rfl
      · split
        · exact .inl rfl
        · rename_i artifact _ _ taskId task hfound
          obtain ⟨id', hid', hget⟩ := bind_eq_some_iff.mp hfound
          obtain ⟨found, hfound, hpair⟩ := map_eq_some_iff.mp hget
          obtain ⟨rfl, rfl⟩ := Prod.mk.inj hpair
          rw [taskStatus_update]
          by_cases hid : id = id'
          · subst hid
            right
            rw [if_pos rfl]
            cases htest : services.exports.testzip (services.exports.zip archive) with
            | none =>
              right
              exact ⟨(filter_eq_some_iff.mp hid').1, archive, manifest, hbuilt, htest⟩
            | some bad =>
              left
              simp [SandboxTask.afterExport, storedExport, htest]
          · rw [if_neg hid]
            exact .inl rfl

/-- Work comes in time: no file operation is done and no process is run for a task that is
finished, and the status `completed` is set only for what is completed or not there. -/
def Timely (env : SandboxEnv) (services : TaskServices) (s : SandboxState) : TaskCall → Prop
  | .file call => succeeded (fileResult env s call) = true → ∀ request,
      call.request? = some request → ∀ id, request.taskId.filter (· ≠ "") = some id →
        ¬IsFinished s id
  | .shell request _ process => RunsProcess env services s request process →
      ∀ id, request.taskId.filter (· ≠ "") = some id → ¬IsFinished s id
  | .updateStatus id status .. => status = .completed →
      taskStatus s id = none ∨ taskStatus s id = some .completed
  | .exportZip .. | .cancel _ => True

theorem IsFinished.isSome {id : String} (h : IsFinished s id) : taskStatus s id ≠ none := by
  rcases h with h | h <;> simp [h]

theorem IsFinished.of_same {id : String} {s' : SandboxState} (h : IsFinished s id)
    (hsame : taskStatus s' id = taskStatus s id) :
    taskStatus s' id ≠ some .running ∧ taskStatus s' id ≠ some .failed := by
  rw [hsame]
  rcases h with h | h <;> simp [h]

theorem taskStatus_cancelTask (taskId id : String) :
    taskStatus (cancelTask s taskId).2 id = taskStatus s id ∨
      taskStatus (cancelTask s taskId).2 id = some .cancelled := by
  unfold cancelTask
  split
  · exact .inl rfl
  · dsimp only
    rw [taskStatus_update]
    by_cases hid : id = taskId
    · rw [if_pos hid]
      exact .inr rfl
    · rw [if_neg hid]
      exact .inl rfl

theorem taskStatus_updateTaskStatus (taskId : String) (status : TaskStatus)
    (evidenceRefs : List String) (completed : Bool) (now id : String) :
    taskStatus (updateTaskStatus s taskId status evidenceRefs completed now).2 id =
      if id = taskId ∧ taskStatus s id ≠ none then some status else taskStatus s id := by
  unfold updateTaskStatus getTask
  cases hget : s.tasks taskId with
  | none =>
    rw [if_neg]
    · rfl
    · rintro ⟨rfl, hthere⟩
      exact hthere (by simp [taskStatus, hget])
  | some task =>
    simp only [Option.elim]
    rw [taskStatus_update]
    by_cases hid : id = taskId
    · subst hid
      simp [taskStatus, hget]
    · rw [if_neg hid, if_neg fun h => hid h.1]
      rfl

theorem staysFinished_file_iff (call : FileCall) :
    StaysFinished env services s (.file call) ↔ Timely env services s (.file call) := by
  constructor
  · intro h hdone request hrequest id hid hfinished
    have hends : Ends s request (fileResult env s call, fileStep env s call) :=
      ends_fileStep hrequest
    have hstatus := taskStatus_of_ends hends id
    rw [if_pos ⟨hdone, hid, hfinished.isSome⟩] at hstatus
    exact (h.finished trivial id hfinished).1 hstatus
  · intro h
    cases hrequest : call.request? with
    | none =>
      constructor
      · intro _ id hfinished
        rcases taskStatus_of_creation env s hrequest id with hsame | hcreated
        · exact hfinished.of_same hsame
        · exact ⟨by simp [taskStep, hcreated], by simp [taskStep, hcreated]⟩
      · intro id hcompleted
        rcases taskStatus_of_creation env s hrequest id with hsame | hcreated
        · exact .inl (hsame ▸ hcompleted)
        · rw [taskStep, hcreated] at hcompleted
          cases hcompleted
    | some request =>
      have hends : Ends s request (fileResult env s call, fileStep env s call) :=
        ends_fileStep hrequest
      have hstatus := taskStatus_of_ends hends
      constructor
      · intro _ id hfinished
        refine hfinished.of_same ((hstatus id).trans (if_neg ?_))
        rintro ⟨hdone, hid, -⟩
        exact h hdone request hrequest id hid hfinished
      · intro id hcompleted
        have hid := hstatus id
        rw [show taskStatus (fileStep env s call) id = some .completed from hcompleted] at hid
        split at hid
        · cases hid
        · exact .inl hid.symm

theorem staysFinished_shell_iff : StaysFinished env services s (.shell command commandId process) ↔
      Timely env services s (.shell command commandId process) := by
  constructor
  · intro h hran id hid hfinished
    rcases taskStatus_of_runsProcess commandId hran hid hfinished.isSome with
      hrunning | hfailed
    · exact (h.finished trivial id hfinished).1 hrunning
    · exact (h.finished trivial id hfinished).2 hfailed
  · intro h
    constructor
    · intro _ id hfinished
      refine hfinished.of_same (taskStatus_of_runShell fun hid hran => ?_)
      exact absurd hfinished (h hran id hid)
    · intro id hcompleted
      by_cases hwrites : command.taskId.filter (· ≠ "") = some id ∧
          RunsProcess env services s command process ∧ taskStatus s id ≠ none
      · obtain ⟨hid, hran, hthere⟩ := hwrites
        rcases taskStatus_of_runsProcess commandId hran hid hthere with
          hstatus | hstatus
        · exact absurd (hcompleted.symm.trans hstatus) (by simp)
        · exact absurd (hcompleted.symm.trans hstatus) (by simp)
      · left
        rw [← hcompleted]
        refine (taskStatus_of_runShell fun hid hran => ?_).symm
        by_contra hthere
        exact hwrites ⟨hid, hran, hthere⟩

theorem staysFinished_iff_timely (call : TaskCall) :
    StaysFinished env services s call ↔ Timely env services s call := by
  cases call with
  | file call => exact staysFinished_file_iff call
  | shell request commandId process => exact staysFinished_shell_iff
  | exportZip request exportId validationId now =>
    refine ⟨fun _ => trivial, fun _ => ⟨False.elim, fun id hcompleted => ?_⟩⟩
    rcases taskStatus_of_exportZip request exportId validationId now id with
      hsame | hfailed | hvalid
    · exact .inl (hsame ▸ hcompleted)
    · exact absurd (hcompleted.symm.trans hfailed) (by simp)
    · exact .inr hvalid
  | cancel taskId =>
    refine ⟨fun _ => trivial, fun _ => ⟨False.elim, fun id hcompleted => ?_⟩⟩
    rcases taskStatus_cancelTask taskId id with hsame | hcancelled
    · exact .inl (hsame ▸ hcompleted)
    · exact absurd (hcompleted.symm.trans hcancelled) (by simp)
  | updateStatus taskId status evidenceRefs completed now =>
    have hstatus := taskStatus_updateTaskStatus (s := s) taskId status evidenceRefs completed now
    constructor
    · rintro h rfl
      by_cases hthere : taskStatus s taskId = none
      · exact .inl hthere
      · have hset := hstatus taskId
        rw [if_pos ⟨rfl, hthere⟩] at hset
        rcases h.completed taskId hset with hbefore | hexport
        · exact .inr hbefore
        · exact hexport.elim
    · intro h
      refine ⟨False.elim, fun id hcompleted => .inl ?_⟩
      have hset := (hstatus id).symm.trans hcompleted
      split at hset
      · rename_i hwritten
        obtain ⟨rfl, hthere⟩ := hwritten
        exact (h (Option.some.inj hset)).resolve_left hthere
      · exact hset

/-- Along a run, finished tasks stay finished exactly if all work comes in time. -/
theorem finished_tasks_stay_iff (calls : List TaskCall) :
    Along (taskStep env services) (StaysFinished env services) s calls ↔
      Along (taskStep env services) (Timely env services) s calls :=
  along_congr (P := fun _ => True) (fun _ call _ => staysFinished_iff_timely call)
    (fun _ _ _ _ => trivial) trivial calls

def noteRequest : FileRequest where
  workspaceId := "sandbox_ws_default"
  taskId := some "task"
  relativePath := "notes.txt"
  content := some "x"

def lateWrite : List TaskCall :=
  [.file (.createTask "sandbox_ws_default" "notes" "1" "task"), .cancel "task",
    .file (.write noteRequest false "operation")]

def bareCompletion : List TaskCall :=
  [.file (.createTask "sandbox_ws_default" "notes" "1" "task"),
    .updateStatus "task" .completed [] true "now"]

def plainTasks : TaskServices where
  shell := rmServices
  policy := sandboxPolicyFile
  exports := plainExport

/-- A cancelled task is running after a late write, and a task is completed without an export. -/
theorem tasks_reopened :
    ¬Along (taskStep plainEnv plainTasks) (StaysFinished plainEnv plainTasks) plainStart
        lateWrite ∧
      ¬Along (taskStep plainEnv plainTasks) (StaysFinished plainEnv plainTasks) plainStart
        bareCompletion := by
  constructor
  · rintro ⟨-, -, h, -⟩
    exact (h.finished trivial "task" (.inl (by decide +kernel))).1 (by decide +kernel)
  · rintro ⟨-, h, -⟩
    rcases h.completed "task" (by decide +kernel) with hbefore | hexport
    · exact absurd hbefore (by decide +kernel)
    · exact hexport

end AIpinho.Sandbox
