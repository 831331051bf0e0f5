import AIpinho.Events.Redaction
import AIpinho.Lib.Runs
import AIpinho.Lib.Table
import Mathlib.Data.List.Sort
import Mathlib.Data.List.DropRight
import Mathlib.Data.Int.Order.Basic

/-!
# Workspace locks

`WorkspaceLockService` keeps the locks of the agents and refuses writes that conflict with them.
Conflicts are found on the redacted texts of paths, which are compared here with the paths that
the agents asked for, over whole histories of locks. The paths of a platform are a parameter.
-/

namespace AIpinho.Agents

open Lib
open AIpinho.Events (redactText redactFields)

/-- What the service uses of `pathlib` and of `str`, and when a path lies in another. -/
structure PathFlavour where
  /-- `str(Path(value).expanduser())`. -/
  text : String → String
  /-- `Path(value).expanduser().is_relative_to(Path(other).expanduser())`. -/
  isRelativeTo : String → String → Bool
  /-- `str.lower`. -/
  lower : String → String

def PathFlavour.Touches (paths : PathFlavour) (left right : String) : Prop :=
  paths.isRelativeTo left right = true ∨ paths.isRelativeTo right left = true

/-- `text.rstrip("\\/")`. -/
def rstripSeparators (text : String) : String :=
  String.ofList (text.toList.rdropWhile fun c => c = '\\' || c = '/')

def PathFlavour.canonicalPath (paths : PathFlavour) (value : String) : String :=
  paths.lower (rstripSeparators (paths.text value))

/-- `text.startswith(start + "\\")`. -/
def continuesWithBackslash (text start : String) : Bool :=
  (start.toList ++ ['\\']).isPrefixOf text.toList

def PathFlavour.pathOverlaps (paths : PathFlavour) (left right : String) : Bool :=
  let leftNorm := paths.canonicalPath left
  let rightNorm := paths.canonicalPath right
  leftNorm = rightNorm || continuesWithBackslash leftNorm rightNorm ||
    continuesWithBackslash rightNorm leftNorm

/-- Two paths with the same canonical text, or one whose text continues that of the other
with a backslash. -/
def PathFlavour.SpelledOver (paths : PathFlavour) (left right : String) : Prop :=
  paths.canonicalPath left = paths.canonicalPath right ∨
    (∃ rest, (paths.canonicalPath left).toList =
      (paths.canonicalPath right).toList ++ '\\' :: rest) ∨
    ∃ rest, (paths.canonicalPath right).toList = (paths.canonicalPath left).toList ++ '\\' :: rest

theorem continuesWithBackslash_iff {text start : String} :
    continuesWithBackslash text start = true ↔
      ∃ rest, text.toList = start.toList ++ '\\' :: rest := by
  rw [continuesWithBackslash, List.isPrefixOf_iff_prefix]
  constructor
  · rintro ⟨rest, hrest⟩
    exact ⟨rest, by rw [← hrest]; simp⟩
  · rintro ⟨rest, hrest⟩
    exact ⟨rest, by rw [hrest]; simp⟩

theorem PathFlavour.pathOverlaps_iff {paths : PathFlavour} {left right : String} :
    paths.pathOverlaps left right = true ↔ paths.SpelledOver left right := by
  simp only [PathFlavour.pathOverlaps, Bool.or_eq_true, decide_eq_true_eq,
    continuesWithBackslash_iff, PathFlavour.SpelledOver, or_assoc]

def posixParse (value : String) : String × List (List Char) :=
  let slashes := (value.toList.takeWhile (· = '/')).length
  let root := if slashes = 0 then "" else if slashes = 2 then "//" else "/"
  (root, (value.toList.splitOn '/').filter fun part => part ≠ [] && part ≠ ['.'])

/-- `PosixPath(value).expanduser()`, where `home` gives the directory for a part like
`~user`. -/
def posixExpand (home : List Char → String) (value : String) : String × List (List Char) :=
  let path := posixParse value
  match path.1, path.2 with
  | "", ('~' :: user) :: parts =>
    let directory := posixParse (home ('~' :: user))
    (directory.1, directory.2 ++ parts)
  | _, _ => path

/-- `pathlib` on POSIX. -/
def posixFlavour (home : List Char → String) (lower : String → String) : PathFlavour where
  text value :=
    let path := posixExpand home value
    if path.1 = "" ∧ path.2 = [] then "."
    else path.1 ++ String.ofList (List.intercalate ['/'] path.2)
  isRelativeTo left right :=
    let leftPath := posixExpand home left
    let rightPath := posixExpand home right
    leftPath.1 = rightPath.1 && rightPath.2.isPrefixOf leftPath.2
  lower := lower

inductive LockStatus
  | active | released | expired | overridden
  deriving DecidableEq

/-- `WorkspaceLock`, without the bridge task, the scope and the reason, which are only
recorded. -/
structure WorkspaceLock where
  lockId : String
  workspace : String
  ownerAgent : String
  ownerTaskId : Option String
  lockedPaths : List String
  createdAt : ℕ
  /-- When it expires; a missing or unreadable time never comes. -/
  expiresAt : Option ℕ
  releasedAt : Option ℕ
  status : LockStatus
  metadataSanitized : List (String × Json)
  deriving DecidableEq

/-- `WorkspaceLockCreateRequest`. -/
structure LockCreateRequest where
  workspace : String
  ownerAgent : String
  ownerTaskId : Option String
  lockedPaths : List String
  ttlSeconds : ℤ
  metadataSanitized : List (String × Json)

/-- `WorkspaceLockReleaseRequest` and `WorkspaceLockOverrideRequest`. -/
structure LockEndRequest where
  actorAgent : String
  reason : String

/-- `WriteConflictCheckRequest`. -/
structure WriteRequest where
  workspace : String
  actorAgent : String
  ownerTaskId : Option String
  /-- The paths to write; none for the workspace. -/
  targetPaths : List String

/-- `WriteConflictDecision`. -/
structure WriteDecision where
  allowed : Bool
  status : String
  reasonCode : String
  message : String
  conflictingLocks : List WorkspaceLock

abbrev LockStore := Table String WorkspaceLock

/-- The seconds that a lock is made for: a minute at least and a day at most. -/
def LockCreateRequest.ttl (request : LockCreateRequest) : ℕ :=
  (max 60 (min request.ttlSeconds 86400)).toNat

/-- The lock that `create` saves. -/
def LockCreateRequest.made (request : LockCreateRequest) (lockId : String) (now : ℕ) :
    WorkspaceLock :=
  let workspace := redactText request.workspace
  let paths := request.lockedPaths.map redactText
  { lockId := lockId
    workspace := workspace
    ownerAgent := redactText request.ownerAgent
    ownerTaskId := request.ownerTaskId
    lockedPaths := if paths.isEmpty then [workspace] else paths
    createdAt := now
    expiresAt := some (now + request.ttl)
    releasedAt := none
    status := .active
    metadataSanitized := redactFields request.metadataSanitized }

/-- `WorkspaceLockService.create`. -/
def createLock (store : LockStore) (request : LockCreateRequest) (lockId : String) (now : ℕ) :
    LockStore :=
  store.insert lockId (request.made lockId now)

variable (lock : WorkspaceLock)

def WorkspaceLock.isHeld (now : ℕ) : Bool :=
  lock.status = .active && lock.expiresAt.all fun expires => expires > now

/-- `_reconcile_expiration` on one lock. -/
def WorkspaceLock.reconciled (now : ℕ) : WorkspaceLock :=
  if lock.status ≠ .active || lock.isHeld now then lock
  else { lock with status := .expired, releasedAt := some now }

/-- `WorkspaceLockStore.list`: the newest locks first. -/
def listStore (store : LockStore) : List WorkspaceLock :=
  (store.entries.map Prod.snd).insertionSort fun first second => first.createdAt ≥ second.createdAt

/-- The save of `_reconcile_expiration`. -/
def saveReconciled (now : ℕ) (store : LockStore) (lock : WorkspaceLock) : LockStore :=
  if lock.reconciled now = lock then store else store.insert lock.lockId (lock.reconciled now)

def reconcileStore (store : LockStore) (now : ℕ) : LockStore :=
  (listStore store).foldl (saveReconciled now) store

/-- `WorkspaceLockService.list` without inactive locks. -/
def listLocks (store : LockStore) (now : ℕ) : List WorkspaceLock :=
  ((listStore store).map (·.reconciled now)).filter fun lock => lock.status = .active

/-- The lock with its end: the status, the time, and who asked for it and why. -/
def WorkspaceLock.endedAs (status : LockStatus) (word : String) (request : LockEndRequest)
    (now : ℕ) : WorkspaceLock :=
  { lock with
    status := status
    releasedAt := some now
    metadataSanitized :=
      Json.setField (word ++ "_reason") (.str (redactText request.reason))
        (Json.setField (word ++ "_actor") (.str (redactText request.actorAgent))
          lock.metadataSanitized) }

/-- The lock after `release` or `override`: it ends unless it has ended. -/
def WorkspaceLock.ended (status : LockStatus) (word : String) (request : LockEndRequest)
    (now : ℕ) : WorkspaceLock :=
  let lock := lock.reconciled now
  if lock.status ≠ .active then lock else lock.endedAs status word request now

/-- `release` and `override`. A lock that is not there leaves the store as it is. -/
def endLock (status : LockStatus) (word : String) (store : LockStore) (lockId : String)
    (request : LockEndRequest) (now : ℕ) : LockStore :=
  match store.get? lockId with
  | none => store
  | some lock => store.insert lockId (lock.ended status word request now)

/-- `WorkspaceLockService.release`. -/
def releaseLock := endLock .released "release"

/-- `WorkspaceLockService.override`. -/
def overrideLock := endLock .overridden "override"

def WorkspaceLock.isOwn (request : WriteRequest) : Bool :=
  lock.ownerAgent = request.actorAgent && (request.ownerTaskId.getD "" = "" ||
    lock.ownerTaskId.getD "" = "" || lock.ownerTaskId = request.ownerTaskId)

/-- `lock.locked_paths or [lock.workspace]`. -/
def WorkspaceLock.paths : List String :=
  if lock.lockedPaths.isEmpty then [lock.workspace] else lock.lockedPaths

/-- `request.target_paths or [request.workspace]`. -/
def WriteRequest.paths (request : WriteRequest) : List String :=
  if request.targetPaths.isEmpty then [request.workspace] else request.targetPaths

def PathFlavour.conflicts (paths : PathFlavour) (request : WriteRequest) (lock : WorkspaceLock) :
    Bool :=
  paths.pathOverlaps lock.workspace request.workspace && !lock.isOwn request &&
    request.paths.any fun target => lock.paths.any fun locked => paths.pathOverlaps target locked

def PathFlavour.checkWriteConflict (paths : PathFlavour) (store : LockStore)
    (request : WriteRequest) (now : ℕ) : WriteDecision × LockStore :=
  let conflicting := (listLocks store now).filter (paths.conflicts request)
  let decision : WriteDecision :=
    if conflicting.isEmpty then
      ⟨true, "ok", "no_conflict", "Nenhum conflito de escrita detectado.", []⟩
    else ⟨false, "blocked", "workspace_locked_by_other_agent",
      "Workspace possui lock ativo de outro agente ou task.", conflicting⟩
  (decision, reconcileStore store now)

/-- What happens to the locks. -/
inductive LockOp
  | create (request : LockCreateRequest) (lockId : String) (now : ℕ)
  | release (lockId : String) (request : LockEndRequest) (now : ℕ)
  | override (lockId : String) (request : LockEndRequest) (now : ℕ)
  | check (request : WriteRequest) (now : ℕ)

def PathFlavour.lockStep (paths : PathFlavour) (store : LockStore) : LockOp → LockStore
  | .create request lockId now => createLock store request lockId now
  | .release lockId request now => releaseLock store lockId request now
  | .override lockId request now => overrideLock store lockId request now
  | .check request now => (paths.checkWriteConflict store request now).2

def LockStore.empty : LockStore := ⟨[], List.nodup_nil⟩

/-- The store after a history of calls. -/
def PathFlavour.lockRun (paths : PathFlavour) (ops : List LockOp) : LockStore :=
  run paths.lockStep LockStore.empty ops

/-- What a call makes of the lock that is stored under an identifier. -/
def LockOp.onLock (lockId : String) (lock : Option WorkspaceLock) : LockOp → Option WorkspaceLock
  | .create request other now => if other = lockId then some (request.made other now) else lock
  | .release other request now =>
    if other = lockId then lock.map (·.ended .released "release" request now) else lock
  | .override other request now =>
    if other = lockId then lock.map (·.ended .overridden "override" request now) else lock
  | .check _ now => lock.map (·.reconciled now)

/-- The call ends the lock with the given identifier and expiry: it replaces, releases or
overrides it, or it looks at the locks when this one has expired. -/
def LockOp.Ends (lockId : String) (expires : ℕ) : LockOp → Prop
  | .create _ other _ | .release other _ _ | .override other _ _ => other = lockId
  | .check _ now => expires ≤ now

/-- The step creates a lock under the identifier. -/
def LockOp.Creates (lockId : String) : LockOp → Prop
  | .create _ other _ => other = lockId
  | _ => False

/-- The lock was made, and no later call of the history has ended it. -/
def IsOpen (ops : List LockOp) (created : LockCreateRequest) (lockId : String) (since : ℕ) :
    Prop :=
  ∃ before later, ops = before ++ .create created lockId since :: later ∧
    ∀ op ∈ later, ¬op.Ends lockId (since + created.ttl)

/-- A lock is open after the history, and its time has not run out. -/
def Stands (ops : List LockOp) (now : ℕ) (created : LockCreateRequest) : Prop :=
  ∃ lockId since, IsOpen ops created lockId since ∧ now < since + created.ttl

/-- The paths that an agent asks to lock; the workspace if it names none. -/
def LockCreateRequest.paths (created : LockCreateRequest) : List String :=
  if created.lockedPaths.isEmpty then [created.workspace] else created.lockedPaths

/-- The lock is made for the writer's own agent, and not for another one of its tasks. -/
def LockCreateRequest.IsFor (created : LockCreateRequest) (request : WriteRequest) : Prop :=
  redactText created.ownerAgent = request.actorAgent ∧ (request.ownerTaskId.getD "" = "" ∨
    created.ownerTaskId.getD "" = "" ∨ created.ownerTaskId = request.ownerTaskId)

/-- A lock of another agent stands that was asked for on a path that a target equals,
contains or lies in. -/
def PathFlavour.Excluded (paths : PathFlavour) (ops : List LockOp) (request : WriteRequest)
    (now : ℕ) : Prop :=
  ∃ created, Stands ops now created ∧ created.ownerAgent ≠ request.actorAgent ∧
    ∃ locked ∈ created.paths, ∃ target ∈ request.paths, paths.Touches locked target

/-- A lock stands that is not the writer's own, whose redacted workspace is spelled over the
workspace of the request, and one of whose redacted paths is spelled over a target. -/
def PathFlavour.Spelled (paths : PathFlavour) (ops : List LockOp) (request : WriteRequest)
    (now : ℕ) : Prop :=
  ∃ created, Stands ops now created ∧ ¬created.IsFor request ∧
    paths.SpelledOver (redactText created.workspace) request.workspace ∧
      ∃ target ∈ request.paths, ∃ locked ∈ created.paths,
        paths.SpelledOver target (redactText locked)

section

variable {paths : PathFlavour} {store : LockStore} {request : WriteRequest} {now : ℕ}
  {lock lock' lock'' : WorkspaceLock} {created : LockCreateRequest} {lockId : String}
  {ops : List LockOp} {op : LockOp}

theorem WorkspaceLock.reconciled_active_iff :
    (lock.reconciled now).status = .active ↔ lock.isHeld now = true := by
  unfold WorkspaceLock.reconciled
  split
  · rename_i h
    simp only [Bool.or_eq_true, decide_eq_true_eq] at h
    constructor
    · exact fun hactive => h.resolve_left fun hne => hne hactive
    · intro hheld
      simp only [WorkspaceLock.isHeld, Bool.and_eq_true, decide_eq_true_eq] at hheld
      exact hheld.1
  · rename_i h
    simp only [Bool.or_eq_true, not_or] at h
    refine iff_of_false ?_ h.2
    simp

theorem WorkspaceLock.reconciled_of_isHeld (h : lock.isHeld now = true) :
    lock.reconciled now = lock := by
  rw [WorkspaceLock.reconciled, if_pos (by simp [h])]

theorem WorkspaceLock.reconciled_lockId (now : ℕ) :
    (lock.reconciled now).lockId = lock.lockId := by
  unfold WorkspaceLock.reconciled
  split <;> rfl

theorem WorkspaceLock.ended_lockId {status : LockStatus} {word : String}
    {request : LockEndRequest} (now : ℕ) :
    (lock.ended status word request now).lockId = lock.lockId := by
  rw [← lock.reconciled_lockId now]
  unfold WorkspaceLock.ended
  dsimp only
  split <;> rfl

theorem WorkspaceLock.ended_inactive {status : LockStatus} (hstatus : status ≠ .active)
    {word : String} {request : LockEndRequest} :
    (lock.ended status word request now).status ≠ .active := by
  unfold WorkspaceLock.ended
  dsimp only
  split
  · assumption
  · exact hstatus

theorem LockCreateRequest.isHeld_made (since : ℕ) :
    (created.made lockId since).isHeld now = true ↔ now < since + created.ttl := by
  simp [LockCreateRequest.made, WorkspaceLock.isHeld]

theorem LockCreateRequest.made_paths (since : ℕ) :
    (created.made lockId since).paths = created.paths.map redactText := by
  unfold WorkspaceLock.paths LockCreateRequest.paths
  cases hpaths : created.lockedPaths <;> simp [LockCreateRequest.made, hpaths]

theorem LockCreateRequest.made_isOwn (since : ℕ) :
    (created.made lockId since).isOwn request = true ↔ created.IsFor request := by
  simp [LockCreateRequest.made, WorkspaceLock.isOwn, LockCreateRequest.IsFor, or_assoc]

theorem get?_endLock {status : LockStatus} {word : String} {request : LockEndRequest}
    (other : String) : (endLock status word store other request now).get? lockId =
      if other = lockId then (store.get? lockId).map (·.ended status word request now)
      else store.get? lockId := by
  rw [endLock]
  by_cases hid : other = lockId
  · subst hid
    rw [if_pos rfl]
    cases hlock : store.get? other with
    | none => exact hlock
    | some lock => exact Table.get?_insert_self _ _ _
  · rw [if_neg hid]
    cases store.get? other with
    | none => rfl
    | some lock => exact Table.get?_insert_of_ne (Ne.symm hid) _ _

theorem get?_saves {locks : List WorkspaceLock}
    (h : ∀ lock ∈ locks, store.get? lock.lockId = some lock) :
    (locks.foldl (saveReconciled now) store).get? lockId =
      if lockId ∈ locks.map WorkspaceLock.lockId then (store.get? lockId).map (·.reconciled now)
      else store.get? lockId := by
  induction locks using List.reverseRecOn with
  | nil => rfl
  | append_singleton locks lock ih =>
    have hlock := h lock (List.mem_append_right _ (List.mem_singleton_self lock))
    have hbefore := ih fun other hother => h other (List.mem_append_left _ hother)
    rw [List.foldl_append, List.foldl_cons, List.foldl_nil, saveReconciled]
    by_cases hid : lockId = lock.lockId
    · subst hid
      have hmem : lock.lockId ∈ (locks ++ [lock]).map WorkspaceLock.lockId := by simp
      by_cases hkept : lock.reconciled now = lock
      · -- the lock stays as it is, reconciled or not
        rw [if_pos hkept, if_pos hmem, hbefore, hlock, Option.map_some, hkept, ite_self]
      · rw [if_neg hkept, if_pos hmem, Table.get?_insert_self, hlock, Option.map_some]
    · have hmem : (lockId ∈ (locks ++ [lock]).map WorkspaceLock.lockId) =
          (lockId ∈ locks.map WorkspaceLock.lockId) := by simp [hid]
      simp only [hmem, ← hbefore]
      split
      · rfl
      · exact Table.get?_insert_of_ne hid _ _

/-- Looking at the locks reconciles each of them. -/
theorem get?_reconcileStore (h : Table.Keyed WorkspaceLock.lockId store) :
    (reconcileStore store now).get? lockId = (store.get? lockId).map (·.reconciled now) := by
  rw [reconcileStore, get?_saves]
  · split
    · rfl
    · rename_i hnot
      cases hlock : store.get? lockId with
      | none => rfl
      | some lock =>
        have hentry := Table.get?_eq_some_iff.mp hlock
        refine absurd (List.mem_map.mpr ⟨lock, ?_, (h _ hentry).symm⟩) hnot
        rw [listStore, List.mem_insertionSort]
        exact List.mem_map.mpr ⟨_, hentry, rfl⟩
  · intro lock hlock
    rw [listStore, List.mem_insertionSort, List.mem_map] at hlock
    obtain ⟨entry, hentry, rfl⟩ := hlock
    rw [← h entry hentry, Table.get?_eq_some_iff.mpr hentry]

theorem keyed_endLock (h : Table.Keyed WorkspaceLock.lockId store) {status : LockStatus}
    {word : String} {request : LockEndRequest} :
    Table.Keyed WorkspaceLock.lockId (endLock status word store lockId request now) := by
  rw [endLock]
  cases hlock : store.get? lockId with
  | none => exact h
  | some lock =>
    have hid : lockId = (lock.ended status word request now).lockId :=
      (h _ (Table.get?_eq_some_iff.mp hlock)).trans (lock.ended_lockId now).symm
    dsimp only
    rw [hid]
    exact h.insert _

/-- Each lock is stored under its own identifier. -/
theorem keyed_lockStep (h : Table.Keyed WorkspaceLock.lockId store) (op : LockOp) :
    Table.Keyed WorkspaceLock.lockId (paths.lockStep store op) := by
  cases op with
  | create request lockId now => exact h.insert (request.made lockId now)
  | release lockId request now => exact keyed_endLock h
  | override lockId request now => exact keyed_endLock h
  | check request now =>
    refine List.foldlRecOn (listStore store) _
      (motive := fun after : LockStore => Table.Keyed WorkspaceLock.lockId after) h ?_
    intro after hafter other _
    rw [saveReconciled]
    split
    · exact hafter
    · rw [← other.reconciled_lockId now]
      exact hafter.insert _

theorem keyed_lockRun (ops : List LockOp) :
    Table.Keyed WorkspaceLock.lockId (paths.lockRun ops) :=
  run_always (P := fun store : LockStore => Table.Keyed WorkspaceLock.lockId store)
    (fun _ op h => keyed_lockStep h op) (fun _ h => absurd h List.not_mem_nil) ops

theorem get?_lockStep (h : Table.Keyed WorkspaceLock.lockId store) (op : LockOp) :
    (paths.lockStep store op).get? lockId = op.onLock lockId (store.get? lockId) := by
  cases op with
  | create request other now =>
    rw [PathFlavour.lockStep, createLock, LockOp.onLock]
    split
    · rename_i hid
      subst hid
      exact Table.get?_insert_self _ _ _
    · rename_i hid
      exact Table.get?_insert_of_ne (Ne.symm hid) _ _
  | release other request now => exact get?_endLock other
  | override other request now => exact get?_endLock other
  | check request now => exact get?_reconcileStore h

theorem get?_lockRun_append (op : LockOp) : (paths.lockRun (ops ++ [op])).get? lockId =
    op.onLock lockId ((paths.lockRun ops).get? lockId) := by
  rw [PathFlavour.lockRun, run_append]
  exact get?_lockStep (keyed_lockRun ops) op

theorem onLock_made {since : ℕ} (h : ¬op.Ends lockId (since + created.ttl)) :
    op.onLock lockId (some (created.made lockId since)) = some (created.made lockId since) := by
  cases op with
  | create | release | override => exact if_neg h
  | check request now =>
    have hheld : (created.made lockId since).isHeld now = true :=
      (created.isHeld_made since).mpr (not_le.mp h)
    rw [LockOp.onLock, Option.map_some, WorkspaceLock.reconciled_of_isHeld hheld]

theorem get?_of_isOpen {since : ℕ} (h : IsOpen ops created lockId since) :
    (paths.lockRun ops).get? lockId = some (created.made lockId since) := by
  obtain ⟨before, later, rfl, hlater⟩ := h
  rw [PathFlavour.lockRun, run_append]
  refine (run_of_forall (P := fun store : LockStore => Table.Keyed WorkspaceLock.lockId store ∧
    store.get? lockId = some (created.made lockId since)) ?_
    ⟨keyed_lockStep (keyed_lockRun before) (.create created lockId since),
      Table.get?_insert_self _ _ _⟩ hlater).2
  rintro store op ⟨hkeyed, hlock⟩ hop
  exact ⟨keyed_lockStep hkeyed op, by rw [get?_lockStep hkeyed, hlock, onLock_made hop]⟩

theorem IsOpen.extend {since : ℕ} (h : IsOpen ops created lockId since)
    (hop : ¬op.Ends lockId (since + created.ttl)) : IsOpen (ops ++ [op]) created lockId since := by
  obtain ⟨before, later, rfl, hlater⟩ := h
  refine ⟨before, later ++ [op], by simp, ?_⟩
  rw [List.forall_mem_append, List.forall_mem_singleton]
  exact ⟨hlater, hop⟩

/-- The active locks of a history are those that it made and left open. -/
theorem isOpen_of_active (h : (paths.lockRun ops).get? lockId = some lock)
    (hactive : lock.status = .active) :
    ∃ created since, lock = created.made lockId since ∧ IsOpen ops created lockId since := by
  induction ops using List.reverseRecOn generalizing lock with
  | nil => cases h
  | append_singleton ops op ih =>
    rw [get?_lockRun_append] at h
    cases op with
    | create request other now =>
      rw [LockOp.onLock] at h
      split at h
      · rename_i hid
        subst hid
        cases h
        exact ⟨request, now, rfl, ops, [], rfl, by simp⟩
      · rename_i hid
        obtain ⟨created, since, hmade, hopen⟩ := ih h hactive
        exact ⟨created, since, hmade, hopen.extend hid⟩
    | release other request now | override other request now =>
      rw [LockOp.onLock] at h
      split at h
      · obtain ⟨stored, -, rfl⟩ := Option.map_eq_some_iff.mp h
        exact absurd hactive (WorkspaceLock.ended_inactive (by decide))
      · rename_i hid
        obtain ⟨created, since, hmade, hopen⟩ := ih h hactive
        exact ⟨created, since, hmade, hopen.extend hid⟩
    | check request now =>
      obtain ⟨stored, hstored, rfl⟩ := Option.map_eq_some_iff.mp h
      have hheld := WorkspaceLock.reconciled_active_iff.mp hactive
      rw [WorkspaceLock.reconciled_of_isHeld hheld] at hactive ⊢
      obtain ⟨created, since, rfl, hopen⟩ := ih hstored hactive
      exact ⟨created, since, rfl, hopen.extend (not_le.mpr ((created.isHeld_made since).mp hheld))⟩

theorem mem_listLocks : lock ∈ listLocks store now ↔
      ∃ lockId, store.get? lockId = some lock ∧ lock.isHeld now = true := by
  simp only [listLocks, listStore, List.mem_filter, List.mem_map, List.mem_insertionSort,
    decide_eq_true_eq]
  constructor
  · rintro ⟨⟨stored, ⟨entry, hentry, rfl⟩, rfl⟩, hactive⟩
    have hheld := WorkspaceLock.reconciled_active_iff.mp hactive
    rw [WorkspaceLock.reconciled_of_isHeld hheld]
    exact ⟨entry.1, Table.get?_eq_some_iff.mpr hentry, hheld⟩
  · rintro ⟨lockId, hget, hheld⟩
    refine ⟨⟨lock, ⟨(lockId, lock), Table.get?_eq_some_iff.mp hget, rfl⟩, ?_⟩, ?_⟩
    · exact WorkspaceLock.reconciled_of_isHeld hheld
    · rw [← WorkspaceLock.reconciled_of_isHeld hheld]
      exact WorkspaceLock.reconciled_active_iff.mpr hheld

/-- The locks that are looked at are those of the history that stand. -/
theorem mem_listLocks_lockRun : lock ∈ listLocks (paths.lockRun ops) now ↔
    ∃ created lockId since, IsOpen ops created lockId since ∧ now < since + created.ttl ∧
      lock = created.made lockId since := by
  rw [mem_listLocks]
  constructor
  · rintro ⟨lockId, hget, hheld⟩
    have hactive := WorkspaceLock.reconciled_active_iff.mpr hheld
    rw [WorkspaceLock.reconciled_of_isHeld hheld] at hactive
    obtain ⟨created, since, rfl, hopen⟩ := isOpen_of_active hget hactive
    exact ⟨created, lockId, since, hopen, (created.isHeld_made since).mp hheld, rfl⟩
  · rintro ⟨created, lockId, since, hopen, hnow, rfl⟩
    exact ⟨lockId, get?_of_isOpen hopen, (created.isHeld_made since).mpr hnow⟩

theorem LockCreateRequest.conflicts_made (since : ℕ) :
    paths.conflicts request (created.made lockId since) = true ↔ ¬created.IsFor request ∧
      paths.SpelledOver (redactText created.workspace) request.workspace ∧
        ∃ target ∈ request.paths, ∃ locked ∈ created.paths,
          paths.SpelledOver target (redactText locked) := by
  have hworkspace : (created.made lockId since).workspace = redactText created.workspace := rfl
  simp only [PathFlavour.conflicts, Bool.and_eq_true, Bool.not_eq_true', ← Bool.not_eq_true,
    created.made_isOwn, List.any_eq_true, created.made_paths, List.mem_map,
    exists_exists_and_eq_and, PathFlavour.pathOverlaps_iff, hworkspace]
  tauto

theorem checkWriteConflict_refused_iff :
    (paths.checkWriteConflict (paths.lockRun ops) request now).1.allowed = false ↔
      paths.Spelled ops request now := by
  have hallowed : (paths.checkWriteConflict (paths.lockRun ops) request now).1.allowed =
      ((listLocks (paths.lockRun ops) now).filter (paths.conflicts request)).isEmpty := by
    simp only [PathFlavour.checkWriteConflict]
    split
    · rename_i hempty
      exact hempty.symm
    · rename_i hempty
      simpa using hempty
  rw [hallowed, ← Bool.not_eq_true, List.isEmpty_iff, List.filter_eq_nil_iff]
  push Not
  constructor
  · rintro ⟨lock, hlock, hconflicts⟩
    obtain ⟨created, lockId, since, hopen, hnow, rfl⟩ := mem_listLocks_lockRun.mp hlock
    exact ⟨created, ⟨lockId, since, hopen, hnow⟩, (created.conflicts_made since).mp hconflicts⟩
  · rintro ⟨created, ⟨lockId, since, hopen, hnow⟩, hspelled⟩
    exact ⟨_, mem_listLocks_lockRun.mpr ⟨created, lockId, since, hopen, hnow, rfl⟩,
      (created.conflicts_made since).mpr hspelled⟩

end

/-- A write to what a live lock of another run excludes is refused. -/
def PathFlavour.LocksExclude (paths : PathFlavour) (ops : List LockOp) (request : WriteRequest)
    (now : ℕ) : Prop :=
  paths.Excluded ops request now →
    (paths.checkWriteConflict (paths.lockRun ops) request now).1.allowed = false

/-- After every history of locks, a write that a lock of another agent excludes is refused
exactly when, if there is such a lock, the text of some lock that stands and is not the
writer's own is spelled over the request. -/
theorem locks_exclude_iff (paths : PathFlavour) (ops : List LockOp) (request : WriteRequest)
    (now : ℕ) : paths.LocksExclude ops request now ↔
      (paths.Excluded ops request now → paths.Spelled ops request now) := by
  rw [PathFlavour.LocksExclude, checkWriteConflict_refused_iff]

def plainPosix : PathFlavour := posixFlavour (fun _ => "/home/user") id

/-- One agent locks `/work`, another wants to write `/work/src`: the write is allowed. -/
theorem nested_posix_write_allowed :
    ¬plainPosix.LocksExclude [.create ⟨"/work", "codex", none, [], 1800, []⟩ "lock_1" 0]
      ⟨"/work", "gemini", none, ["/work/src"]⟩ 10 := by
  intro h
  refine absurd (h ⟨_, ⟨"lock_1", 0, ⟨[], [], rfl, by simp⟩, by decide⟩, by decide, "/work",
    by decide, "/work/src", by decide, Or.inr (by decide)⟩) ?_
  decide

/-- The lock is left, or it was active and its end is recorded: that it expired, or that it
was released or overridden, by whom and why. -/
def WorkspaceLock.EndsAs (lock lock' : WorkspaceLock) : Prop :=
  lock' = lock ∨ lock.status = .active ∧ ∃ now,
    lock' = { lock with status := .expired, releasedAt := some now } ∨
      ∃ request, lock' = lock.endedAs .released "release" request now ∨
        lock' = lock.endedAs .overridden "override" request now

section

variable {paths : PathFlavour} {lock lock' lock'' : WorkspaceLock} {lockId : String} {now : ℕ}

theorem WorkspaceLock.EndsAs.trans (h : lock.EndsAs lock') (h' : lock'.EndsAs lock'') :
    lock.EndsAs lock'' := by
  rcases h with rfl | hended
  · exact h'
  · rcases h' with rfl | ⟨hagain, -⟩
    · exact .inr hended
    · obtain ⟨-, now, rfl | ⟨request, rfl | rfl⟩⟩ := hended <;> cases hagain

theorem WorkspaceLock.endsAs_reconciled (now : ℕ) : lock.EndsAs (lock.reconciled now) := by
  unfold WorkspaceLock.reconciled
  split
  · exact .inl rfl
  · rename_i h
    simp only [Bool.or_eq_true, decide_eq_true_eq, not_or, not_not] at h
    exact .inr ⟨h.1, now, .inl rfl⟩

theorem WorkspaceLock.endsAs_ended {status : LockStatus} {word : String}
    {request : LockEndRequest}
    (hend : ∀ lock : WorkspaceLock, lock.status = .active →
      lock.EndsAs (lock.endedAs status word request now)) :
    lock.EndsAs (lock.ended status word request now) := by
  unfold WorkspaceLock.ended
  dsimp only
  split
  · exact lock.endsAs_reconciled now
  · rename_i hactive
    exact (lock.endsAs_reconciled now).trans (hend _ (not_not.mp hactive))

theorem onLock_endsAs {op : LockOp} (hop : ¬op.Creates lockId) :
    ∃ lock', op.onLock lockId (some lock) = some lock' ∧ lock.EndsAs lock' := by
  cases op with
  | create request other now => exact ⟨lock, if_neg hop, .inl rfl⟩
  | release other request now =>
    rw [LockOp.onLock]
    split
    · exact ⟨_, rfl, WorkspaceLock.endsAs_ended fun _ h => .inr ⟨h, now, .inr ⟨request, .inl rfl⟩⟩⟩
    · exact ⟨lock, rfl, .inl rfl⟩
  | override other request now =>
    rw [LockOp.onLock]
    split
    · exact ⟨_, rfl, WorkspaceLock.endsAs_ended fun _ h => .inr ⟨h, now, .inr ⟨request, .inr rfl⟩⟩⟩
    · exact ⟨lock, rfl, .inl rfl⟩
  | check request now => exact ⟨_, rfl, lock.endsAs_reconciled now⟩

/-- In every history a lock changes at most once: whatever locks are created, released or
overridden and whatever is checked, it is left or it ends, and nothing changes a lock that has
ended but the creation of another one under its identifier. -/
theorem locks_end_once (paths : PathFlavour) (before : List LockOp) {later : List LockOp}
    (hlock : (paths.lockRun before).get? lockId = some lock)
    (hlater : ∀ op ∈ later, ¬op.Creates lockId) :
    ∃ lock', (paths.lockRun (before ++ later)).get? lockId = some lock' ∧ lock.EndsAs lock' := by
  rw [PathFlavour.lockRun, run_append]
  refine (run_of_forall (P := fun store : LockStore => Table.Keyed WorkspaceLock.lockId store ∧
    ∃ lock', store.get? lockId = some lock' ∧ lock.EndsAs lock') ?_
    ⟨keyed_lockRun before, lock, hlock, .inl rfl⟩ hlater).2
  rintro store op ⟨hkeyed, lock', hlock', hends⟩ hop
  obtain ⟨lock'', hnext, hends'⟩ : ∃ lock'', op.onLock lockId (some lock') = some lock'' ∧
      lock'.EndsAs lock'' := onLock_endsAs hop
  exact ⟨keyed_lockStep hkeyed op, lock'', by rw [get?_lockStep hkeyed, hlock', hnext],
    hends.trans hends'⟩

end

/-- A lock that another agent's write finds expired is not released any more. -/
theorem expired_lock_ends_once :
    ∃ lock', (plainPosix.lockRun
      ([.create ⟨"/work", "codex", none, [], 60, []⟩ "lock_1" 0,
        .check ⟨"/work", "gemini", none, []⟩ 70] ++ [.release "lock_1" ⟨"user", "done"⟩ 80])).get?
          "lock_1" = some lock' ∧
      WorkspaceLock.EndsAs
        ⟨"lock_1", "/work", "codex", none, ["/work"], 0, some 60, some 70, .expired, []⟩ lock' :=
  locks_end_once plainPosix _ (by decide) (by simp [LockOp.Creates])

end AIpinho.Agents
