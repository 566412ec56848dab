import HotAI.Lib.Table

/-! # System tasks and their leases (`model/system_task.go`)

Background work is a row in `system_tasks`; its runner holds the lock of its type, a row in `system_task_locks` with an
expiry time. Each function is a list of database statements, and those of other runners may come between two of them. -/
namespace HotAI.SystemTasks
open HotAI.Lib

inductive Status where
  | pending
  | running
  | succeeded
  | failed
deriving DecidableEq, Repr

def Status.active : Status → Bool
  | .pending | .running => true
  | .succeeded | .failed => false

/-- What `FinishSystemTask` is called with. -/
inductive Outcome where
  | succeeded
  | failed
deriving DecidableEq, Repr

def Outcome.status : Outcome → Status
  | .succeeded => .succeeded
  | .failed => .failed

variable {Runner : Type} [DecidableEq Runner]

structure SystemTask (Runner : Type) where
  taskID : String
  type : String
  status : Status
  activeKey : Option String
  payload : String
  state : String
  result : String
  error : String
  lockedBy : Option Runner
  createdAt : ℤ
  updatedAt : ℤ
deriving DecidableEq, Repr

structure SystemTaskLock (Runner : Type) where
  type : String
  taskID : String
  lockedBy : Runner
  lockedUntil : ℤ
  updatedAt : ℤ
deriving DecidableEq, Repr

structure Store (Runner : Type) where
  tasks : Table (SystemTask Runner) SystemTask.taskID
  locks : Table (SystemTaskLock Runner) SystemTaskLock.type

/-! ## Statements on tasks -/

/-- `UPDATE system_tasks SET … WHERE task_id = ? AND …`, and whether a row was affected. -/
def Store.updateTask (db : Store Runner) (taskID : String) (cond : SystemTask Runner → Bool)
    (set : SystemTask Runner → SystemTask Runner) : Store Runner × Bool :=
  match db.tasks.get taskID with
  | none => (db, false)
  | some task => if cond task then ({ db with tasks := db.tasks.put (set task) }, true) else (db, false)

/-- `INSERT INTO system_tasks`: both the task id and the active key are unique. -/
def Store.createTask (db : Store Runner) (now : ℤ) (taskID type payload state : String) : Store Runner :=
  if db.tasks.rows.any fun task => task.activeKey = some type then db
  else { db with tasks := db.tasks.add ⟨taskID, type, .pending, some type, payload, state, "", "", none, now, now⟩ }

def SystemTask.start (runner : Runner) (now : ℤ) (task : SystemTask Runner) : SystemTask Runner :=
  { task with status := .running, lockedBy := some runner, updatedAt := now }

/-- The last statement of `ClaimSystemTask` that writes. -/
def Store.startTask (db : Store Runner) (now : ℤ) (taskID type : String) (runner : Runner) : Store Runner × Bool :=
  db.updateTask taskID (fun task => task.type = type && task.status = .pending) (SystemTask.start runner now)

def SystemTask.expire (now : ℤ) (task : SystemTask Runner) : SystemTask Runner :=
  { task with status := .failed, activeKey := none, error := "task lease expired", updatedAt := now }

def Store.markSystemTaskLeaseExpired (db : Store Runner) (now : ℤ) (taskID : String) : Store Runner :=
  (db.updateTask taskID (fun task => task.status = .running) (SystemTask.expire now)).1

/-- `EXISTS (SELECT 1 FROM system_task_locks WHERE …)`. -/
def Store.holdsLock (db : Store Runner) (now : ℤ) (taskID : String) (runner : Runner) : Bool :=
  db.locks.rows.any fun lock => lock.taskID = taskID && lock.lockedBy = runner && now ≤ lock.lockedUntil

def Store.ownedBy (db : Store Runner) (now : ℤ) (runner : Runner) (task : SystemTask Runner) : Bool :=
  task.status = .running && task.lockedBy = some runner && db.holdsLock now task.taskID runner

def Store.updateSystemTaskState (db : Store Runner) (now : ℤ) (taskID : String) (runner : Runner) (state : String) :
    Store Runner × Bool :=
  db.updateTask taskID (db.ownedBy now runner) fun task => { task with state := state, updatedAt := now }

def SystemTask.finish (now : ℤ) (outcome : Outcome) (result error : String) (task : SystemTask Runner) : SystemTask Runner :=
  { task with status := outcome.status, activeKey := none, result := result, error := error, updatedAt := now }

/-- The first statement of `FinishSystemTask`. -/
def Store.finishSystemTask (db : Store Runner) (now : ℤ) (taskID : String) (runner : Runner) (outcome : Outcome)
    (result error : String) : Store Runner × Bool :=
  db.updateTask taskID (db.ownedBy now runner) (SystemTask.finish now outcome result error)

/-! ## Statements on locks -/

/-- `DELETE FROM system_task_locks WHERE …`. -/
def Store.deleteLocks (db : Store Runner) (cond : SystemTaskLock Runner → Bool) : Store Runner :=
  { db with
    locks := ⟨db.locks.rows.filter fun lock => !cond lock,
      db.locks.unique.sublist (List.filter_sublist.map SystemTaskLock.type)⟩ }

def Store.releaseSystemTaskLock (db : Store Runner) (taskID : String) (runner : Runner) : Store Runner :=
  db.deleteLocks fun lock => lock.taskID = taskID && lock.lockedBy = runner

def SystemTaskLock.renewed (taskID : String) (runner : Runner) (now lockUntil : ℤ) (lock : SystemTaskLock Runner) :
    SystemTaskLock Runner :=
  if lock.taskID = taskID ∧ lock.lockedBy = runner ∧ now ≤ lock.lockedUntil then
    { lock with lockedUntil := lockUntil, updatedAt := now }
  else lock

def Store.renewSystemTaskLock (db : Store Runner) (now : ℤ) (taskID : String) (runner : Runner) (lockUntil : ℤ) :
    Store Runner :=
  { db with
    locks := db.locks.update (SystemTaskLock.renewed taskID runner now lockUntil) (by
      intro lock
      unfold SystemTaskLock.renewed
      split <;> rfl) }

/-! ## Runners -/

/-- What `ClaimSystemTask` carries between statements; time and lease were taken before the first. -/
structure Claim where
  taskID : String
  type : String
  now : ℤ
  lockUntil : ℤ
deriving DecidableEq, Repr

def Claim.lock (c : Claim) (runner : Runner) : SystemTaskLock Runner := ⟨c.type, c.taskID, runner, c.lockUntil, c.now⟩

inductive Pc (Runner : Type) where
  | idle
  /-- The task was pending; `DB.Create(lock)` comes next. -/
  | acquire (c : Claim)
  /-- There is a lock; it is read next. -/
  | look (c : Claim)
  /-- The lock was that of `existing` and expired; it is taken over next if it still is. -/
  | takeOver (c : Claim) (existing : String)
  /-- The lock was taken from `expired`, whose task is marked next. -/
  | mark (c : Claim) (expired : String)
  | start (c : Claim)
  | release (c : Claim)
  /-- `ExpireStaleSystemTaskLocks` with the locks that are left to do. -/
  | sweep (now : ℤ) (locks : List (SystemTaskLock Runner))
  | sweepDelete (now : ℤ) (lock : SystemTaskLock Runner) (rest : List (SystemTaskLock Runner))
deriving DecidableEq, Repr

structure State (Runner : Type) where
  now : ℤ
  db : Store Runner
  pc : Runner → Pc Runner
  /-- Finished tasks whose lock is still to be released. -/
  finishing : List (String × Runner)

def systemTaskLockTTL : ℤ := 60

inductive Action (Runner : Type) where
  | tick (seconds : ℕ)
  | create (taskID type payload state : String)
  | claim (runner : Runner) (taskID type : String)
  | expireStale (runner : Runner)
  | next (runner : Runner)
  | update (runner : Runner) (taskID state : String)
  | renew (runner : Runner) (taskID : String)
  | finish (runner : Runner) (taskID : String) (outcome : Outcome) (result error : String)
  | releaseFinished (runner : Runner) (taskID : String)
deriving DecidableEq, Repr

def State.go (s : State Runner) (runner : Runner) (db : Store Runner) (pc : Pc Runner) : State Runner :=
  { s with db := db, pc := Function.update s.pc runner pc }

/-- One statement of a runner in the middle of `ClaimSystemTask` or `ExpireStaleSystemTaskLocks`. -/
def advance (s : State Runner) (runner : Runner) : Pc Runner → State Runner
  | .idle => s
  | .acquire c => match s.db.locks.get c.type with
      | none => s.go runner { s.db with locks := s.db.locks.add (c.lock runner) } (.start c)
      | some _ => s.go runner s.db (.look c)
  | .look c => match s.db.locks.get c.type with
      | none => s.go runner s.db .idle
      | some lock =>
          if c.now ≤ lock.lockedUntil then s.go runner s.db .idle
          else s.go runner s.db (.takeOver c lock.taskID)
  | .takeOver c existing => match s.db.locks.get c.type with
      | none => s.go runner s.db .idle
      | some lock =>
          if lock.lockedUntil < c.now then
            s.go runner { s.db with locks := s.db.locks.put (c.lock runner) }
              (if existing ≠ "" ∧ existing ≠ c.taskID then .mark c existing else .start c)
          else s.go runner s.db .idle
  | .mark c expired => s.go runner (s.db.markSystemTaskLeaseExpired s.now expired) (.start c)
  | .start c =>
      let (db, started) := s.db.startTask c.now c.taskID c.type runner
      s.go runner db (if started then .idle else .release c)
  | .release c => s.go runner (s.db.releaseSystemTaskLock c.taskID runner) .idle
  | .sweep _ [] => s.go runner s.db .idle
  | .sweep now (lock :: rest) =>
      s.go runner (s.db.markSystemTaskLeaseExpired s.now lock.taskID) (.sweepDelete now lock rest)
  | .sweepDelete now lock rest =>
      s.go runner (s.db.deleteLocks fun l =>
        l.type = lock.type && l.taskID = lock.taskID && l.lockedBy = lock.lockedBy && l.lockedUntil < now)
        (.sweep now rest)

def step (s : State Runner) : Action Runner → State Runner
  | .tick seconds => { s with now := s.now + seconds }
  | .create taskID type payload state => { s with db := s.db.createTask s.now taskID type payload state }
  | .claim runner taskID type => match s.pc runner, s.db.tasks.get taskID with
      | .idle, some task =>
          if task.type = type ∧ task.status = .pending then
            s.go runner s.db (.acquire ⟨taskID, type, s.now, s.now + systemTaskLockTTL⟩)
          else s
      | _, _ => s
  | .expireStale runner => match s.pc runner with
      | .idle => s.go runner s.db (.sweep s.now (s.db.locks.rows.filter fun lock => lock.lockedUntil < s.now))
      | _ => s
  | .next runner => advance s runner (s.pc runner)
  | .update runner taskID state => { s with db := (s.db.updateSystemTaskState s.now taskID runner state).1 }
  | .renew runner taskID =>
      { s with db := s.db.renewSystemTaskLock s.now taskID runner (s.now + systemTaskLockTTL) }
  | .finish runner taskID outcome result error =>
      let (db, finished) := s.db.finishSystemTask s.now taskID runner outcome result error
      { s with db := db, finishing := if finished then (taskID, runner) :: s.finishing else s.finishing }
  | .releaseFinished runner taskID =>
      if (taskID, runner) ∈ s.finishing then
        { s with
          db := s.db.releaseSystemTaskLock taskID runner
          finishing := s.finishing.erase (taskID, runner) }
      else s

def start : State Runner := ⟨0, ⟨Table.empty, Table.empty⟩, fun _ => .idle, []⟩

end HotAI.SystemTasks
