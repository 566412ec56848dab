import HotAI.Tasks.Task

/-! # Concurrent writers of the task table

Pollers and sweeps are workers, each with its own copy of a task row and a place in its code; the table and the ledger of
refunds are shared. One label is one atomic step: a read, an `UPDATE`, a quota adjustment, or a computation on the own copy. -/
namespace HotAI.Tasks
open HotAI.Lib

inductive Worker where
  | idle
  /-- A poller with its copy, waiting for an upstream answer. -/
  | copy (task : Task)
  | swept (task : Task)
  /-- About to run `UpdateWithStatus(fromStatus)`; a guarded update that loses cancels the billing. -/
  | update (fromStatus : TaskStatus) (task : Task) (guarded shouldSettle shouldRefund poller : Bool)
  | settle (task : Task)
  | refund (task : Task) (poller : Bool)
  /-- A Suno poller about to refund, and about to `Save`; `fromStatus` is its copy's status before the answer. -/
  | sunoRefund (fromStatus : TaskStatus) (task : Task)
  | sunoSave (fromStatus : TaskStatus) (task : Task) (refunded : Bool)
deriving DecidableEq

structure System where
  rows : TaskTable
  workers : List Worker
  ledger : List Refund

inductive Label where
  /-- `GetAllUnFinishSyncTasks` gives worker `i` the row `id`. -/
  | read (i : ℕ) (id : ℤ)
  /-- `GetTimedOutUnfinishedTasks`. -/
  | sweepRead (i : ℕ) (id cutoff : ℤ)
  | drop (i : ℕ)
  | sweep (i : ℕ) (now minutes : ℤ)
  | video (i : ℕ) (serverAddress : String) (now : ℤ) (answer : VideoAnswer)
  | suno (i : ℕ) (item : SunoItem)
  /-- The next database statement of worker `i`; `actual` is the settled quota where it settles. -/
  | exec (i : ℕ) (actual : Option ℤ)
  /-- `TaskBulkUpdateByID` on the copies of these workers, with or without a reason. -/
  | bulk (is : List ℕ) (reason : Option String)

/-! ## The steps of one worker -/

def afterwards (task : Task) (poller : Bool) : Worker := if poller then .copy task else .idle

def billing (task : Task) (shouldSettle shouldRefund poller : Bool) : Worker :=
  if shouldSettle then .settle task
  else if shouldRefund then .refund task poller
  else afterwards task poller

/-- The end of `updateVideoSingleTask` on a copy that was `old` before the answer. -/
def videoNext (old : Task) : VideoOutcome → Worker
  | .stop task => .copy task
  | .write task shouldSettle shouldRefund =>
      if (task.status = .success ∨ task.status = .failure) ∧ old.status ≠ task.status then
        .update old.status task true shouldSettle shouldRefund true
      else if !old.sameSnapshot task then .update old.status task false shouldSettle shouldRefund true
      else billing task shouldSettle shouldRefund true

def sunoNext (old : Task) (item : SunoItem) : Worker :=
  if !taskNeedsUpdate old item then .copy old
  else
    let task := applySunoItem old item
    if sunoFails task item then .sunoRefund old.status task else .sunoSave old.status task false

def sweepNext (now minutes : ℤ) (task : Task) : Worker :=
  .update task.status (timedOut now minutes task) true false (!task.isLegacy && task.quota ≠ 0) false

/-! ## Database statements -/

/-- `UpdateWithStatus`: the whole row is written if its status still is `fromStatus`. -/
def updateWithStatus (rows : TaskTable) (fromStatus : TaskStatus) (task : Task) : Bool × TaskTable :=
  match rows.get task.id with
  | some row => if row.status = fromStatus then (true, rows.put task) else (false, rows)
  | none => (false, rows)

/-- `TaskBulkUpdateByID` with `status`, `progress` and possibly `fail_reason`. -/
def bulkFail (ids : List ℤ) (reason : Option String) (row : Task) : Task :=
  if row.id ∈ ids then
    { row with status := .failure, progress := "100%", failReason := reason.getD row.failReason }
  else row

theorem bulkFail_id (ids : List ℤ) (reason : Option String) (row : Task) : (bulkFail ids reason row).id = row.id := by
  unfold bulkFail
  split <;> rfl

def copiedIds (workers : List Worker) (is : List ℕ) : List ℤ :=
  is.filterMap fun i => match (workers[i]? : Option Worker) with
    | some (.copy task) => some task.id
    | _ => none

def exec (s : System) (i : ℕ) (actual : Option ℤ) : Worker → System
  | .update fromStatus task guarded shouldSettle shouldRefund poller =>
      let (won, rows) := updateWithStatus s.rows fromStatus task
      let bills := won || !guarded
      { s with
        rows := rows
        workers := s.workers.set i (billing task (shouldSettle && bills) (shouldRefund && bills) poller) }
  | .settle task =>
      { s with workers := s.workers.set i (.copy { task with quota := actual.getD task.quota }) }
  | .refund task poller =>
      { s with
        workers := s.workers.set i (afterwards task poller)
        ledger := refundTaskQuota s.ledger task }
  | .sunoRefund fromStatus task =>
      { s with
        workers := s.workers.set i (.sunoSave fromStatus task true)
        ledger := refundTaskQuota s.ledger task }
  | .sunoSave _ task _ =>
      { s with rows := s.rows.put task, workers := s.workers.set i (.copy task) }
  | _ => s

/-! ## The system -/

def step (s : System) : Label → System
  | .read i id =>
      match s.workers[i]?, s.rows.get id with
      | some .idle, some row =>
          if row.unfinished then { s with workers := s.workers.set i (.copy row) } else s
      | _, _ => s
  | .sweepRead i id cutoff =>
      match s.workers[i]?, s.rows.get id with
      | some .idle, some row =>
          if row.unfinished ∧ row.submitTime < cutoff then
            { s with workers := s.workers.set i (.swept row) } else s
      | _, _ => s
  | .drop i =>
      match s.workers[i]? with
      | some (.copy _) => { s with workers := s.workers.set i .idle }
      | _ => s
  | .sweep i now minutes =>
      match s.workers[i]? with
      | some (.swept task) => { s with workers := s.workers.set i (sweepNext now minutes task) }
      | _ => s
  | .video i serverAddress now answer =>
      match s.workers[i]? with
      | some (.copy task) =>
          let next := videoNext task (applyAnswer serverAddress now task answer)
          { s with workers := s.workers.set i next }
      | _ => s
  | .suno i item =>
      match s.workers[i]? with
      | some (.copy task) => { s with workers := s.workers.set i (sunoNext task item) }
      | _ => s
  | .exec i actual =>
      match s.workers[i]? with
      | some worker => exec s i actual worker
      | none => s
  | .bulk is reason =>
      { s with rows := s.rows.update (bulkFail (copiedIds s.workers is) reason) (bulkFail_id _ _) }

end HotAI.Tasks
