import HotAI.Lib.Table
import HotAI.Lib.Threads

/-! # Asynchronous tasks (`model/task.go`, `service/task_polling.go`, `service/task_billing.go`)

What one writer computes from its own copy of a task: the outcome of an upstream answer for a video task, the update of a Suno
task, and the time-out of a sweep. -/
namespace HotAI.Tasks
open HotAI.Lib

/-- `TaskStatus`: upstream may send any text, the empty one included. -/
inductive TaskStatus where
  | notStart
  | submitted
  | queued
  | inProgress
  | failure
  | success
  | unknown
  | other (text : String)
deriving DecidableEq, Repr

/-- `Task`, with the fields of `PrivateData` that polling and refunds use. -/
structure Task where
  id : ℤ
  taskID : String
  userId : ℤ
  quota : ℤ
  status : TaskStatus
  failReason : String
  submitTime : ℤ
  startTime : ℤ
  finishTime : ℤ
  progress : String
  data : String
  resultURL : String
  fromSubscription : Bool
  subscriptionId : ℤ
  tokenId : ℤ
deriving DecidableEq, Repr

abbrev TaskTable := Table Task Task.id

namespace Task

/-- The rows that `GetAllUnFinishSyncTasks` reads. -/
def unfinished (task : Task) : Bool :=
  task.progress ≠ "100%" && task.status ≠ .failure && task.status ≠ .success

def sameSnapshot (a b : Task) : Bool :=
  a.status = b.status && a.progress = b.progress && a.startTime = b.startTime &&
    a.finishTime = b.finishTime && a.failReason = b.failReason && a.resultURL = b.resultURL &&
    a.data = b.data

/-- A task from before the billing of tasks was recorded is failed without a refund. -/
def isLegacy (task : Task) : Bool := 0 < task.submitTime && task.submitTime < 1740182400

end Task

/-! ## Refunds -/

/-- Where `taskAdjustFunding` books a task's quota. -/
inductive FundingAccount where
  | wallet (userId : ℤ)
  | subscription (id : ℤ)
deriving DecidableEq, Repr

/-- One refund, as `RefundTaskQuota` makes it: the funding source and the token get the quota. -/
structure Refund where
  taskId : ℤ
  account : FundingAccount
  tokenId : ℤ
  amount : ℤ
deriving DecidableEq, Repr

def refundOf (task : Task) : Refund where
  taskId := task.id
  account := if task.fromSubscription ∧ 0 < task.subscriptionId then .subscription task.subscriptionId
    else .wallet task.userId
  tokenId := task.tokenId
  amount := task.quota

def refundTaskQuota (ledger : List Refund) (task : Task) : List Refund :=
  if task.quota = 0 then ledger else ledger ++ [refundOf task]

/-! ## Video tasks -/

/-- The part of `TaskInfo` that polling reads. -/
structure TaskInfo where
  status : TaskStatus
  url : String
  progress : String
  reason : String
deriving DecidableEq, Repr

def failTaskInfo (reason : String) : TaskInfo := ⟨.failure, "", "", reason⟩

inductive ErrorBody where
  | notJson
  | rateLimited
  | openaiError
  | unrecognized
deriving DecidableEq, Repr

/-- What came back from upstream for a video task; `data` is the redacted body. -/
inductive VideoAnswer where
  | failed
  | parsed (result : TaskInfo) (data : String) (error : ErrorBody)
deriving DecidableEq, Repr

/-- The deciding result once answers without a status are treated; `none` ends the update until the next round. -/
def decisiveResult (result : TaskInfo) (error : ErrorBody) : Option TaskInfo :=
  if result.status ≠ .other "" then some result
  else match error with
    | .notJson => some result
    | .rateLimited => none
    | .openaiError => some (failTaskInfo "upstream returned error")
    | .unrecognized => some (failTaskInfo "upstream returned unrecognized message")

def buildProxyURL (serverAddress taskID : String) : String :=
  serverAddress ++ "/v1/videos/" ++ taskID ++ "/content"

/-- The outcome of an answer on the poller's copy: nothing more to do, or a write to attempt. -/
inductive VideoOutcome where
  | stop (task : Task)
  | write (task : Task) (shouldSettle shouldRefund : Bool)

/-- The `switch` over the status of `updateVideoSingleTask` and the progress after it. -/
def applyResult (serverAddress : String) (now : ℤ) (task : Task) (result : TaskInfo) : VideoOutcome :=
  let shown (progress : String) : String := if result.progress ≠ "" then result.progress else progress
  match result.status with
  | .submitted => .write { task with status := .submitted, progress := shown "10%" } false false
  | .queued => .write { task with status := .queued, progress := shown "20%" } false false
  | .inProgress => .write { task with
      status := .inProgress
      progress := shown "30%"
      startTime := if task.startTime = 0 then now else task.startTime } false false
  | .success => .write { task with
      status := .success
      progress := shown "100%"
      finishTime := if task.finishTime = 0 then now else task.finishTime
      resultURL := if result.url ≠ "" ∧ ¬ "data:".toList <+: result.url.toList then result.url
        else buildProxyURL serverAddress task.taskID } true false
  | .failure => .write { task with
      status := .failure
      progress := "100%"
      finishTime := if task.finishTime = 0 then now else task.finishTime
      failReason := result.reason } false (task.quota ≠ 0)
  -- any other status is reported as an error; the copy keeps it
  | status => .stop { task with status := status }

def applyAnswer (serverAddress : String) (now : ℤ) (task : Task) : VideoAnswer → VideoOutcome
  | .failed => .stop task
  | .parsed result data error =>
      let task := { task with data := data }
      match decisiveResult result error with
      | none => .stop task
      | some result => applyResult serverAddress now task result

/-! ## Suno tasks -/

structure SunoItem where
  status : TaskStatus
  failReason : String
  submitTime : ℤ
  startTime : ℤ
  finishTime : ℤ
  data : String
deriving DecidableEq, Repr

/-- `taskNeedsUpdate`: the data are compared with their bytes sorted. -/
def taskNeedsUpdate (old : Task) (new : SunoItem) : Bool :=
  old.submitTime ≠ new.submitTime || old.startTime ≠ new.startTime ||
    old.finishTime ≠ new.finishTime || old.status ≠ new.status || old.failReason ≠ new.failReason ||
    ((old.status = .failure || old.status = .success) && old.progress ≠ "100%") ||
    !old.data.toList.isPerm new.data.toList

/-- A Suno item is a failure when it gives a reason or leaves the task in `FAILURE`. -/
def sunoFails (task : Task) (item : SunoItem) : Bool :=
  item.failReason ≠ "" || task.status = .failure

/-- The copy after a response item, before the refund and the `Save`. -/
def applySunoItem (task : Task) (item : SunoItem) : Task :=
  let updated := { task with
    status := if item.status ≠ .other "" then item.status else task.status
    failReason := if item.failReason ≠ "" then item.failReason else task.failReason
    submitTime := if item.submitTime ≠ 0 then item.submitTime else task.submitTime
    startTime := if item.startTime ≠ 0 then item.startTime else task.startTime
    finishTime := if item.finishTime ≠ 0 then item.finishTime else task.finishTime
    data := item.data }
  if sunoFails updated item || item.status = .success then { updated with progress := "100%" }
  else updated

/-! ## Time-outs -/

def timedOut (now minutes : ℤ) (task : Task) : Task :=
  { task with
    status := .failure
    progress := "100%"
    finishTime := now
    failReason := if task.isLegacy then "任务超时（旧系统遗留任务，不进行退款，请联系管理员）"
      else "任务超时（" ++ toString minutes ++ "分钟）" }

end HotAI.Tasks
