import HotAI.Subscription.Rows

/-! # Subscriptions and the user's group (`model/subscription.go`)

A plan with an upgrade group moves its buyer there; the subscription keeps the group held before. When it ends, the user is
moved back: by `downgradeUserGroupForSubscriptionTx` for the administrator's operations, by the body of
`ExpireDueSubscriptions` for the periodic pass. -/
namespace HotAI.Subscription
open HotAI.Lib

/-! ## Plans -/

inductive DurationUnit where
  | year
  | month
  | day
  | hour
  | custom
  | unknown (name : String)
deriving DecidableEq, Repr

structure SubscriptionPlan where
  id : ℤ
  totalAmount : ℤ
  maxPurchasePerUser : ℤ
  durationUnit : DurationUnit
  durationValue : ℤ
  customSeconds : ℤ
  upgradeGroup : String
  downgradeGroup : String
  allowWalletOverflow : Option Bool
deriving DecidableEq, Repr

/-- From package `time`: adding years and months, which leads later when either is positive, and a plan's next reset. -/
structure Calendar where
  addDate : ℤ → ℤ → ℤ → ℤ
  addDate_year : ∀ start years, 0 < years → start < addDate start years 0
  addDate_month : ∀ start months, 0 < months → start < addDate start 0 months
  calcNextResetTime : ℤ → SubscriptionPlan → ℤ → ℤ

def calcPlanEndTime (cal : Calendar) (start : ℤ) (plan : SubscriptionPlan) : Except String ℤ :=
  if plan.durationValue ≤ 0 ∧ plan.durationUnit ≠ .custom then .error "duration_value must be > 0"
  else match plan.durationUnit with
    | .year => .ok (cal.addDate start plan.durationValue 0)
    | .month => .ok (cal.addDate start 0 plan.durationValue)
    | .day => .ok (start + plan.durationValue * 86400)
    | .hour => .ok (start + plan.durationValue * 3600)
    | .custom =>
        if plan.customSeconds ≤ 0 then .error "custom_seconds must be > 0"
        else .ok (start + plan.customSeconds)
    | .unknown name => .error ("invalid duration_unit: " ++ name)

/-- Subscriptions, the group of every user that exists, and the clock. -/
structure Ledger where
  clock : ℤ
  subs : SubTable
  groups : ℤ → Option String

/-- `getUserGroupByIdTx`; the group of a user without a row reads as empty. -/
def Ledger.getUserGroup (db : Ledger) (userId : ℤ) : Except String String :=
  if userId ≤ 0 then .error "invalid userId" else .ok ((db.groups userId).getD "")

/-- `UPDATE users SET group = ? WHERE id = ?`. -/
def Ledger.setUserGroup (db : Ledger) (userId : ℤ) (group : String) : Ledger :=
  { db with groups := Function.update db.groups userId ((db.groups userId).map fun _ => group) }

/-- An active subscription of the user with an upgrade group that ends after `now`. -/
def Ledger.hasActiveUpgrade (db : Ledger) (userId now : ℤ) (other : UserSubscription → Bool) : Bool :=
  db.subs.rows.any fun sub =>
    sub.userId = userId && sub.status = .active && now < sub.endTime && sub.upgradeGroup ≠ "" &&
      other sub

def Ledger.moveTo (db : Ledger) (userId : ℤ) (currentGroup target : String) : String × Ledger :=
  if target = "" ∨ target = currentGroup then ("", db)
  else (target, db.setUserGroup userId target)

/-- `downgradeUserGroupForSubscriptionTx`: the group the user was moved to, or the empty string. -/
def downgradeUserGroupForSubscriptionTx (db : Ledger) (sub : UserSubscription) (now : ℤ) : Except String (String × Ledger) :=
  let downgradeGroup := trimSpace sub.downgradeGroup
  let upgradeGroup := trimSpace sub.upgradeGroup
  if downgradeGroup = "" ∧ upgradeGroup = "" then .ok ("", db)
  else match db.getUserGroup sub.userId with
    | .error err => .error err
    | .ok currentGroup =>
        if db.hasActiveUpgrade sub.userId now (·.id ≠ sub.id) then .ok ("", db)
        else if downgradeGroup = "" ∧ currentGroup ≠ upgradeGroup then .ok ("", db)
        else
          .ok (db.moveTo sub.userId currentGroup
            (if downgradeGroup = "" then trimSpace sub.prevUserGroup else downgradeGroup))

/-! ## The operations -/

def Ledger.purchases (db : Ledger) (userId planId : ℤ) : ℕ :=
  db.subs.rows.countP fun sub => sub.userId = userId ∧ sub.planId = planId

def upgradeUserGroup (db : Ledger) (userId : ℤ) (upgradeGroup : String) : String × Ledger :=
  let currentGroup := (db.groups userId).getD ""
  if upgradeGroup ≠ "" ∧ currentGroup ≠ upgradeGroup then
    (currentGroup, db.setUserGroup userId upgradeGroup)
  else ("", db)

/-- `CreateUserSubscriptionFromPlanTx`; `newId` is the database's key, and a taken one fails like any insertion. -/
def createUserSubscriptionFromPlanTx (cal : Calendar) (db : Ledger) (userId : ℤ)
    (plan : SubscriptionPlan) (newId : ℤ) : Except String Ledger :=
  if plan.id = 0 then .error "invalid plan"
  else if userId ≤ 0 then .error "invalid user id"
  else if 0 < plan.maxPurchasePerUser ∧ plan.maxPurchasePerUser ≤ db.purchases userId plan.id then
    .error "已达到该套餐购买上限"
  else match calcPlanEndTime cal db.clock plan with
    | .error err => .error err
    | .ok endUnix =>
        let nextReset := cal.calcNextResetTime db.clock plan endUnix
        let upgradeGroup := trimSpace plan.upgradeGroup
        let (prevGroup, db) := upgradeUserGroup db userId upgradeGroup
        if h : 0 < newId then
          let sub : UserSubscription :=
            { id := newId, userId, planId := plan.id
              amountTotal := plan.totalAmount, amountUsed := 0
              startTime := db.clock, endTime := endUnix, status := .active
              lastResetTime := if 0 < nextReset then db.clock else 0, nextResetTime := nextReset
              upgradeGroup, prevUserGroup := prevGroup
              downgradeGroup := trimSpace plan.downgradeGroup
              allowWalletOverflow := plan.allowWalletOverflow.getD true
              id_pos := h }
          if db.subs.get newId = none then .ok { db with subs := db.subs.add sub }
          else .error "UNIQUE constraint failed"
        else .error "UNIQUE constraint failed"

def rolledBack (target : String) : String := if target = "" then "" else "用户分组将回退到 " ++ target

def adminInvalidateUserSubscription (db : Ledger) (userSubscriptionId : ℤ) : Except String (String × Ledger) :=
  if userSubscriptionId ≤ 0 then .error "invalid userSubscriptionId"
  else match db.subs.get userSubscriptionId with
    | none => .error "record not found"
    | some sub =>
        let sub := { sub with status := .cancelled, endTime := db.clock }
        (downgradeUserGroupForSubscriptionTx { db with subs := db.subs.put sub } sub db.clock).map
          fun (target, db) => (rolledBack target, db)

def adminDeleteUserSubscription (db : Ledger) (userSubscriptionId : ℤ) : Except String (String × Ledger) :=
  if userSubscriptionId ≤ 0 then .error "invalid userSubscriptionId"
  else match db.subs.get userSubscriptionId with
    | none => .error "record not found"
    | some sub =>
        (downgradeUserGroupForSubscriptionTx db sub db.clock).map fun (target, db) =>
          (rolledBack target, { db with subs := db.subs.remove userSubscriptionId })

/-- `status = 'active' AND end_time > 0 AND end_time <= now`. -/
def UserSubscription.due (sub : UserSubscription) (now : ℤ) : Bool :=
  sub.status = .active && 0 < sub.endTime && sub.endTime ≤ now

/-- `ORDER BY end_time desc, id desc LIMIT 1`. -/
def latest : List UserSubscription → Option UserSubscription
  | [] => none
  | sub :: rest => match latest rest with
      | none => some sub
      | some best => if endsBefore sub best then some best else some sub

def Ledger.lastExpired (db : Ledger) (userId : ℤ) : Option UserSubscription :=
  latest (db.subs.rows.filter fun sub => sub.userId = userId ∧ sub.status = .expired ∧
    (sub.downgradeGroup ≠ "" ∨ sub.upgradeGroup ≠ ""))

def UserSubscription.expireFor (userId now : ℤ) (sub : UserSubscription) : UserSubscription :=
  if sub.userId = userId ∧ sub.due now then { sub with status := .expired } else sub

theorem expireFor_id (userId now : ℤ) (sub : UserSubscription) : (sub.expireFor userId now).id = sub.id := by
  unfold UserSubscription.expireFor
  split <;> rfl

def Ledger.markExpired (db : Ledger) (userId now : ℤ) : Ledger :=
  { db with subs := db.subs.update (·.expireFor userId now) (expireFor_id userId now) }

def expireUser (now : ℤ) (db : Ledger) (userId : ℤ) : Ledger :=
  let db := db.markExpired userId now
  if db.hasActiveUpgrade userId now (fun _ => true) then db
  else match db.lastExpired userId with
    | none => db
    | some lastExpired =>
        let currentGroup := (db.groups userId).getD ""
        let downgradeGroup := trimSpace lastExpired.downgradeGroup
        let upgradeGroup := trimSpace lastExpired.upgradeGroup
        let prevGroup := trimSpace lastExpired.prevUserGroup
        if downgradeGroup = "" ∧ (upgradeGroup = "" ∨ prevGroup = "" ∨ currentGroup ≠ upgradeGroup) then
          db
        else
          (db.moveTo userId currentGroup (if downgradeGroup = "" then prevGroup else downgradeGroup)).2

/-- The users that one pass of `ExpireDueSubscriptions` looks at. -/
def Ledger.dueUsers (db : Ledger) (limit : ℤ) : List ℤ :=
  let limit := if limit ≤ 0 then 200 else limit
  let subs := ((db.subs.rows.filter (·.due db.clock)).insertionSort endsBefore).take limit.toNat
  ((subs.map UserSubscription.userId).filter (0 < ·)).dedup

def expireDueSubscriptions (db : Ledger) (limit : ℤ) : Ledger :=
  (db.dueUsers limit).foldl (expireUser db.clock) db

/-! ## Runs -/

inductive Op where
  | create (userId : ℤ) (plan : SubscriptionPlan) (newId : ℤ)
  | expire (limit : ℤ)
  | invalidate (userSubscriptionId : ℤ)
  | delete (userSubscriptionId : ℤ)

structure Label where
  elapsed : ℕ
  op : Op

def Ledger.wait (db : Ledger) (seconds : ℕ) : Ledger := { db with clock := db.clock + seconds }

def perform (cal : Calendar) (db : Ledger) : Op → Ledger
  | .create userId plan newId =>
      match createUserSubscriptionFromPlanTx cal db userId plan newId with
      | .ok db' => db'
      | .error _ => db
  | .expire limit => expireDueSubscriptions db limit
  | .invalidate id =>
      match adminInvalidateUserSubscription db id with
      | .ok (_, db') => db'
      | .error _ => db
  | .delete id =>
      match adminDeleteUserSubscription db id with
      | .ok (_, db') => db'
      | .error _ => db

def step (cal : Calendar) (db : Ledger) (l : Label) : Ledger := perform cal (db.wait l.elapsed) l.op

end HotAI.Subscription
