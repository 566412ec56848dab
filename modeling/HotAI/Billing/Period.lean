import HotAI.Billing.Store

/-! # Reset periods of a subscription

A due reset is made up for when a subscription is next looked at: in the scan of a pre-consumption, or by
`ResetDueSubscriptions`. -/
namespace HotAI.Billing
open HotAI.Lib HotAI.Subscription

inductive ResetPeriod where
  | never
  | daily
  | weekly
  | monthly
  | custom
deriving DecidableEq, Repr

def normalizeResetPeriod (period : String) : ResetPeriod :=
  match trimSpace period with
  | "daily" => .daily
  | "weekly" => .weekly
  | "monthly" => .monthly
  | "custom" => .custom
  | _ => .never

/-- The fields of a `SubscriptionPlan` that resets read. -/
structure ResetPlan where
  quotaResetPeriod : String
  quotaResetCustomSeconds : ℤ
deriving DecidableEq, Repr

/-- The next midnight, Monday's midnight and first of a month, in the server's time zone. -/
structure ResetCalendar where
  nextDay : ℤ → ℤ
  nextMonday : ℤ → ℤ
  nextMonth : ℤ → ℤ
  lt_nextDay : ∀ base, base < nextDay base
  lt_nextMonday : ∀ base, base < nextMonday base
  lt_nextMonth : ∀ base, base < nextMonth base

def unlessEnded (endUnix next : ℤ) : ℤ := if 0 < endUnix ∧ endUnix < next then 0 else next

/-- `time.Duration(seconds) * time.Second` in whole seconds; nanoseconds are counted modulo `2 ^ 64`. -/
def durationSeconds (seconds : ℤ) : ℤ := (seconds * 1000000000).bmod (2 ^ 64) / 1000000000

def calcNextResetTime (cal : ResetCalendar) (base : ℤ) (plan : ResetPlan) (endUnix : ℤ) : ℤ :=
  match normalizeResetPeriod plan.quotaResetPeriod with
  | .never => 0
  | .daily => unlessEnded endUnix (cal.nextDay base)
  | .weekly => unlessEnded endUnix (cal.nextMonday base)
  | .monthly => unlessEnded endUnix (cal.nextMonth base)
  | .custom =>
      if plan.quotaResetCustomSeconds ≤ 0 then 0
      else unlessEnded endUnix (base + durationSeconds plan.quotaResetCustomSeconds)

/-- The loop of `maybeResetUserSubscriptionWithPlanTx`: last reset up to `now`, next one, whether there was any. -/
def resetLoop (cal : ResetCalendar) (plan : ResetPlan) (endUnix now : ℤ) : ℕ → ℤ → ℤ × ℤ × Bool
  | 0, base => (base, calcNextResetTime cal base plan endUnix, false)
  | fuel + 1, base =>
      let next := calcNextResetTime cal base plan endUnix
      if 0 < next ∧ next ≤ now then
        let (last, after, _) := resetLoop cal plan endUnix now fuel next
        (last, after, true)
      else (base, next, false)

def resetRow (sub : UserSubscription) (base next : ℤ) (advanced : Bool) : UserSubscription × Bool :=
  if advanced then ({ sub.withUsed 0 with lastResetTime := base, nextResetTime := next }, true)
  else if sub.nextResetTime = 0 ∧ 0 < next then
    ({ sub with lastResetTime := base, nextResetTime := next }, false)
  else (sub, false)

/-- `maybeResetUserSubscriptionWithPlanTx`: the saved row and whether it was reset. A loop that ends repeats no moment. -/
def maybeReset (cal : ResetCalendar) (plan : ResetPlan) (now : ℤ) (sub : UserSubscription) : UserSubscription × Bool :=
  if 0 < sub.nextResetTime ∧ now < sub.nextResetTime then (sub, false)
  else if normalizeResetPeriod plan.quotaResetPeriod = .never then (sub, false)
  else
    let baseUnix := if sub.lastResetTime ≤ 0 then sub.startTime else sub.lastResetTime
    let (base, next, advanced) := resetLoop cal plan sub.endTime now now.toNat baseUnix
    resetRow sub base next advanced

/-- A reset empties the used amount; nothing else about the quota or the row's identity changes. -/
structure ResetOf (sub : UserSubscription) (result : UserSubscription × Bool) : Prop where
  id : result.1.id = sub.id
  amountTotal : result.1.amountTotal = sub.amountTotal
  amountUsed : result.1.amountUsed = if result.2 then 0 else sub.amountUsed

theorem resetRow_spec (sub : UserSubscription) (base next : ℤ) (advanced : Bool) :
    ResetOf sub (resetRow sub base next advanced) := by
  unfold resetRow
  split
  · exact ⟨rfl, rfl, rfl⟩
  split
  · exact ⟨rfl, rfl, rfl⟩
  · exact ⟨rfl, rfl, rfl⟩

theorem maybeReset_spec (cal : ResetCalendar) (plan : ResetPlan) (now : ℤ) (sub : UserSubscription) :
    ResetOf sub (maybeReset cal plan now sub) := by
  unfold maybeReset
  split
  · exact ⟨rfl, rfl, rfl⟩
  split
  · exact ⟨rfl, rfl, rfl⟩
  · exact resetRow_spec ..

/-! ## Plans and the reset pass -/

/-- What the reset code finds around it: the table of plans and the calendar. -/
structure Plans where
  plan : ℤ → Option ResetPlan
  cal : ResetCalendar

/-- `getSubscriptionPlanByIdTx`. -/
def Plans.getSubscriptionPlanById (plans : Plans) (id : ℤ) : Except StoreError ResetPlan :=
  if id ≤ 0 then .error .invalidPlanId
  else match plans.plan id with
    | none => .error .recordNotFound
    | some plan => .ok plan

/-- The reset that is due for a row, or the error of looking its plan up. -/
def Plans.reset (plans : Plans) (now : ℤ) (sub : UserSubscription) : Except StoreError UserSubscription :=
  (plans.getSubscriptionPlanById sub.planId).map fun plan => (maybeReset plans.cal plan now sub).1

def Plans.resets (plans : Plans) (now : ℤ) (sub : UserSubscription) : Bool :=
  match plans.getSubscriptionPlanById sub.planId with
  | .error _ => false
  | .ok plan => (maybeReset plans.cal plan now sub).2

variable {plans : Plans}

theorem Plans.reset_ok {now : ℤ} {sub sub' : UserSubscription}
    (h : plans.reset now sub = .ok sub') : ResetOf sub (sub', plans.resets now sub) := by
  unfold Plans.reset at h
  unfold Plans.resets
  cases hplan : plans.getSubscriptionPlanById sub.planId with
  | error e =>
    rw [hplan] at h
    cases h
  | ok plan =>
    rw [hplan] at h
    cases h
    exact maybeReset_spec plans.cal plan now sub

theorem Plans.resets_of_error {now : ℤ} {sub : UserSubscription} {e : StoreError}
    (h : plans.reset now sub = .error e) : plans.resets now sub = false := by
  unfold Plans.reset at h
  unfold Plans.resets
  cases hplan : plans.getSubscriptionPlanById sub.planId with
  | error e => rfl
  | ok plan =>
    rw [hplan] at h
    cases h

def resetDue (now : ℤ) (sub : UserSubscription) : Bool :=
  0 < sub.nextResetTime && sub.nextResetTime ≤ now

/-- One turn of `ResetDueSubscriptions`: the row is read again under a lock. -/
def resetOne (plans : Plans) (now : ℤ) (subs : SubTable) (listed : UserSubscription) : SubTable :=
  match plans.getSubscriptionPlanById listed.planId, subs.get listed.id with
  | .ok plan, some locked =>
      if resetDue now locked then subs.put (maybeReset plans.cal plan now locked).1 else subs
  | _, _ => subs

/-- The rows that a pass of `ResetDueSubscriptions` takes on. -/
def dueForReset (subs : SubTable) (now limit : ℤ) : List UserSubscription :=
  let limit := if limit ≤ 0 then 200 else limit
  ((subs.rows.filter fun sub => resetDue now sub && sub.status = .active).insertionSort
    fun a b => a.nextResetTime ≤ b.nextResetTime).take limit.toNat

def resetDueSubscriptions (plans : Plans) (db : Store) (now limit : ℤ) : Store :=
  { db with subs := (dueForReset db.subs now limit).foldl (resetOne plans now) db.subs }

end HotAI.Billing
