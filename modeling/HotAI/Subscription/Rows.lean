import HotAI.Lib.Table
import HotAI.Lib.GoStrings

/-! # The table of user subscriptions (`model/subscription.go`)

Ids are positive, as the schema gives them out; the amounts are plain integers. -/
namespace HotAI.Subscription
open HotAI.Lib

inductive Status where
  | active
  | expired
  | cancelled
deriving DecidableEq, Repr

structure UserSubscription where
  id : ℤ
  userId : ℤ
  planId : ℤ
  amountTotal : ℤ
  amountUsed : ℤ
  startTime : ℤ
  endTime : ℤ
  status : Status
  lastResetTime : ℤ
  nextResetTime : ℤ
  upgradeGroup : String
  prevUserGroup : String
  downgradeGroup : String
  allowWalletOverflow : Bool
  id_pos : 0 < id
deriving DecidableEq

/-- The rows are ordered by `end_time asc, id asc` where the code scans them. -/
def endsBefore (a b : UserSubscription) : Prop :=
  a.endTime < b.endTime ∨ a.endTime = b.endTime ∧ a.id ≤ b.id

instance : DecidableRel endsBefore := fun a b =>
  inferInstanceAs (Decidable (a.endTime < b.endTime ∨ a.endTime = b.endTime ∧ a.id ≤ b.id))

def UserSubscription.withUsed (sub : UserSubscription) (newUsed : ℤ) : UserSubscription := { sub with amountUsed := newUsed }

abbrev SubTable := Table UserSubscription UserSubscription.id

/-- `AmountUsed` of the subscription with this id. -/
def amountUsedOf (subs : SubTable) (id : ℤ) : ℤ :=
  match subs.get id with
  | some sub => sub.amountUsed
  | none => 0

variable {sub : UserSubscription} {subs : SubTable}

theorem amountUsedOf_eq {id : ℤ} (h : subs.get id = some sub) : amountUsedOf subs id = sub.amountUsed := by
  simp only [amountUsedOf, h]

theorem amountUsedOf_put {subs : SubTable} {sub old : UserSubscription}
    (h : subs.get sub.id = some old) : amountUsedOf (subs.put sub) sub.id = sub.amountUsed :=
  amountUsedOf_eq (Table.get_put_self h)

theorem amountUsedOf_put_of_ne {id : ℤ} (h : id ≠ sub.id) : amountUsedOf (subs.put sub) id = amountUsedOf subs id := by
  simp only [amountUsedOf, Table.get_put_of_ne h]

end HotAI.Subscription
