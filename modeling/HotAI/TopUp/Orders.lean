import HotAI.Lib.Table
import HotAI.Lib.GoStrings

/-! # Top-up orders and the paths that complete them (`model/topup.go`, `controller/topup.go`)

Amounts of money are decimals. What a database makes of a fraction added to its integer column of a quota is left open, so
quotas are decimals too. -/
namespace HotAI.TopUp
open HotAI.Lib

inductive PaymentProvider where
  | unset
  | epay
  | stripe
  | creem
  | waffo
  | waffoPancake
  | balance
deriving DecidableEq, Repr

inductive OrderStatus where
  | pending
  | success
  | failed
  | expired
deriving DecidableEq, Repr

/-- `TopUp`; the trade number is unique in the table. -/
structure Order where
  tradeNo : String
  userId : ℤ
  amount : ℤ
  money : ℚ
  paymentMethod : String
  paymentProvider : PaymentProvider
  createTime : ℤ
  completeTime : ℤ
  status : OrderStatus
deriving DecidableEq

/-- The columns of a `User` that top-ups write. -/
structure User where
  id : ℤ
  quota : ℚ
  email : String
  stripeCustomer : String
deriving DecidableEq

structure Db where
  orders : Table Order Order.tradeNo
  users : Table User User.id
deriving DecidableEq

/-- `Decimal.IntPart`: the fraction is cut off. -/
def intPart (d : ℚ) : ℤ := if 0 ≤ d then ⌊d⌋ else ⌈d⌉

/-- `UPDATE users SET quota = quota + ?, … WHERE id = ?`; a user who is not there is not missed. -/
def addQuota (users : Table User User.id) (userId : ℤ) (quota : ℚ) (touch : User → User) : Table User User.id :=
  match users.get userId with
  | none => users
  | some user => users.put { touch user with id := user.id, quota := user.quota + quota }

/-! ## Completion in one transaction -/

structure Completion where
  /-- The provider that the order must have; the administrator completes any. -/
  provider : Option PaymentProvider
  /-- An order that has succeeded is answered with success. -/
  idempotent : Bool
  credit : ℚ → Order → ℚ
  /-- A credit that is not positive is refused. -/
  positive : Bool
  /-- The user is looked up before the update. -/
  looksUser : Bool
  touch : User → User
  noTradeNo : String
  wrongStatus : String
  /-- Errors of the transaction are reported with one text. -/
  hidesErrors : Bool

/-- `decimal(Amount) * QuotaPerUnit` without its fraction. -/
def unitCredit (quotaPerUnit : ℚ) (order : Order) : ℚ := intPart (order.amount * quotaPerUnit)

/-- `Recharge`, the completion of a Stripe order. -/
def recharge (customerId : String) : Completion where
  provider := some .stripe
  idempotent := false
  credit quotaPerUnit order := order.money * quotaPerUnit
  positive := false
  looksUser := false
  touch user := { user with stripeCustomer := customerId }
  noTradeNo := "未提供支付单号"
  wrongStatus := "充值订单状态错误"
  hidesErrors := true

def rechargeCreem (customerEmail : String) : Completion where
  provider := some .creem
  idempotent := false
  credit _ order := order.amount
  positive := false
  looksUser := customerEmail ≠ ""
  touch user := if customerEmail ≠ "" ∧ user.email = "" then { user with email := customerEmail } else user
  noTradeNo := "未提供支付单号"
  wrongStatus := "充值订单状态错误"
  hidesErrors := true

def rechargeWaffo : Completion where
  provider := some .waffo
  idempotent := true
  credit := unitCredit
  positive := true
  looksUser := false
  touch := id
  noTradeNo := "未提供支付单号"
  wrongStatus := "充值订单状态错误"
  hidesErrors := true

def rechargeWaffoPancake : Completion where
  provider := some .waffoPancake
  idempotent := true
  credit := unitCredit
  positive := true
  looksUser := false
  touch := id
  noTradeNo := "未提供支付单号"
  wrongStatus := "充值订单状态错误"
  hidesErrors := true

def manualCompleteTopUp : Completion where
  provider := none
  idempotent := true
  credit quotaPerUnit order :=
    if order.paymentProvider = .stripe then intPart (order.money * quotaPerUnit)
    else unitCredit quotaPerUnit order
  positive := true
  looksUser := false
  touch := id
  noTradeNo := "未提供订单号"
  wrongStatus := "订单状态不是待支付，无法补单"
  hidesErrors := false

def Completion.accepts (c : Completion) (order : Order) : Bool :=
  match c.provider with
  | none => true
  | some provider => order.paymentProvider = provider

def Completion.transaction (c : Completion) (quotaPerUnit : ℚ) (now : ℤ) (db : Db) (tradeNo : String) : Except String Db :=
  match db.orders.get tradeNo with
  | none => .error "充值订单不存在"
  | some order =>
      if !c.accepts order then .error "payment method mismatch"
      else if c.idempotent && order.status = .success then .ok db
      else if order.status ≠ .pending then .error c.wrongStatus
      else if c.positive && c.credit quotaPerUnit order ≤ 0 then .error "无效的充值额度"
      else if c.looksUser && (db.users.get order.userId).isNone then .error "record not found"
      else .ok
        { orders := db.orders.put { order with status := .success, completeTime := now }
          users := addQuota db.users order.userId (c.credit quotaPerUnit order) c.touch }

def Completion.run (c : Completion) (quotaPerUnit : ℚ) (now : ℤ) (db : Db) (tradeNo : String) : Except String Db :=
  if tradeNo = "" then .error c.noTradeNo
  else (c.transaction quotaPerUnit now db tradeNo).mapError fun e =>
    if c.hidesErrors then "充值失败，请稍后重试" else e

/-- The statuses `UpdatePendingTopUpStatus` is called with. -/
inductive Closing where
  | failed
  | expired
deriving DecidableEq, Repr

def Closing.status : Closing → OrderStatus
  | .failed => .failed
  | .expired => .expired

def updatePendingTopUpStatus (db : Db) (tradeNo : String) (expectedPaymentProvider : Option PaymentProvider)
    (targetStatus : Closing) : Except String Db :=
  if tradeNo = "" then .error "未提供支付单号"
  else match db.orders.get tradeNo with
    | none => .error "topup not found"
    | some order =>
        if expectedPaymentProvider.isSome && expectedPaymentProvider ≠ some order.paymentProvider then
          .error "payment method mismatch"
        else if order.status ≠ .pending then .error "topup status invalid"
        else .ok { db with orders := db.orders.put { order with status := targetStatus.status } }

/-! ## The notify handler of epay

It reads the order, saves it and raises the quota in three statements without a transaction. -/

def epayRead (db : Db) (tradeNo : String) : Option Order :=
  match db.orders.get tradeNo with
  | none => none
  | some order => if order.paymentProvider = .epay ∧ order.status = .pending then some order else none

def epaySave (db : Db) (order : Order) (method : String) : Db :=
  { db with orders := db.orders.put { order with paymentMethod := method, status := .success } }

/-- `IncreaseUserQuota` for the order. -/
def epayCredit (quotaPerUnit : ℚ) (db : Db) (order : Order) : Except String Db :=
  let quotaToAdd := unitCredit quotaPerUnit order
  if quotaToAdd < 0 then .error "quota 不能为负数！"
  else .ok { db with users := addQuota db.users order.userId quotaToAdd id }

def epayNotify (quotaPerUnit : ℚ) (db : Db) (tradeNo method : String) : Db :=
  match epayRead db tradeNo with
  | none => db
  | some order =>
      match epayCredit quotaPerUnit (epaySave db order method) order with
      | .ok db' => db'
      | .error _ => epaySave db order method

/-! ## What the updates do -/

def quotaOf (db : Db) (userId : ℤ) : ℚ :=
  match db.users.get userId with
  | some user => user.quota
  | none => 0

theorem quotaOf_addQuota {db : Db} {orders : Table Order Order.tradeNo} {userId : ℤ} {user : User}
    (h : db.users.get userId = some user) (quota : ℚ) (touch : User → User) :
    quotaOf ⟨orders, addQuota db.users userId quota touch⟩ userId = quotaOf db userId + quota := by
  have hid : user.id = userId := Table.key_of_get h
  subst hid
  have hput := @Table.get_put_self _ _ _ _ db.users { touch user with id := user.id, quota := user.quota + quota }
    user h
  simp only [quotaOf, addQuota, h]
  rw [hput]

variable {tradeNo : String}

/-- Nothing happens to an order that has succeeded; a pending one of an accepted provider succeeds and its user is credited.
-/
theorem Completion.run_ok {c : Completion} {quotaPerUnit : ℚ} {now : ℤ} {db db' : Db}
    (h : c.run quotaPerUnit now db tradeNo = .ok db') :
    ∃ order, db.orders.get tradeNo = some order ∧ c.accepts order = true ∧
      (order.status = .success ∧ db' = db ∨ order.status = .pending ∧ (c.positive = true → 0 < c.credit quotaPerUnit order) ∧
        db' = ⟨db.orders.put { order with status := .success, completeTime := now },
          addQuota db.users order.userId (c.credit quotaPerUnit order) c.touch⟩) := by
  unfold Completion.run at h
  split at h
  · cases h
  cases htx : c.transaction quotaPerUnit now db tradeNo with
  | error e =>
    rw [htx] at h
    cases h
  | ok db₁ =>
    rw [htx] at h
    cases h
    unfold Completion.transaction at htx
    split at htx
    · cases htx
    next order horder =>
    split at htx
    · cases htx
    next haccepts =>
    rw [Bool.not_eq_true, Bool.not_eq_false'] at haccepts
    refine ⟨order, horder, haccepts, ?_⟩
    split at htx
    · next hdone =>
      cases htx
      rw [Bool.and_eq_true, decide_eq_true_eq] at hdone
      exact .inl ⟨hdone.2, rfl⟩
    split at htx
    · cases htx
    next hpending =>
    split at htx
    · cases htx
    next hpositive =>
    split at htx
    · cases htx
    cases htx
    refine .inr ⟨not_not.mp hpending, fun hcheck => ?_, rfl⟩
    rw [hcheck, Bool.true_and, decide_eq_true_eq, not_le] at hpositive
    exact hpositive

theorem updatePendingTopUpStatus_ok {db db' : Db} {expected : Option PaymentProvider}
    {target : Closing} (h : updatePendingTopUpStatus db tradeNo expected target = .ok db') :
    ∃ order, db.orders.get tradeNo = some order ∧ order.status = .pending ∧
      db' = { db with orders := db.orders.put { order with status := target.status } } := by
  unfold updatePendingTopUpStatus at h
  split at h
  · cases h
  split at h
  · cases h
  next order horder =>
  split at h
  · cases h
  split at h
  · cases h
  next hpending =>
  cases h
  exact ⟨order, horder, not_not.mp hpending, rfl⟩

end HotAI.TopUp
