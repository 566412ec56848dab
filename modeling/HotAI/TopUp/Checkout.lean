import HotAI.TopUp.Orders

/-! # Orders as the checkout handlers create them, and the two ways to complete them

What `Amount` and `Money` mean is settled when the order is created. The administrator's completion reads them without the
provider's help. -/
namespace HotAI.TopUp
open HotAI.Lib

structure CreemProduct where
  productId : String
  price : ℚ
  quota : ℤ
deriving DecidableEq

structure Settings where
  quotaPerUnit : ℚ
  /-- Amounts are entered and shown in tokens. -/
  displaysTokens : Bool
  price : ℚ
  waffoUnitPrice : ℚ
  waffoPancakeUnitPrice : ℚ
  minTopUp : ℤ
  stripeMinTopUp : ℤ
  waffoMinTopUp : ℤ
  waffoPancakeMinTopUp : ℤ
  topupGroupRatio : String → Option ℚ
  amountDiscount : ℤ → Option ℚ
  payMethods : List String
  creemProducts : List CreemProduct

/-- Who pays, and what makes the order's trade number unique. -/
structure Payer where
  userId : ℤ
  group : String
  nonce : String
  now : ℤ

namespace Settings

variable (s : Settings)

/-- A group without a ratio, or with the ratio zero, pays the plain price. -/
def groupRatio (group : String) : ℚ :=
  match s.topupGroupRatio group with
  | none => 1
  | some ratio => if ratio = 0 then 1 else ratio

def discount (amount : ℤ) : ℚ :=
  match s.amountDiscount amount with
  | none => 1
  | some discount => if 0 < discount then discount else 1

/-- `getPayMoney`, `getWaffoPayMoney` and `getWaffoPancakePayMoney`, which differ in the unit price. -/
def payMoney (unitPrice : ℚ) (amount : ℤ) (group : String) : ℚ :=
  let units : ℚ := if s.displaysTokens then amount / s.quotaPerUnit else amount
  units * unitPrice * s.groupRatio group * s.discount amount

def getMinTopup : ℤ := if s.displaysTokens then intPart (s.minTopUp * s.quotaPerUnit) else s.minTopUp

def getStripeMinTopup : ℤ :=
  if s.displaysTokens then s.stripeMinTopUp * intPart s.quotaPerUnit else s.stripeMinTopUp

def atLeastOneUnit (amount : ℤ) : ℤ :=
  if s.displaysTokens then max 1 (intPart (amount / s.quotaPerUnit)) else amount

end Settings

inductive CheckoutRequest where
  | epay (amount : ℤ) (paymentMethod : String)
  | stripe (amount : ℤ) (paymentMethod : String)
  | creem (productId paymentMethod : String)
  | waffo (amount : ℤ)
  | waffoPancake (amount : ℤ)
deriving DecidableEq

def belowMinimum (minimum : ℤ) : String := "充值数量不能小于 " ++ toString minimum

def requestEpay (s : Settings) (p : Payer) (amount : ℤ) (paymentMethod : String) : Except String Order :=
  if amount < s.getMinTopup then .error (belowMinimum s.getMinTopup)
  else
    let payMoney := s.payMoney s.price amount p.group
    if payMoney < 1 / 100 then .error "充值金额过低"
    else if paymentMethod ∉ s.payMethods then .error "支付方式不存在"
    else .ok
      { tradeNo := "USR" ++ toString p.userId ++ "NO" ++ p.nonce
        userId := p.userId
        amount := if s.displaysTokens then intPart (amount / s.quotaPerUnit) else amount
        money := payMoney
        paymentMethod := paymentMethod
        paymentProvider := .epay
        createTime := p.now
        completeTime := 0
        status := .pending }

/-- `RequestPay` of Stripe; the money is what the group is charged, `GetChargedAmount`. -/
def requestStripePay (s : Settings) (p : Payer) (amount : ℤ) (paymentMethod : String) : Except String Order :=
  if paymentMethod ≠ "stripe" then .error "不支持的支付渠道"
  else if amount < s.getStripeMinTopup then .error (belowMinimum s.getStripeMinTopup)
  else if 10000 < amount then .error "充值数量不能大于 10000"
  else .ok
    { tradeNo := "ref_" ++ p.nonce
      userId := p.userId
      amount := amount
      money := amount * s.groupRatio p.group
      paymentMethod := "stripe"
      paymentProvider := .stripe
      createTime := p.now
      completeTime := 0
      status := .pending }

/-- `RequestPay` of Creem; the amount is the product's quota. -/
def requestCreemPay (s : Settings) (p : Payer) (productId paymentMethod : String) : Except String Order :=
  if paymentMethod ≠ "creem" then .error "不支持的支付渠道"
  else if productId = "" then .error "请选择产品"
  else match s.creemProducts.find? fun product => product.productId = productId with
    | none => .error "产品不存在"
    | some product => .ok
      { tradeNo := "ref_" ++ p.nonce
        userId := p.userId
        amount := product.quota
        money := product.price
        paymentMethod := "creem"
        paymentProvider := .creem
        createTime := p.now
        completeTime := 0
        status := .pending }

def requestWaffoPay (s : Settings) (p : Payer) (amount : ℤ) : Except String Order :=
  if amount < s.waffoMinTopUp then .error (belowMinimum s.waffoMinTopUp)
  else
    let payMoney := s.payMoney s.waffoUnitPrice amount p.group
    if payMoney < 1 / 100 then .error "充值金额过低"
    else .ok
      { tradeNo := "WAFFO-" ++ toString p.userId ++ "-" ++ p.nonce
        userId := p.userId
        amount := s.atLeastOneUnit amount
        money := payMoney
        paymentMethod := "waffo"
        paymentProvider := .waffo
        createTime := p.now
        completeTime := 0
        status := .pending }

def requestWaffoPancakePay (s : Settings) (p : Payer) (amount : ℤ) : Except String Order :=
  if amount < s.waffoPancakeMinTopUp then .error (belowMinimum s.waffoPancakeMinTopUp)
  else
    let payMoney := s.payMoney s.waffoPancakeUnitPrice amount p.group
    if payMoney < 1 / 100 then .error "充值金额过低"
    else .ok
      { tradeNo := "WAFFO_PANCAKE-" ++ toString p.userId ++ "-" ++ p.nonce
        userId := p.userId
        amount := s.atLeastOneUnit amount
        money := payMoney
        paymentMethod := "waffo_pancake"
        paymentProvider := .waffoPancake
        createTime := p.now
        completeTime := 0
        status := .pending }

def checkout (s : Settings) (p : Payer) : CheckoutRequest → Except String Order
  | .epay amount paymentMethod => requestEpay s p amount paymentMethod
  | .stripe amount paymentMethod => requestStripePay s p amount paymentMethod
  | .creem productId paymentMethod => requestCreemPay s p productId paymentMethod
  | .waffo amount => requestWaffoPay s p amount
  | .waffoPancake amount => requestWaffoPancakePay s p amount

/-! ## What completing an order adds -/

def Completion.adds (c : Completion) (quotaPerUnit : ℚ) (now : ℤ) (db : Db) (order : Order) : ℚ :=
  match c.run quotaPerUnit now db order.tradeNo with
  | .ok db' => quotaOf db' order.userId - quotaOf db order.userId
  | .error _ => 0

/-- What the callback of the order's own provider adds. -/
def callbackAdds (quotaPerUnit : ℚ) (now : ℤ) (db : Db) (order : Order) (customer method : String) : ℚ :=
  match order.paymentProvider with
  | .stripe => (recharge customer).adds quotaPerUnit now db order
  | .creem => (rechargeCreem customer).adds quotaPerUnit now db order
  | .waffo => rechargeWaffo.adds quotaPerUnit now db order
  | .waffoPancake => rechargeWaffoPancake.adds quotaPerUnit now db order
  | .epay => quotaOf (epayNotify quotaPerUnit db order.tradeNo method) order.userId - quotaOf db order.userId
  | _ => 0

/-- The orders for which the two readings of `Amount` and `Money` come to the same. -/
def readAlike (quotaPerUnit : ℚ) (order : Order) : Prop :=
  match order.paymentProvider with
  | .stripe => 0 ≤ order.money * quotaPerUnit ∧ (⌊order.money * quotaPerUnit⌋ : ℚ) = order.money * quotaPerUnit
  | .creem => order.amount = 0 ∨
      0 < order.amount ∧ 1 ≤ quotaPerUnit ∧ order.amount * (quotaPerUnit - 1) < 1
  | _ => True

structure Payable (db : Db) (order : Order) : Prop where
  tradeNo : order.tradeNo ≠ ""
  stored : db.orders.get order.tradeNo = some order
  pending : order.status = .pending
  user : ∃ user, db.users.get order.userId = some user

variable {order : Order} {db : Db}

theorem Completion.adds_eq {c : Completion} (h : Payable db order) (quotaPerUnit : ℚ)
    (now : ℤ) (haccepts : c.accepts order = true) : c.adds quotaPerUnit now db order =
      if c.positive = true ∧ c.credit quotaPerUnit order ≤ 0 then 0 else c.credit quotaPerUnit order := by
  obtain ⟨htrade, hstored, hpending, user, huser⟩ := h
  unfold Completion.adds Completion.run Completion.transaction
  rw [if_neg htrade, hstored]
  have hdone : ¬ (c.idempotent && decide (order.status = .success)) = true := by simp [hpending]
  have hthere : ¬ (c.looksUser && (db.users.get order.userId).isNone) = true := by simp [huser]
  dsimp only
  rw [haccepts, if_neg (by simp), if_neg hdone, if_neg (not_not.mpr hpending)]
  by_cases hrefused : c.positive = true ∧ c.credit quotaPerUnit order ≤ 0
  · rw [if_pos hrefused, if_pos (by simpa using hrefused)]
    rfl
  · rw [if_neg hrefused, if_neg (by simpa using hrefused), if_neg hthere]
    have hadd := @quotaOf_addQuota db (db.orders.put { order with status := .success, completeTime := now })
      order.userId user huser (c.credit quotaPerUnit order) c.touch
    simp only [Except.mapError, hadd, add_sub_cancel_left]

theorem epayNotify_adds (h : Payable db order) (quotaPerUnit : ℚ) (method : String)
    (hprovider : order.paymentProvider = .epay) :
    quotaOf (epayNotify quotaPerUnit db order.tradeNo method) order.userId - quotaOf db order.userId =
      if unitCredit quotaPerUnit order < 0 then 0 else unitCredit quotaPerUnit order := by
  obtain ⟨-, hstored, hpending, user, huser⟩ := h
  have hread : epayRead db order.tradeNo = some order := by
    simp [epayRead, hstored, hprovider, hpending]
  simp only [epayNotify, hread, epayCredit]
  by_cases hneg : unitCredit quotaPerUnit order < 0
  · rw [if_pos hneg, if_pos hneg]
    exact sub_self _
  · rw [if_neg hneg, if_neg hneg]
    have hadd := @quotaOf_addQuota db (epaySave db order method).orders order.userId user huser
      (unitCredit quotaPerUnit order) id
    rw [sub_eq_iff_eq_add']
    exact hadd

/-! ## Comparing the two -/

theorem intPart_of_nonneg {d : ℚ} (h : 0 ≤ d) : intPart d = ⌊d⌋ := if_pos h

theorem intPart_nonpos_of_neg {d : ℚ} (h : d < 0) : intPart d ≤ 0 := by
  rw [intPart, if_neg (not_le.mpr h)]
  exact Int.ceil_le.mpr (by exact_mod_cast h.le)

theorem positivePart_eq_iff (d : ℚ) :
    (if (intPart d : ℚ) ≤ 0 then 0 else (intPart d : ℚ)) = d ↔ 0 ≤ d ∧ (⌊d⌋ : ℚ) = d := by
  by_cases hd : 0 ≤ d
  · rw [intPart_of_nonneg hd]
    have hfloor : (0 : ℚ) ≤ ⌊d⌋ := by exact_mod_cast Int.floor_nonneg.mpr hd
    have hsplit : (if (⌊d⌋ : ℚ) ≤ 0 then 0 else (⌊d⌋ : ℚ)) = ⌊d⌋ := by
      split
      · next hle => exact le_antisymm hfloor hle
      · rfl
    rw [hsplit]
    exact ⟨fun heq => ⟨hd, heq⟩, fun h => h.2⟩
  · have hneg : d < 0 := not_le.mp hd
    rw [if_pos (by exact_mod_cast intPart_nonpos_of_neg hneg)]
    exact ⟨fun heq => absurd heq.le hd, fun h => absurd h.1 hd⟩

theorem unitCredit_eq_amount_iff (amount : ℤ) (quotaPerUnit : ℚ) :
    (if (intPart (amount * quotaPerUnit) : ℚ) ≤ 0 then 0 else (intPart (amount * quotaPerUnit) : ℚ)) = amount ↔
      amount = 0 ∨ 0 < amount ∧ 1 ≤ quotaPerUnit ∧ amount * (quotaPerUnit - 1) < 1 := by
  rcases lt_trichotomy amount 0 with hneg | rfl | hpos
  · have hneg' : (amount : ℚ) < 0 := by exact_mod_cast hneg
    refine ⟨fun heq => ?_, fun h => by omega⟩
    split at heq
    · exact absurd heq.symm hneg'.ne
    · next hcredit =>
      rw [heq] at hcredit
      exact absurd hneg'.le hcredit
  · simp [intPart]
  · have hpos' : (0 : ℚ) < amount := by exact_mod_cast hpos
    have hvalue : (if (intPart (amount * quotaPerUnit) : ℚ) ≤ 0 then 0
        else (intPart (amount * quotaPerUnit) : ℚ)) = amount ↔ ⌊(amount : ℚ) * quotaPerUnit⌋ = amount := by
      constructor
      · intro heq
        split at heq
        · exact absurd heq hpos'.ne
        · next hcredit =>
          have hint : intPart (amount * quotaPerUnit) = amount := by exact_mod_cast heq
          refine (intPart_of_nonneg ?_).symm.trans hint
          by_contra hlt
          exact hcredit (by exact_mod_cast intPart_nonpos_of_neg (not_le.mp hlt))
      · intro heq
        have hnonneg : 0 ≤ (amount : ℚ) * quotaPerUnit := by
          have hfloor := Int.floor_le ((amount : ℚ) * quotaPerUnit)
          rw [heq] at hfloor
          exact hpos'.le.trans hfloor
        rw [intPart_of_nonneg hnonneg, heq, if_neg (not_le.mpr hpos')]
    rw [hvalue, Int.floor_eq_iff]
    constructor
    · rintro ⟨hlow, hhigh⟩
      refine .inr ⟨hpos, ?_, by linarith⟩
      exact le_of_mul_le_mul_left (by linarith) hpos'
    · rintro (hzero | ⟨-, hone, hsmall⟩)
      · omega
      · exact ⟨by nlinarith, by linarith⟩

theorem checkout_ok {s : Settings} {p : Payer} {r : CheckoutRequest} (h : checkout s p r = .ok order) :
    order.tradeNo ≠ "" ∧ order.status = .pending ∧
      order.paymentProvider ∈ [PaymentProvider.epay, .stripe, .creem, .waffo, .waffoPancake] := by
  cases r
  all_goals
    simp only [checkout, requestEpay, requestStripePay, requestCreemPay, requestWaffoPay, requestWaffoPancakePay] at h
    -- the checks come first, and the order is made when all of them have passed
    repeat
      split at h
      · cases h
    cases h
    exact ⟨by simp [String.append_eq_empty_iff], rfl, by simp⟩

theorem manual_adds_money (h : Payable db order) (quotaPerUnit : ℚ) (now : ℤ) (hprovider : order.paymentProvider = .stripe) :
    manualCompleteTopUp.adds quotaPerUnit now db order =
      if (intPart (order.money * quotaPerUnit) : ℚ) ≤ 0 then 0 else (intPart (order.money * quotaPerUnit) : ℚ) := by
  rw [Completion.adds_eq h quotaPerUnit now rfl]
  simp [manualCompleteTopUp, hprovider]

theorem manual_adds_units (h : Payable db order) (quotaPerUnit : ℚ) (now : ℤ) (hprovider : order.paymentProvider ≠ .stripe) :
    manualCompleteTopUp.adds quotaPerUnit now db order =
      if unitCredit quotaPerUnit order ≤ 0 then 0 else unitCredit quotaPerUnit order := by
  rw [Completion.adds_eq h quotaPerUnit now rfl]
  simp [manualCompleteTopUp, hprovider]

/-- For an order of a checkout handler the administrator's completion adds what the callback would exactly if both read it
alike. -/
theorem manual_completion_matches_callback_iff (s : Settings) (p : Payer) (r : CheckoutRequest) (order : Order)
    (hcreated : checkout s p r = .ok order) (db : Db) (hstored : db.orders.get order.tradeNo = some order)
    (huser : ∃ user, db.users.get order.userId = some user) (now : ℤ) (customer method : String) :
    manualCompleteTopUp.adds s.quotaPerUnit now db order = callbackAdds s.quotaPerUnit now db order customer method ↔
      readAlike s.quotaPerUnit order := by
  obtain ⟨htrade, hpending, hprovider⟩ := checkout_ok hcreated
  have hpayable : Payable db order := ⟨htrade, hstored, hpending, huser⟩
  simp only [List.mem_cons, List.not_mem_nil, or_false] at hprovider
  unfold callbackAdds readAlike
  rcases hprovider with hp | hp | hp | hp | hp
  all_goals simp only [hp]
  · -- a credit of nothing or less adds nothing on either side
    rw [manual_adds_units hpayable s.quotaPerUnit now (by simp [hp]),
      epayNotify_adds hpayable s.quotaPerUnit method hp, iff_true]
    generalize unitCredit s.quotaPerUnit order = credit
    by_cases hneg : credit < 0
    · rw [if_pos hneg.le, if_pos hneg]
    · split
      · next hle => exact le_antisymm (not_lt.mp hneg) hle
      · rfl
  · rw [manual_adds_money hpayable s.quotaPerUnit now hp,
      Completion.adds_eq hpayable s.quotaPerUnit now (by simp [Completion.accepts, recharge, hp])]
    exact positivePart_eq_iff (order.money * s.quotaPerUnit)
  · rw [manual_adds_units hpayable s.quotaPerUnit now (by simp [hp]),
      Completion.adds_eq hpayable s.quotaPerUnit now (by simp [Completion.accepts, rechargeCreem, hp])]
    exact unitCredit_eq_amount_iff order.amount s.quotaPerUnit
  · rw [manual_adds_units hpayable s.quotaPerUnit now (by simp [hp]),
      Completion.adds_eq hpayable s.quotaPerUnit now (by simp [Completion.accepts, rechargeWaffo, hp])]
    simp [rechargeWaffo]
  · rw [manual_adds_units hpayable s.quotaPerUnit now (by simp [hp]),
      Completion.adds_eq hpayable s.quotaPerUnit now (by simp [Completion.accepts, rechargeWaffoPancake, hp])]
    simp [rechargeWaffoPancake]

def sampleSettings : Settings where
  quotaPerUnit := 500000
  displaysTokens := false
  price := 73 / 10
  waffoUnitPrice := 1
  waffoPancakeUnitPrice := 1
  minTopUp := 1
  stripeMinTopUp := 1
  waffoMinTopUp := 1
  waffoPancakeMinTopUp := 1
  topupGroupRatio := fun _ => some 1
  amountDiscount := fun _ => none
  payMethods := ["alipay", "wxpay"]
  creemProducts := [⟨"prod_basic", 5, 1000000⟩]

def samplePayer : Payer := ⟨7, "default", "N1", 0⟩

def storeOf (order : Order) : Db :=
  ⟨⟨[order], List.nodup_singleton _⟩, ⟨[⟨order.userId, 0, "", ""⟩], List.nodup_singleton _⟩⟩

def epayOrder : Order := ⟨"USR7NON1", 7, 10, 73, "alipay", .epay, 0, 0, .pending⟩

theorem manual_completion_matches_callback_epay : checkout sampleSettings samplePayer (.epay 10 "alipay") = .ok epayOrder ∧
      manualCompleteTopUp.adds 500000 0 (storeOf epayOrder) epayOrder =
        callbackAdds 500000 0 (storeOf epayOrder) epayOrder "" "alipay" := by
  have hcreated : checkout sampleSettings samplePayer (.epay 10 "alipay") = .ok epayOrder := by decide +kernel
  exact ⟨hcreated, (manual_completion_matches_callback_iff sampleSettings samplePayer (.epay 10 "alipay") epayOrder
    hcreated (storeOf epayOrder) (by decide +kernel) ⟨_, rfl⟩ 0 "" "alipay").mpr trivial⟩

/-- A Creem product of 1000000 quota: its callback adds that much, the administrator 500000 times as much. -/
theorem manual_completion_inflates_creem :
    ∃ order, checkout sampleSettings samplePayer (.creem "prod_basic" "creem") = .ok order ∧
      callbackAdds 500000 0 (storeOf order) order "" "" = 1000000 ∧
      manualCompleteTopUp.adds 500000 0 (storeOf order) order = 500000000000 :=
  ⟨_, rfl, by decide +kernel, by decide +kernel⟩

end HotAI.TopUp
