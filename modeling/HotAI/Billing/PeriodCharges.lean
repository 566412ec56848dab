import HotAI.Billing.Usage

/-! # The used amount against the requests of the current period

A watched subscription is followed with its bills: the requests pre-consumed on it since its last reset, each with what it
costs now. -/
namespace HotAI.Billing
open HotAI.Lib HotAI.Subscription List Table

inductive ChargeOp where
  | preConsume (requestId : String) (userId amount : ℤ)
  | settle (requestId : String) (actual : ℤ)
  | refund (requestId : String)
  | resetDue (limit : ℤ)
deriving DecidableEq

structure ChargeLabel where
  elapsed : ℕ
  op : ChargeOp

/-- `SubscriptionFunding.Settle` after a pre-consumption: the cost less what was taken. -/
def settleRequest (db : Store) (requestId : String) (actual : ℤ) : Except StoreError Store :=
  match db.records.get requestId with
  | none => .error .recordNotFound
  | some record =>
      postConsumeUserSubscriptionDelta db record.userSubscriptionId (actual - record.preConsumed)

def performCharge (plans : Plans) (now : ℤ) (db : Store) : ChargeOp → Except StoreError Store
  | .preConsume requestId userId amount =>
      (preConsumeUserSubscription (plans.reset now) db requestId userId now amount).map Prod.snd
  | .settle requestId actual => settleRequest db requestId actual
  | .refund requestId => refundSubscriptionPreConsume db requestId
  | .resetDue limit => .ok (resetDueSubscriptions plans db now limit)

/-! ## Bills -/

/-- A request of the current period, and what it costs now. -/
structure Bill where
  requestId : String
  cost : ℤ
deriving DecidableEq

abbrev Bills := Table Bill Bill.requestId

def scanResets (plans : Plans) (now amount id : ℤ) : List UserSubscription → Bool
  | [] => false
  | candidate :: rest =>
      candidate.id = id && plans.resets now candidate ||
        match plans.reset now candidate with
        | .error _ => false
        | .ok sub =>
            if 0 < sub.amountTotal ∧ sub.amountTotal - sub.amountUsed < amount then
              scanResets plans now amount id rest
            else false

def passResets (plans : Plans) (now id : ℤ) (listed : List UserSubscription) : Bool :=
  listed.any fun sub => sub.id = id && plans.resets now sub

def Bills.afterReset (bills : Bills) (reset : Bool) : Bills := if reset then Table.empty else bills

/-- The bills after an operation that has taken the store from `db` to `db'`. -/
def billsAfter (plans : Plans) (now id : ℤ) (db db' : Store) (bills : Bills) : ChargeOp → Bills
  | .preConsume requestId userId amount =>
      match db.records.get requestId with
      | some _ => bills
      | none =>
          let bills := bills.afterReset (scanResets plans now amount id (activeSubs db userId now))
          match db'.records.get requestId with
          | some record => if record.userSubscriptionId = id then bills.add ⟨requestId, amount⟩ else bills
          | none => bills
  | .settle requestId actual => bills.put ⟨requestId, actual⟩
  | .refund requestId => bills.put ⟨requestId, 0⟩
  | .resetDue limit => bills.afterReset (passResets plans now id (dueForReset db.subs now limit))

/-- The store, the database's clock and the bills of the watched subscription. -/
structure Account where
  clock : ℤ
  db : Store
  bills : Bills

def chargeStep (plans : Plans) (id : ℤ) (a : Account) (l : ChargeLabel) : Account :=
  let now := a.clock + l.elapsed
  match performCharge plans now a.db l.op with
  | .error _ => ⟨now, a.db, a.bills⟩
  | .ok db' => ⟨now, db', billsAfter plans now id a.db db' a.bills l.op⟩

/-- The cost may become `actual`: the request is of this period and costs what was taken, or nothing changes hands. -/
def timelyBill (used preConsumed actual : ℤ) : Option Bill → Bool
  | some bill => bill.cost = preConsumed && 0 ≤ actual
  | none => actual = preConsumed || actual < preConsumed && used = 0

def timely (id : ℤ) (a : Account) (requestId : String) (actual : ℤ) : Bool :=
  match a.db.records.get requestId with
  | none => true
  | some record => record.userSubscriptionId ≠ id ||
      timelyBill (amountUsedOf a.db.subs id) record.preConsumed actual (a.bills.get requestId)

/-- The request has been refunded, so that another refund does nothing. -/
def refunded (db : Store) (requestId : String) : Bool :=
  match db.records.get requestId with
  | some record => record.status = .refunded
  | none => false

def inPeriod (id : ℤ) (a : Account) (l : ChargeLabel) : Bool :=
  match l.op with
  | .settle requestId actual => timely id a requestId actual
  | .refund requestId => refunded a.db requestId || timely id a requestId 0
  | _ => true

/-! ## What the scan and the reset pass do to the watched subscription -/

variable {plans : Plans} {subs : SubTable} {sub : UserSubscription} {now : ℤ}

theorem reset_put_used {sub sub' : UserSubscription}
    (hrow : subs.get sub.id = some sub) (hreset : plans.reset now sub = .ok sub') (id : ℤ) :
    amountUsedOf (subs.put sub') id =
      if sub.id = id && plans.resets now sub then 0 else amountUsedOf subs id := by
  obtain ⟨hid, -, hused⟩ := Plans.reset_ok hreset
  by_cases hsame : sub.id = id
  · subst hsame
    have hget : subs.get sub'.id = some sub := by
      rw [hid]
      exact hrow
    rw [amountUsedOf_eq hrow, ← hid, amountUsedOf_put hget, hused, decide_eq_true rfl, Bool.true_and]
  · rw [amountUsedOf_put_of_ne (by rw [hid]; exact Ne.symm hsame), decide_eq_false hsame]
    rfl

theorem chargeFirst_used {now amount : ℤ}
    {candidates : List UserSubscription} {subs' : SubTable} {charged : UserSubscription}
    {usedBefore : ℤ} (hrows : ∀ sub ∈ candidates, subs.get sub.id = some sub)
    (hnodup : (candidates.map UserSubscription.id).Nodup)
    (h : chargeFirst (plans.reset now) amount candidates subs = .ok (charged, usedBefore, subs')) (id : ℤ) :
    amountUsedOf subs' id = (if scanResets plans now amount id candidates then 0 else amountUsedOf subs id) +
      if charged.id = id then amount else 0 := by
  induction candidates generalizing subs with
  | nil => cases h
  | cons first rest ih =>
    rw [map_cons, nodup_cons] at hnodup
    have hfirst := hrows first (mem_cons_self ..)
    unfold chargeFirst at h
    cases hreset : plans.reset now first with
    | error e =>
      rw [hreset] at h
      cases h
    | ok sub =>
      rw [hreset] at h
      dsimp only at h
      have hsubid := (Plans.reset_ok hreset).id
      have hput := reset_put_used hfirst hreset id
      have hget : subs.get sub.id = some first := by
        rw [hsubid]
        exact hfirst
      split at h
      · next hshort =>
        have hscan : scanResets plans now amount id (first :: rest) =
            (first.id = id && plans.resets now first || scanResets plans now amount id rest) := by
          simp only [scanResets, hreset, if_pos hshort]
        rw [hscan, ih (rest_rows_put hsubid hrows hnodup.1) hnodup.2 h, hput]
        cases first.id = id && plans.resets now first <;> cases scanResets plans now amount id rest <;> rfl
      · next henough =>
        cases h
        have hscan : scanResets plans now amount id (first :: rest) =
            (first.id = id && plans.resets now first) := by
          simp only [scanResets, hreset, if_neg henough, Bool.or_false]
        rw [hscan, ← hput]
        have hput' := get_put_self hget
        by_cases hid : sub.id = id
        · subst hid
          have hcharged := @amountUsedOf_put (subs.put sub) (sub.withUsed (sub.amountUsed + amount)) sub hput'
          have hsame : (sub.withUsed (sub.amountUsed + amount)).id = sub.id := rfl
          rw [amountUsedOf_put hget, if_pos hsame]
          exact hcharged
        · have hne : ¬ (sub.withUsed (sub.amountUsed + amount)).id = id := hid
          rw [if_neg hne, add_zero, amountUsedOf_put_of_ne (Ne.symm hne)]

theorem resetOne_eq (hrow : subs.get sub.id = some sub) (hdue : resetDue now sub = true) :
    resetOne plans now subs sub = match plans.reset now sub with
      | .error _ => subs
      | .ok sub' => subs.put sub' := by
  unfold resetOne Plans.reset
  rw [hrow]
  cases plans.getSubscriptionPlanById sub.planId with
  | error e => rfl
  | ok plan =>
    dsimp only
    rw [if_pos hdue]
    rfl

theorem resetAll_used {listed : List UserSubscription}
    (hrows : ∀ sub ∈ listed, subs.get sub.id = some sub) (hdue : ∀ sub ∈ listed, resetDue now sub = true)
    (hnodup : (listed.map UserSubscription.id).Nodup) (id : ℤ) :
    amountUsedOf (listed.foldl (resetOne plans now) subs) id =
      if passResets plans now id listed then 0 else amountUsedOf subs id := by
  induction listed generalizing subs with
  | nil => rfl
  | cons first rest ih =>
    rw [map_cons, nodup_cons] at hnodup
    have hfirst := hrows first (mem_cons_self ..)
    have hdue' := fun sub hsub => hdue sub (mem_cons_of_mem first hsub)
    have hpass : passResets plans now id (first :: rest) =
        (first.id = id && plans.resets now first || passResets plans now id rest) := any_cons
    rw [foldl_cons, resetOne_eq hfirst (hdue first (mem_cons_self ..)), hpass]
    cases hreset : plans.reset now first with
    | error e =>
      have hnone : plans.resets now first = false := Plans.resets_of_error hreset
      rw [hnone, Bool.and_false]
      exact ih (fun sub hsub => hrows sub (mem_cons_of_mem first hsub)) hdue' hnodup.2
    | ok sub =>
      rw [ih (rest_rows_put (Plans.reset_ok hreset).id hrows hnodup.1) hdue' hnodup.2,
        reset_put_used hfirst hreset id]
      cases first.id = id && plans.resets now first <;> cases passResets plans now id rest <;> rfl

theorem mem_dueForReset {now limit : ℤ}
    (h : sub ∈ dueForReset subs now limit) : sub ∈ subs.rows ∧ resetDue now sub = true := by
  have hmem := (mem_insertionSort _).mp (mem_of_mem_take h)
  rw [mem_filter, Bool.and_eq_true] at hmem
  exact ⟨hmem.1, hmem.2.1⟩

theorem nodup_dueForReset (subs : SubTable) (now limit : ℤ) :
    ((dueForReset subs now limit).map UserSubscription.id).Nodup := by
  have hperm := (perm_insertionSort (fun a b : UserSubscription => a.nextResetTime ≤ b.nextResetTime)
    (subs.rows.filter fun sub => resetDue now sub && sub.status = .active)).map UserSubscription.id
  have hsorted := hperm.nodup_iff.mpr (subs.unique.sublist (filter_sublist.map _))
  exact hsorted.sublist ((take_sublist _ _).map _)

theorem resetDueSubscriptions_used (plans : Plans) (db : Store) (now limit id : ℤ) :
    amountUsedOf (resetDueSubscriptions plans db now limit).subs id =
      if passResets plans now id (dueForReset db.subs now limit) then 0 else amountUsedOf db.subs id :=
  resetAll_used (fun _ hsub => get_of_mem (mem_dueForReset hsub).1)
    (fun _ hsub => (mem_dueForReset hsub).2) (nodup_dueForReset ..) id

/-! ## The bills add up -/

structure Billed (id : ℤ) (bill : Bill) (record : PreConsumeRecord) : Prop where
  nonneg : 0 ≤ bill.cost
  sub : record.userSubscriptionId = id
  pos : 0 < record.preConsumed
  refunded : record.status = .refunded → bill.cost = 0

/-- The used amount is what the bills add up to, and every bill is that of a request with a record. -/
structure PeriodInv (id : ℤ) (db : Store) (bills : Bills) : Prop where
  used : amountUsedOf db.subs id = bills.sum Bill.cost
  recorded : ∀ bill ∈ bills.rows, ∃ record, db.records.get bill.requestId = some record ∧ Billed id bill record

theorem afterReset_sum (bills : Bills) (reset : Bool) :
    (bills.afterReset reset).sum Bill.cost = if reset then 0 else bills.sum Bill.cost := by
  cases reset <;> rfl

theorem mem_afterReset {bills : Bills} {reset : Bool} {bill : Bill}
    (h : bill ∈ (bills.afterReset reset).rows) : bill ∈ bills.rows := by
  cases reset with
  | true => cases h
  | false => exact h

section Step

variable {plans : Plans} {id : ℤ} {db db' : Store} {bills : Bills}

section
variable (h : PeriodInv id db bills)
include h

theorem PeriodInv.no_bill {requestId : String} (hfree : db.records.get requestId = none) : bills.get requestId = none := by
  cases hbill : bills.get requestId with
  | none => rfl
  | some bill =>
    obtain ⟨hmem, hkey⟩ := (bills.get_eq_some_iff _ _).mp hbill
    obtain ⟨record, hrecord, -⟩ := h.recorded bill hmem
    rw [hkey, hfree] at hrecord
    cases hrecord

theorem periodInv_resetDue (now limit : ℤ) : PeriodInv id (resetDueSubscriptions plans db now limit)
      (bills.afterReset (passResets plans now id (dueForReset db.subs now limit))) where
  used := by rw [resetDueSubscriptions_used, afterReset_sum, h.used]
  recorded := fun bill hbill => h.recorded bill (mem_afterReset hbill)

theorem periodInv_preConsume {requestId : String} {userId now amount : ℤ}
    {res : PreConsumeResult}
    (hpre : preConsumeUserSubscription (plans.reset now) db requestId userId now amount = .ok (res, db')) :
    PeriodInv id db' (billsAfter plans now id db db' bills (.preConsume requestId userId amount)) := by
  obtain ⟨hamount, -, ⟨record, hrecord, rfl⟩ | ⟨hfresh, charged, usedBefore, hscan, -, hdb⟩⟩ :=
    preConsumeUserSubscription_cases hpre
  · simp only [billsAfter, hrecord]
    exact h
  have hadded : db'.records.get requestId = some ⟨requestId, userId, charged.id, amount, .consumed⟩ := by
    rw [hdb]
    exact get_add_self hfresh
  have hused := chargeFirst_used activeSubs_rows (nodup_activeSubs ..) hscan id
  simp only [billsAfter, hfresh, hadded]
  generalize scanResets plans now amount id (activeSubs db userId now) = reset at hused ⊢
  have hsum : amountUsedOf db'.subs id =
      (bills.afterReset reset).sum Bill.cost + if charged.id = id then amount else 0 := by
    rw [hused, afterReset_sum, h.used]
  -- the bills there were before still have their records
  have hold : ∀ bill ∈ (bills.afterReset reset).rows, ∃ record,
      db'.records.get bill.requestId = some record ∧ Billed id bill record := by
    intro bill hbill
    obtain ⟨record, hrecord, hbilled⟩ := h.recorded bill (mem_afterReset hbill)
    refine ⟨record, ?_, hbilled⟩
    rw [hdb]
    exact get_add_of_get hrecord
  by_cases hid : charged.id = id
  · rw [if_pos hid] at hsum ⊢
    have hfree : (bills.afterReset reset).get requestId = none := by
      cases reset with
      | true => rfl
      | false => exact h.no_bill hfresh
    have hfree' : (bills.afterReset reset).get (Bill.requestId ⟨requestId, amount⟩) = none := hfree
    refine ⟨by rw [hsum, sum_add hfree'], fun bill hbill => ?_⟩
    rcases (mem_add hfree' bill).mp hbill with hbill | rfl
    · exact hold bill hbill
    · exact ⟨_, hadded, hamount.le, hid, hamount, fun hrefunded => by cases hrefunded⟩
  · rw [if_neg hid] at hsum ⊢
    exact ⟨by rw [hsum, add_zero], hold⟩

theorem PeriodInv.nonneg (bill : Bill) (hbill : bill ∈ bills.rows) : 0 ≤ bill.cost := by
  obtain ⟨record, -, hbilled⟩ := h.recorded bill hbill
  exact hbilled.nonneg

theorem PeriodInv.used_nonneg : 0 ≤ amountUsedOf db.subs id := by
  rw [h.used]
  exact List.sum_nonneg fun cost hcost => by
    obtain ⟨bill, hbill, rfl⟩ := mem_map.mp hcost
    exact h.nonneg bill hbill

end

variable {a : Account} {requestId : String} {actual : ℤ} {record : PreConsumeRecord}

theorem PeriodInv.billed (h : PeriodInv id db bills) {bill : Bill} (hbill : bills.get requestId = some bill)
    (hrecord : db.records.get requestId = some record) : Billed id bill record := by
  obtain ⟨hmem, hkey⟩ := (bills.get_eq_some_iff _ _).mp hbill
  obtain ⟨record', hrecord', hbilled⟩ := h.recorded bill hmem
  rw [hkey, hrecord] at hrecord'
  cases hrecord'
  exact hbilled

theorem timely_bill (h : PeriodInv id a.db a.bills) (hrecord : a.db.records.get requestId = some record)
    (htimely : timely id a requestId actual = true) {bill : Bill}
    (hbill : a.bills.get requestId = some bill) : bill.cost = record.preConsumed ∧ 0 ≤ actual := by
  have hid := (h.billed hbill hrecord).sub
  simpa only [timely, hrecord, hid, hbill, timelyBill, ne_eq, not_true_eq_false, decide_false, Bool.false_or,
    Bool.and_eq_true, decide_eq_true_eq] using htimely

theorem timely_no_bill (hrecord : a.db.records.get requestId = some record)
    (htimely : timely id a requestId actual = true) (hid : record.userSubscriptionId = id)
    (hbill : a.bills.get requestId = none) :
    actual = record.preConsumed ∨ actual < record.preConsumed ∧ amountUsedOf a.db.subs id = 0 := by
  simpa only [timely, hrecord, hid, hbill, timelyBill, ne_eq, not_true_eq_false, decide_false, Bool.false_or,
    Bool.or_eq_true, Bool.and_eq_true, decide_eq_true_eq] using htimely

section
variable (h : PeriodInv id a.db a.bills)
include h

theorem timely_used (hrecord : a.db.records.get requestId = some record)
    (htimely : timely id a requestId actual = true) (hpost : postConsumeUserSubscriptionDelta a.db
      record.userSubscriptionId (actual - record.preConsumed) = .ok db') :
    amountUsedOf db'.subs id = (a.bills.put ⟨requestId, actual⟩).sum Bill.cost := by
  cases hbill : a.bills.get requestId with
  | none =>
    have hfree : a.bills.get (Bill.requestId ⟨requestId, actual⟩) = none := hbill
    rw [put_eq_self hfree, ← h.used]
    by_cases hid : record.userSubscriptionId = id
    · have hnonneg := h.used_nonneg
      have hlate := timely_no_bill hrecord htimely hid hbill
      subst hid
      rcases (postConsume_ok hpost).1 with ⟨-, rfl⟩ | ⟨-, hused⟩
      · rfl
      · omega
    · exact postConsume_other hpost (Ne.symm hid)
  | some bill =>
    have hstored : a.bills.get (Bill.requestId ⟨requestId, actual⟩) = some bill := hbill
    obtain ⟨hcost, hactual⟩ := timely_bill h hrecord htimely hbill
    have hle := le_sum h.nonneg ((a.bills.get_eq_some_iff _ _).mp hbill).1
    have hid := (h.billed hbill hrecord).sub
    subst hid
    rw [sum_put hstored]
    rcases (postConsume_ok hpost).1 with ⟨hzero, rfl⟩ | ⟨-, hused⟩
    · rw [h.used]
      dsimp only
      omega
    · rw [hused, h.used]
      dsimp only
      omega

theorem recorded_put (hothers : ∀ other, other ≠ requestId → db'.records.get other = a.db.records.get other)
    (hself : ∀ bill, a.bills.get requestId = some bill →
      ∃ record', db'.records.get requestId = some record' ∧ Billed id ⟨requestId, actual⟩ record') :
    ∀ bill ∈ (a.bills.put ⟨requestId, actual⟩).rows,
      ∃ record', db'.records.get bill.requestId = some record' ∧ Billed id bill record' := by
  intro bill hmem
  cases hbill : a.bills.get requestId with
  | none =>
    have hfree : a.bills.get (Bill.requestId ⟨requestId, actual⟩) = none := hbill
    rw [Table.put_eq_self hfree] at hmem
    have hne : bill.requestId ≠ requestId := by
      rintro rfl
      rw [Table.get_of_mem hmem] at hbill
      cases hbill
    rw [hothers _ hne]
    exact h.recorded bill hmem
  | some old =>
    have hstored : a.bills.get (Bill.requestId ⟨requestId, actual⟩) = some old := hbill
    rcases (Table.mem_put hstored bill).mp hmem with rfl | ⟨hmem, hne⟩
    · exact hself old hbill
    · rw [hothers _ hne]
      exact h.recorded bill hmem

theorem periodInv_settle (htimely : timely id a requestId actual = true)
    (hsettle : settleRequest a.db requestId actual = .ok db') :
    PeriodInv id db' (a.bills.put ⟨requestId, actual⟩) := by
  unfold settleRequest at hsettle
  split at hsettle
  · cases hsettle
  next record hrecord =>
  have hrecords : db'.records = a.db.records := by rw [(postConsume_ok hsettle).2]
  refine ⟨timely_used h hrecord htimely hsettle, recorded_put h (fun _ _ => by rw [hrecords]) ?_⟩
  intro bill hbill
  obtain ⟨hcost, hactual⟩ := timely_bill h hrecord htimely hbill
  obtain ⟨-, hid, hpos, hrefunded⟩ := h.billed hbill hrecord
  refine ⟨record, by rw [hrecords]; exact hrecord, hactual, hid, hpos, fun hstatus => ?_⟩
  -- a refunded request costs nothing, so its bill is not the amount taken for it
  have hzero := hrefunded hstatus
  omega

theorem periodInv_refund (htimely : (refunded a.db requestId || timely id a requestId 0) = true)
    (hrefund : refundSubscriptionPreConsume a.db requestId = .ok db') :
    PeriodInv id db' (a.bills.put ⟨requestId, 0⟩) := by
  obtain ⟨record, hrecord, ⟨hstatus, rfl⟩ | ⟨hstatus, db₁, hdb₁, rfl⟩⟩ :=
    refundSubscriptionPreConsume_cases hrefund
  · -- the request has no bill, or one of nothing
    have hsame : a.bills.put ⟨requestId, 0⟩ = a.bills := by
      cases hbill : a.bills.get requestId with
      | none => exact put_eq_self hbill
      | some bill =>
        obtain ⟨name, cost⟩ := bill
        have hkey : name = requestId := key_of_get hbill
        have hzero : cost = 0 := (h.billed hbill hrecord).refunded hstatus
        subst hkey hzero
        exact put_eq_of_get hbill
    rw [hsame]
    exact h
  · have htimely' : timely id a requestId 0 = true := by
      simpa [refunded, hrecord, hstatus] using htimely
    have hused : amountUsedOf db₁.subs id = (a.bills.put ⟨requestId, 0⟩).sum Bill.cost := by
      rcases hdb₁ with ⟨hnone, rfl⟩ | ⟨-, hpost⟩
      · have hfree : a.bills.get requestId = none := by
          cases hbill : a.bills.get requestId with
          | none => rfl
          | some bill => exact absurd (h.billed hbill hrecord).pos (not_lt.mpr hnone)
        have hfree' : a.bills.get (Bill.requestId ⟨requestId, 0⟩) = none := hfree
        rw [put_eq_self hfree', h.used]
      · exact timely_used h hrecord htimely' (by rw [zero_sub]; exact hpost)
    have hrecords : db₁.records = a.db.records := by
      rcases hdb₁ with ⟨-, rfl⟩ | ⟨-, hpost⟩
      · rfl
      · rw [(postConsume_ok hpost).2]
    have hkey : record.requestId = requestId := key_of_get hrecord
    subst hkey
    refine ⟨hused, recorded_put h (fun other hne => ?_) fun bill hbill => ?_⟩
    · rw [hrecords]
      exact get_put_of_ne hne
    · obtain ⟨-, hid, hpos, -⟩ := h.billed hbill hrecord
      refine ⟨{ record with status := .refunded }, ?_, le_refl 0, hid, hpos, fun _ => rfl⟩
      rw [hrecords]
      exact get_put_self hrecord

end

end Step

theorem periodInv_chargeStep {id : ℤ} (a : Account) (l : ChargeLabel)
    (h : PeriodInv id a.db a.bills) (hok : inPeriod id a l = true) :
    PeriodInv id (chargeStep plans id a l).db (chargeStep plans id a l).bills := by
  obtain ⟨elapsed, op⟩ := l
  unfold chargeStep
  dsimp only
  cases hperform : performCharge plans (a.clock + elapsed) a.db op with
  | error e => exact h
  | ok db' =>
    cases op with
    | preConsume requestId userId amount =>
      simp only [performCharge] at hperform
      cases hpre : preConsumeUserSubscription (plans.reset (a.clock + elapsed)) a.db requestId userId
          (a.clock + elapsed) amount with
      | error e =>
        rw [hpre] at hperform
        cases hperform
      | ok result =>
        rw [hpre] at hperform
        cases hperform
        exact periodInv_preConsume h hpre
    | settle requestId actual => exact periodInv_settle h hok hperform
    | refund requestId => exact periodInv_refund h hok hperform
    | resetDue limit =>
      cases hperform
      exact periodInv_resetDue h (a.clock + elapsed) limit

/-- As long as requests are settled and refunded in their own period, the used amount is what the period's requests cost. -/
theorem usage_is_period_charges (plans : Plans) (id : ℤ) (a : Account)
    (hused : amountUsedOf a.db.subs id = 0) (hbills : a.bills = Table.empty) (ls : List ChargeLabel)
    (hls : Along (chargeStep plans id) (fun a l => inPeriod id a l = true) a ls) :
    amountUsedOf (run (chargeStep plans id) a ls).db.subs id = (run (chargeStep plans id) a ls).bills.sum Bill.cost := by
  have hstart : PeriodInv id a.db a.bills := by
    rw [hbills]
    exact ⟨hused, fun bill hbill => by cases hbill⟩
  exact (@run_invariant _ _ _ _ (fun a => PeriodInv id a.db a.bills) (fun a l => periodInv_chargeStep a l)
    a ls hstart hls).used

def sampleAccount : Account := ⟨0, sampleBooks.db, Table.empty⟩

theorem usage_is_period_charges_two_periods :
    amountUsedOf (run (chargeStep samplePlans 1) sampleAccount [⟨10, .preConsume "a" 7 40⟩,
        ⟨5, .settle "a" 55⟩, ⟨4000, .preConsume "b" 7 60⟩, ⟨3, .preConsume "c" 7 20⟩, ⟨9, .settle "b" 30⟩,
        ⟨1, .refund "c"⟩]).db.subs 1 =
      (run (chargeStep samplePlans 1) sampleAccount [⟨10, .preConsume "a" 7 40⟩,
        ⟨5, .settle "a" 55⟩, ⟨4000, .preConsume "b" 7 60⟩, ⟨3, .preConsume "c" 7 20⟩, ⟨9, .settle "b" 30⟩,
        ⟨1, .refund "c"⟩]).bills.sum Bill.cost :=
  usage_is_period_charges samplePlans 1 sampleAccount (by decide) rfl _ (by decide +kernel)

/-- A request of 10 is refunded after the hourly reset: the 5 that the new period has used are gone. -/
theorem refund_after_reset_frees_new_period :
    let a := run (chargeStep samplePlans 1) sampleAccount [⟨10, .preConsume "a" 7 10⟩, ⟨4000, .resetDue 0⟩,
      ⟨10, .preConsume "b" 7 5⟩]
    let a' := chargeStep samplePlans 1 a ⟨10, .refund "a"⟩
    amountUsedOf a.db.subs 1 = 5 ∧ a.bills.rows = [⟨"b", 5⟩] ∧
      amountUsedOf a'.db.subs 1 = 0 ∧ a'.bills.rows = [⟨"b", 5⟩] ∧ a'.bills.sum Bill.cost = 5 := by
  decide +kernel

end HotAI.Billing
