import HotAI.Subscription.Rows

/-! # The balances a billed request works on

The quota of the user, the remaining and used quota of the token, the subscriptions and the pre-consume records. Every
update is one transaction, and a failed one leaves no trace. -/
namespace HotAI.Billing
open HotAI.Lib HotAI.Subscription List Table

inductive RecordStatus where
  | consumed
  | refunded
deriving DecidableEq, Repr

/-- `SubscriptionPreConsumeRecord`; the request id is unique in the table. -/
structure PreConsumeRecord where
  requestId : String
  userId : ℤ
  userSubscriptionId : ℤ
  preConsumed : ℤ
  status : RecordStatus
deriving DecidableEq

structure Store where
  userQuota : ℤ
  tokenRemainQuota : ℤ
  tokenUsedQuota : ℤ
  subs : SubTable
  records : Table PreConsumeRecord PreConsumeRecord.requestId
deriving DecidableEq

inductive StoreError where
  | negativeQuota
  | tokenQuotaNotEnough (remain need : ℤ)
  | invalidUserId
  | requestIdEmpty
  | amountNotPositive
  | alreadyRefunded
  | noActiveSubscription
  | invalidPlanId
  | subscriptionQuotaInsufficient (need : ℤ)
  | invalidUserSubscriptionId
  | recordNotFound
  | usedExceedsTotal (used total : ℤ)
  | userQuotaNotEnough (remain : ℤ)
  | userQuotaBelowNeed (remain need : ℤ)
  | database (message : String)
deriving DecidableEq, Repr

/-! ## User and token quota -/

def increaseUserQuota (db : Store) (quota : ℤ) : Except StoreError Store :=
  if quota < 0 then .error .negativeQuota else .ok { db with userQuota := db.userQuota + quota }

def decreaseUserQuota (db : Store) (quota : ℤ) : Except StoreError Store :=
  if quota < 0 then .error .negativeQuota else .ok { db with userQuota := db.userQuota - quota }

def increaseTokenQuota (db : Store) (quota : ℤ) : Except StoreError Store :=
  if quota < 0 then .error .negativeQuota
  else .ok { db with tokenRemainQuota := db.tokenRemainQuota + quota
                     tokenUsedQuota := db.tokenUsedQuota - quota }

def decreaseTokenQuota (db : Store) (quota : ℤ) : Except StoreError Store :=
  if quota < 0 then .error .negativeQuota
  else .ok { db with tokenRemainQuota := db.tokenRemainQuota - quota
                     tokenUsedQuota := db.tokenUsedQuota + quota }

def preConsumeTokenQuota (db : Store) (isPlayground tokenUnlimited : Bool) (quota : ℤ) : Except StoreError Store :=
  if quota < 0 then .error .negativeQuota
  else if isPlayground then .ok db
  else if !tokenUnlimited && db.tokenRemainQuota < quota then
    .error (.tokenQuotaNotEnough db.tokenRemainQuota quota)
  else decreaseTokenQuota db quota

/-! ## Subscriptions -/

def postConsumeUserSubscriptionDelta (db : Store) (userSubscriptionId delta : ℤ) : Except StoreError Store :=
  if userSubscriptionId ≤ 0 then .error .invalidUserSubscriptionId
  else if delta = 0 then .ok db
  else match db.subs.get userSubscriptionId with
    | none => .error .recordNotFound
    | some sub =>
        let newUsed := max 0 (sub.amountUsed + delta)
        if 0 < sub.amountTotal ∧ sub.amountTotal < newUsed then
          .error (.usedExceedsTotal newUsed sub.amountTotal)
        else .ok { db with subs := db.subs.put (sub.withUsed newUsed) }

structure PreConsumeResult where
  userSubscriptionId : ℤ
  preConsumed : ℤ
  amountTotal : ℤ
  amountUsedBefore : ℤ
  amountUsedAfter : ℤ
deriving DecidableEq

/-- The scan of `PreConsumeUserSubscription`: rows looked at are saved with their due `reset`, the first with enough left is
charged. Returns that row, its used amount before and the table. -/
def chargeFirst (reset : UserSubscription → Except StoreError UserSubscription) (amount : ℤ) :
    List UserSubscription → SubTable → Except StoreError (UserSubscription × ℤ × SubTable)
  | [], _ => .error (.subscriptionQuotaInsufficient amount)
  | candidate :: rest, subs =>
      match reset candidate with
      | .error e => .error e
      | .ok sub =>
          if 0 < sub.amountTotal ∧ sub.amountTotal - sub.amountUsed < amount then
            chargeFirst reset amount rest (subs.put sub)
          else
            let charged := sub.withUsed (sub.amountUsed + amount)
            .ok (charged, sub.amountUsed, (subs.put sub).put charged)

def activeSubs (db : Store) (userId now : ℤ) : List UserSubscription :=
  (db.subs.rows.filter fun sub =>
    sub.userId = userId ∧ sub.status = .active ∧ now < sub.endTime).insertionSort endsBefore

/-- `PreConsumeUserSubscription`. A request id that has a record already is answered from it. -/
def preConsumeUserSubscription (reset : UserSubscription → Except StoreError UserSubscription) (db : Store)
    (requestId : String) (userId now amount : ℤ) : Except StoreError (PreConsumeResult × Store) :=
  if userId ≤ 0 then .error .invalidUserId
  else if trimSpace requestId = "" then .error .requestIdEmpty
  else if amount ≤ 0 then .error .amountNotPositive
  else match db.records.get requestId with
    | some existing =>
        if existing.status = .refunded then .error .alreadyRefunded
        else match db.subs.get existing.userSubscriptionId with
          | none => .error .recordNotFound
          | some sub => .ok (⟨sub.id, existing.preConsumed, sub.amountTotal, sub.amountUsed,
              sub.amountUsed⟩, db)
    | none =>
        let candidates := activeSubs db userId now
        if candidates.isEmpty then .error .noActiveSubscription
        else match chargeFirst reset amount candidates db.subs with
          | .error e => .error e
          | .ok (sub, usedBefore, subs) =>
              let record : PreConsumeRecord := ⟨requestId, userId, sub.id, amount, .consumed⟩
              .ok (⟨sub.id, amount, sub.amountTotal, usedBefore, sub.amountUsed⟩,
                { db with subs := subs, records := db.records.add record })

def refundSubscriptionPreConsume (db : Store) (requestId : String) : Except StoreError Store :=
  if trimSpace requestId = "" then .error .requestIdEmpty
  else match db.records.get requestId with
    | none => .error .recordNotFound
    | some record =>
        if record.status = .refunded then .ok db
        else
          let mark (db : Store) : Store := { db with
            records := db.records.put { record with status := .refunded } }
          if record.preConsumed ≤ 0 then .ok (mark db)
          else (postConsumeUserSubscriptionDelta db record.userSubscriptionId
            (-record.preConsumed)).map mark

/-! ## What a successful update does -/

variable {reset : UserSubscription → Except StoreError UserSubscription} {quota : ℤ} {res : PreConsumeResult}
    {userId now amount : ℤ}

theorem increaseUserQuota_eq (db : Store) (h : 0 ≤ quota) :
    increaseUserQuota db quota = .ok { db with userQuota := db.userQuota + quota } :=
  if_neg (not_lt.mpr h)

theorem decreaseUserQuota_eq (db : Store) (h : 0 ≤ quota) :
    decreaseUserQuota db quota = .ok { db with userQuota := db.userQuota - quota } :=
  if_neg (not_lt.mpr h)

theorem increaseTokenQuota_eq (db : Store) (h : 0 ≤ quota) : increaseTokenQuota db quota = .ok { db with
      tokenRemainQuota := db.tokenRemainQuota + quota
      tokenUsedQuota := db.tokenUsedQuota - quota } :=
  if_neg (not_lt.mpr h)

theorem decreaseTokenQuota_eq (db : Store) (h : 0 ≤ quota) : decreaseTokenQuota db quota = .ok { db with
      tokenRemainQuota := db.tokenRemainQuota - quota
      tokenUsedQuota := db.tokenUsedQuota + quota } :=
  if_neg (not_lt.mpr h)

theorem preConsumeTokenQuota_cases (db : Store) (isPlayground tokenUnlimited : Bool) (h : 0 ≤ quota) :
    preConsumeTokenQuota db isPlayground tokenUnlimited quota = .ok (if isPlayground then db else
      { db with tokenRemainQuota := db.tokenRemainQuota - quota
                tokenUsedQuota := db.tokenUsedQuota + quota }) ∨
    preConsumeTokenQuota db isPlayground tokenUnlimited quota =
      .error (.tokenQuotaNotEnough db.tokenRemainQuota quota) := by
  unfold preConsumeTokenQuota
  rw [if_neg (not_lt.mpr h), decreaseTokenQuota_eq db h]
  cases isPlayground with
  | true => exact .inl rfl
  | false =>
    by_cases hshort : (!tokenUnlimited && decide (db.tokenRemainQuota < quota)) = true
    · exact .inr (by simp [hshort])
    · exact .inl (by simp [hshort])

variable {db db' : Store}

theorem postConsume_ok {id delta : ℤ} (h : postConsumeUserSubscriptionDelta db id delta = .ok db') :
    (delta = 0 ∧ db' = db ∨ delta ≠ 0 ∧ amountUsedOf db'.subs id = max 0 (amountUsedOf db.subs id + delta)) ∧
      db' = { db with subs := db'.subs } := by
  unfold postConsumeUserSubscriptionDelta at h
  split at h
  · cases h
  split at h
  · next hzero =>
    cases h
    exact ⟨.inl ⟨hzero, rfl⟩, rfl⟩
  next hdelta =>
  split at h
  · cases h
  · next sub hsub =>
    dsimp only at h
    split at h
    · cases h
    · cases h
      have hid : sub.id = id := key_of_get hsub
      subst hid
      refine ⟨.inr ⟨hdelta, ?_⟩, rfl⟩
      have hstored : db.subs.get (sub.withUsed (max 0 (sub.amountUsed + delta))).id = some sub := hsub
      rw [amountUsedOf_eq hsub]
      exact amountUsedOf_put hstored

theorem postConsume_other {id other delta : ℤ}
    (h : postConsumeUserSubscriptionDelta db id delta = .ok db') (hne : other ≠ id) :
    amountUsedOf db'.subs other = amountUsedOf db.subs other := by
  unfold postConsumeUserSubscriptionDelta at h
  split at h
  · cases h
  split at h
  · cases h
    rfl
  split at h
  · cases h
  · next sub hsub =>
    dsimp only at h
    split at h
    · cases h
    · cases h
      refine amountUsedOf_put_of_ne ?_
      rw [show (sub.withUsed (max 0 (sub.amountUsed + delta))).id = sub.id from rfl, key_of_get hsub]
      exact hne

/-- The reset that is due does not touch the row's identity or its used amount. -/
def NoReset (reset : UserSubscription → Except StoreError UserSubscription) : Prop :=
  ∀ sub sub', reset sub = .ok sub' → sub'.id = sub.id ∧ sub'.amountUsed = sub.amountUsed

/-- One row of the list is charged after its reset; every other is as it was or as its reset leaves it. -/
structure Charged (reset : UserSubscription → Except StoreError UserSubscription) (amount : ℤ)
    (candidates : List UserSubscription) (subs : SubTable) (charged : UserSubscription) (usedBefore : ℤ)
    (subs' : SubTable) : Prop where
  row : ∃ candidate ∈ candidates, ∃ sub, reset candidate = .ok sub ∧ usedBefore = sub.amountUsed ∧
    charged = sub.withUsed (sub.amountUsed + amount) ∧
    (0 < sub.amountTotal → sub.amountUsed + amount ≤ sub.amountTotal)
  stored : subs'.get charged.id = some charged
  others : ∀ id, id ≠ charged.id → subs'.get id = subs.get id ∨
    ∃ old ∈ candidates, old.id = id ∧ ∃ new, reset old = .ok new ∧ subs'.get id = some new

theorem rest_rows_put {subs : SubTable} {sub first : UserSubscription} {rest : List UserSubscription}
    (hid : sub.id = first.id) (hrows : ∀ row ∈ first :: rest, subs.get row.id = some row)
    (hfirst : first.id ∉ rest.map UserSubscription.id) :
    ∀ row ∈ rest, (subs.put sub).get row.id = some row := by
  intro row hrow
  rw [get_put_of_ne]
  · exact hrows row (mem_cons_of_mem _ hrow)
  · rw [hid]
    exact fun heq => hfirst (heq ▸ mem_map_of_mem hrow)

theorem chargeFirst_ok {amount : ℤ}
    (hid : ∀ sub sub', reset sub = .ok sub' → sub'.id = sub.id) {candidates : List UserSubscription}
    {subs subs' : SubTable} {charged : UserSubscription} {usedBefore : ℤ}
    (hrows : ∀ sub ∈ candidates, subs.get sub.id = some sub)
    (hnodup : (candidates.map UserSubscription.id).Nodup)
    (h : chargeFirst reset amount candidates subs = .ok (charged, usedBefore, subs')) :
    Charged reset amount candidates subs charged usedBefore subs' := by
  induction candidates generalizing subs with
  | nil => cases h
  | cons first rest ih =>
    rw [map_cons, nodup_cons] at hnodup
    have hfirst := hrows first (mem_cons_self ..)
    unfold chargeFirst at h
    cases hreset : reset first with
    | error e =>
      rw [hreset] at h
      cases h
    | ok sub =>
      rw [hreset] at h
      dsimp only at h
      have hsubid := hid first sub hreset
      have hget : subs.get sub.id = some first := hsubid ▸ hfirst
      split at h
      · -- the row is left in its reset form, and the scan goes on with rows of other ids
        have hrest := rest_rows_put hsubid hrows hnodup.1
        obtain ⟨⟨candidate, hmem, hrow⟩, hstored, hothers⟩ := ih hrest hnodup.2 h
        refine ⟨⟨candidate, mem_cons_of_mem _ hmem, hrow⟩, hstored, fun id hne => ?_⟩
        by_cases hsame : id = sub.id
        · subst hsame
          -- the row that was left is not in the rest of the list
          rcases hothers sub.id hne with heq | ⟨old, hold, holdid, -⟩
          · rw [get_put_self hget] at heq
            exact .inr ⟨first, mem_cons_self .., hsubid.symm, sub, hreset, heq⟩
          · have hmap : old.id ∈ rest.map UserSubscription.id := mem_map_of_mem hold
            rw [holdid, hsubid] at hmap
            exact absurd hmap hnodup.1
        · rcases hothers id hne with heq | ⟨old, hold, holdid, hnew⟩
          · rw [get_put_of_ne hsame] at heq
            exact .inl heq
          · exact .inr ⟨old, mem_cons_of_mem _ hold, holdid, hnew⟩
      · next henough =>
        cases h
        have hput := get_put_self hget
        refine ⟨⟨first, mem_cons_self .., sub, hreset, rfl, rfl, fun hpos => ?_⟩,
          get_put_self hput, fun id hne => .inl ?_⟩
        · by_contra hover
          exact henough ⟨hpos, by omega⟩
        · have hne' : id ≠ sub.id := hne
          rw [get_put_of_ne hne, get_put_of_ne hne']

theorem mem_activeSubs {userId now : ℤ} {sub : UserSubscription} (h : sub ∈ activeSubs db userId now) :
    sub ∈ db.subs.rows ∧ sub.userId = userId ∧ sub.status = .active ∧ now < sub.endTime := by
  have hmem := (mem_insertionSort _).mp h
  rw [mem_filter, decide_eq_true_eq] at hmem
  exact hmem

theorem nodup_activeSubs (db : Store) (userId now : ℤ) : ((activeSubs db userId now).map UserSubscription.id).Nodup := by
  have hperm := (perm_insertionSort endsBefore (db.subs.rows.filter fun sub =>
    sub.userId = userId ∧ sub.status = .active ∧ now < sub.endTime)).map UserSubscription.id
  exact hperm.nodup_iff.mpr (db.subs.unique.sublist (filter_sublist.map _))

variable {requestId : String}

/-- A known request id changes nothing; a new one leaves a record and charges one of the user's active subscriptions. -/
theorem preConsumeUserSubscription_cases
    (h : preConsumeUserSubscription reset db requestId userId now amount = .ok (res, db')) :
    0 < amount ∧ trimSpace requestId ≠ "" ∧ ((∃ record, db.records.get requestId = some record ∧ db' = db) ∨
        db.records.get requestId = none ∧ ∃ charged usedBefore,
          chargeFirst reset amount (activeSubs db userId now) db.subs = .ok (charged, usedBefore, db'.subs) ∧
          res = ⟨charged.id, amount, charged.amountTotal, usedBefore, charged.amountUsed⟩ ∧
          db' = { db with
            subs := db'.subs
            records := db.records.add ⟨requestId, userId, charged.id, amount, .consumed⟩ }) := by
  unfold preConsumeUserSubscription at h
  split at h
  · cases h
  split at h
  · cases h
  next hblank =>
  split at h
  · cases h
  next hamount =>
  refine ⟨by omega, hblank, ?_⟩
  split at h
  · next existing hexisting =>
    split at h
    · cases h
    · split at h
      · cases h
      · cases h
        exact .inl ⟨existing, hexisting, rfl⟩
  · next hfresh =>
    dsimp only at h
    split at h
    · cases h
    split at h
    · cases h
    next charged usedBefore subs hcharge =>
    cases h
    exact .inr ⟨hfresh, charged, usedBefore, hcharge, rfl, rfl⟩

theorem activeSubs_rows {userId now : ℤ} : ∀ sub ∈ activeSubs db userId now, db.subs.get sub.id = some sub :=
  fun _ hsub => get_of_mem (mem_activeSubs hsub).1

/-- A first pre-consumption under a request id charges its subscription by the amount and leaves a
record of it. -/
theorem preConsumeUserSubscription_ok (hreset : NoReset reset) (hfresh : db.records.get requestId = none)
    (h : preConsumeUserSubscription reset db requestId userId now amount = .ok (res, db')) :
    0 < amount ∧ trimSpace requestId ≠ "" ∧ res.preConsumed = amount ∧ 0 < res.userSubscriptionId ∧
      amountUsedOf db'.subs res.userSubscriptionId = amountUsedOf db.subs res.userSubscriptionId + amount ∧
      db'.records.get requestId = some ⟨requestId, userId, res.userSubscriptionId, amount, .consumed⟩ ∧
      db' = { db with subs := db'.subs, records := db'.records } := by
  obtain ⟨hamount, hblank, ⟨record, hrecord, -⟩ | ⟨-, charged, usedBefore, hcharged, rfl, hdb⟩⟩ :=
    preConsumeUserSubscription_cases h
  · rw [hfresh] at hrecord
    cases hrecord
  · obtain ⟨⟨candidate, hmem, sub, hsub, -, heq, -⟩, hstored, -⟩ :=
      chargeFirst_ok (fun sub sub' heq => (hreset sub sub' heq).1) activeSubs_rows (nodup_activeSubs ..)
        hcharged
    obtain ⟨hkey, hused⟩ := hreset candidate sub hsub
    have hcandidate : db.subs.get charged.id = some candidate := by
      rw [show charged.id = candidate.id by rw [heq]; exact hkey]
      exact activeSubs_rows candidate hmem
    refine ⟨hamount, hblank, rfl, charged.id_pos, ?_, ?_, ?_⟩
    · rw [amountUsedOf_eq hstored, amountUsedOf_eq hcandidate, heq, ← hused]
      rfl
    · rw [hdb]
      exact get_add_self hfresh
    · rw [hdb]

/-- A refunded record changes nothing; otherwise its amount is given back and it is marked. -/
theorem refundSubscriptionPreConsume_cases (h : refundSubscriptionPreConsume db requestId = .ok db') :
    ∃ record, db.records.get requestId = some record ∧
      (record.status = .refunded ∧ db' = db ∨ record.status = .consumed ∧ ∃ db₁,
        (record.preConsumed ≤ 0 ∧ db₁ = db ∨ 0 < record.preConsumed ∧
          postConsumeUserSubscriptionDelta db record.userSubscriptionId (-record.preConsumed) = .ok db₁) ∧
        db' = { db₁ with records := db₁.records.put { record with status := .refunded } }) := by
  unfold refundSubscriptionPreConsume at h
  split at h
  · cases h
  split at h
  · cases h
  next record hrecord =>
  refine ⟨record, hrecord, ?_⟩
  cases hstatus : record.status with
  | refunded =>
    rw [hstatus] at h
    cases h
    exact .inl ⟨rfl, rfl⟩
  | consumed =>
    rw [hstatus, if_neg (by decide)] at h
    split at h
    · next hnone =>
      cases h
      exact .inr ⟨rfl, db, .inl ⟨hnone, rfl⟩, rfl⟩
    · next hpos =>
      cases hpost : postConsumeUserSubscriptionDelta db record.userSubscriptionId
          (-record.preConsumed) with
      | error e =>
        rw [hpost] at h
        cases h
      | ok db₁ =>
        rw [hpost] at h
        cases h
        exact .inr ⟨rfl, db₁, .inr ⟨not_le.mp hpos, rfl⟩, rfl⟩

theorem refundSubscriptionPreConsume_ok {userId id amount : ℤ}
    (hrecord : db.records.get requestId = some ⟨requestId, userId, id, amount, .consumed⟩)
    (hpos : 0 < amount) (h : refundSubscriptionPreConsume db requestId = .ok db') :
    amountUsedOf db'.subs id = max 0 (amountUsedOf db.subs id - amount) ∧
      db' = { db with subs := db'.subs, records := db'.records } := by
  obtain ⟨record, hget, hcases⟩ := refundSubscriptionPreConsume_cases h
  rw [hrecord] at hget
  cases hget
  rcases hcases with ⟨hrefunded, -⟩ | ⟨-, db₁, ⟨hnone, -⟩ | ⟨-, hpost⟩, rfl⟩
  · cases hrefunded
  · exact absurd hpos (not_lt.mpr hnone)
  · obtain ⟨⟨hzero, -⟩ | ⟨-, hused⟩, hframe⟩ := postConsume_ok hpost
    · exact absurd (neg_eq_zero.mp hzero) hpos.ne'
    refine ⟨hused, ?_⟩
    rw [hframe]

end HotAI.Billing
