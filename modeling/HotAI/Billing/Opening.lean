import HotAI.Billing.Conservation
import HotAI.Billing.PeriodCharges

/-! # Opening a billing session by the user's preference (`NewBillingSession`)

Up to two funding sources are tried, each after a charge on the token that is taken back when the source fails. -/
namespace HotAI.Billing
open HotAI.Lib HotAI.Subscription Session

inductive BillingPreference where
  | subscriptionFirst
  | walletFirst
  | subscriptionOnly
  | walletOnly
deriving DecidableEq, Repr

def normalizeBillingPreference (pref : String) : BillingPreference :=
  match trimSpace pref with
  | "subscription_first" => .subscriptionFirst
  | "wallet_first" => .walletFirst
  | "subscription_only" => .subscriptionOnly
  | "wallet_only" => .walletOnly
  | _ => .subscriptionFirst

def hasActiveUserSubscription (env : Env) (db : Store) (userId : ℤ) : Except StoreError Bool :=
  if userId ≤ 0 then .error .invalidUserId
  else env.accessing .hasSubscription (.ok (db.subs.rows.any fun sub =>
    sub.userId = userId ∧ sub.status = .active ∧ env.localNow < sub.endTime))

def userActiveSubscriptionsAllowWalletOverflow (env : Env) (db : Store) (userId : ℤ) : Except StoreError Bool :=
  if userId ≤ 0 then .error .invalidUserId
  else env.accessing .walletOverflow (.ok !(db.subs.rows.any fun sub =>
    sub.userId = userId ∧ sub.status = .active ∧ env.localNow < sub.endTime ∧
      sub.allowWalletOverflow = false))

abbrev Opened := Except (ApiError × Store) (Session × Store)

def newBillingSession (env : Env) (billingPreference : String) (info : RelayInfo) (db : Store)
    (preConsumedQuota : ℤ) : Opened :=
  match normalizeBillingPreference billingPreference with
  | .subscriptionOnly => trySubscription env info db preConsumedQuota
  | .walletOnly => tryWallet env info db preConsumedQuota
  | .walletFirst =>
      match tryWallet env info db preConsumedQuota with
      | .error (e, db) =>
          if e.code = .insufficientUserQuota then trySubscription env info db preConsumedQuota
          else .error (e, db)
      | .ok opened => .ok opened
  | .subscriptionFirst =>
      match hasActiveUserSubscription env db info.userId with
      | .error e => .error (⟨.queryDataError, e⟩, db)
      | .ok false => tryWallet env info db preConsumedQuota
      | .ok true =>
          match trySubscription env info db preConsumedQuota with
          | .error (e, db) =>
              if e.code = .insufficientUserQuota then
                match userActiveSubscriptionsAllowWalletOverflow env db info.userId with
                | .error e' => .error (⟨.queryDataError, e'⟩, db)
                | .ok true => tryWallet env info db preConsumedQuota
                | .ok false => .error (e, db)
              else .error (e, db)
          | .ok opened => .ok opened

/-! ## What a session has to have charged -/

def Session.getPreConsumedQuota (s : Session) : ℤ := s.preConsumedQuota

/-- One funding source and the token are down by the session's amount; a due reset counts from zero. -/
structure BilledOnce (resets : ℤ → Bool) (db : Store) (s : Session) (db' : Store) : Prop where
  token : db'.tokenRemainQuota =
    db.tokenRemainQuota - if s.info.isPlayground then 0 else s.getPreConsumedQuota
  wallet : db'.userQuota = db.userQuota - match s.funding with
    | .wallet _ => s.getPreConsumedQuota
    | .subscription _ => 0
  subscriptions : ∀ id, amountUsedOf db'.subs id = match s.funding with
    | .wallet _ => amountUsedOf db.subs id
    | .subscription sub => (if resets id then 0 else amountUsedOf db.subs id) +
        if sub.subscriptionId = id then s.getPreConsumedQuota else 0

/-- What `trySubscription` takes: at least one unit. -/
def subConsume (preConsumedQuota : ℤ) : ℤ := if preConsumedQuota ≤ 0 then 1 else preConsumedQuota

theorem subConsume_pos (preConsumedQuota : ℤ) : 0 < subConsume preConsumedQuota := by
  unfold subConsume
  split <;> omega

/-- An error leaves the balances as they were; a session has charged one source and the token. -/
def LeavesNoTrace (plans : Plans) (env : Env) (info : RelayInfo) (db : Store) (preConsumedQuota : ℤ) : Opened → Prop
  | .error (_, db') => db'.userQuota = db.userQuota ∧ db'.tokenRemainQuota = db.tokenRemainQuota ∧
      ∀ id, amountUsedOf db'.subs id = amountUsedOf db.subs id
  | .ok (s, db') => BilledOnce (fun id => (db.records.get info.requestId).isNone &&
      scanResets plans env.now (subConsume preConsumedQuota) id (activeSubs db info.userId env.now)) db s db'

def Env.withPlans (env : Env) (plans : Plans) : Env := { env with reset := plans.reset env.now }

/-! ## The states in which a session is billed wrongly -/

section Conditions

variable (env : Env) (info : RelayInfo) (db : Store)

def tokenAdmits (amount : ℤ) : Bool :=
  info.isPlayground || (env.failure .token).isNone && (info.tokenUnlimited || amount ≤ db.tokenRemainQuota)

def looksUp (env : Env) (info : RelayInfo) : Bool :=
  0 < info.userId && trimSpace info.requestId ≠ "" && (env.failure .subscription).isNone

def reachesSubscription (amount : ℤ) : Bool := tokenAdmits env info db amount && looksUp env info

def hasLiveRecord (db : Store) (requestId : String) : Bool :=
  match db.records.get requestId with
  | none => false
  | some record => record.status = .consumed && (db.subs.get record.userSubscriptionId).isSome

def isShort (reset : UserSubscription → Except StoreError UserSubscription) (amount : ℤ)
    (candidate : UserSubscription) : Bool :=
  match reset candidate with
  | .error _ => false
  | .ok sub => 0 < sub.amountTotal ∧ sub.amountTotal - sub.amountUsed < amount

def usedUp (amount : ℤ) : Bool :=
  (db.records.get info.requestId).isNone && ((env.failure .subscriptionScan).isSome ||
    (activeSubs db info.userId env.now).all (isShort env.reset amount))

def walletUnpaid (preConsumedQuota : ℤ) : Bool :=
  preConsumedQuota < 0 && (env.failure .userQuota).isNone && 0 < db.userQuota &&
    !(newSession { info with userQuota := db.userQuota } (.wallet 0)).shouldTrust env

def walletShort (preConsumedQuota : ℤ) : Bool :=
  (env.failure .userQuota).isNone && (db.userQuota ≤ 0 || db.userQuota < preConsumedQuota)

def answeredFromRecord (preConsumedQuota : ℤ) : Bool :=
  reachesSubscription env info db (subConsume preConsumedQuota) && hasLiveRecord db info.requestId

def subscriptionShort (preConsumedQuota : ℤ) : Bool :=
  reachesSubscription env info db (subConsume preConsumedQuota) &&
    usedUp env info db (subConsume preConsumedQuota)

def misbilled (billingPreference : String) (preConsumedQuota : ℤ) : Bool :=
  match normalizeBillingPreference billingPreference with
  | .subscriptionOnly => answeredFromRecord env info db preConsumedQuota
  | .walletOnly => walletUnpaid env info db preConsumedQuota
  | .walletFirst => walletUnpaid env info db preConsumedQuota ||
      walletShort env db preConsumedQuota && answeredFromRecord env info db preConsumedQuota
  | .subscriptionFirst =>
      match hasActiveUserSubscription env db info.userId with
      | .error _ => false
      | .ok false => walletUnpaid env info db preConsumedQuota
      | .ok true => answeredFromRecord env info db preConsumedQuota ||
          subscriptionShort env info db preConsumedQuota &&
            (match userActiveSubscriptionsAllowWalletOverflow env db info.userId with
            | .ok true => walletUnpaid env info db preConsumedQuota
            | _ => false)

end Conditions

/-! ## The scan -/

variable {amount quota : ℤ} {plans : Plans} {db : Store}

theorem chargeFirst_short {reset : UserSubscription → Except StoreError UserSubscription}
    (hreset : ∀ sub e, reset sub = .error e → e.isSubscriptionShort = false) (candidates : List UserSubscription) (subs : SubTable) :
    match chargeFirst reset amount candidates subs with
    | .error e => e.isSubscriptionShort = candidates.all (isShort reset amount)
    | .ok _ => candidates.all (isShort reset amount) = false := by
  induction candidates generalizing subs with
  | nil => rfl
  | cons first rest ih =>
    unfold chargeFirst
    rw [List.all_cons]
    cases hfirst : reset first with
    | error e =>
      simp only [isShort, hfirst, Bool.false_and]
      exact hreset first e hfirst
    | ok sub =>
      have hshort : isShort reset amount first = decide (0 < sub.amountTotal ∧ sub.amountTotal - sub.amountUsed < amount) := by
        simp only [isShort, hfirst]
      rw [hshort]
      by_cases hless : 0 < sub.amountTotal ∧ sub.amountTotal - sub.amountUsed < amount
      · simp only [if_pos hless, decide_eq_true hless, Bool.true_and]
        exact ih _
      · simp [if_neg hless, decide_eq_false hless]

theorem Plans.reset_error {now : ℤ} {sub : UserSubscription} {e : StoreError}
    (h : plans.reset now sub = .error e) : e.isSubscriptionShort = false := by
  unfold Plans.reset Plans.getSubscriptionPlanById at h
  split at h
  · cases h
    rfl
  split at h
  · cases h
    rfl
  · cases h

/-! ## The token's part -/

theorem preConsumeToken_cases (s : Session) (env : Env) (db : Store) (hquota : 0 < quota) :
    tokenAdmits env s.info db quota = true ∧ s.preConsumeToken env db quota =
        .ok ({ s with tokenConsumed := quota }, chargeToken s.info.isPlayground quota db) ∨
      tokenAdmits env s.info db quota = false ∧ ∃ e, s.preConsumeToken env db quota = .error e := by
  unfold preConsumeToken tokenAdmits preConsumeTokenQuota
  rw [if_pos hquota, if_neg (not_lt.mpr hquota.le), decreaseTokenQuota_eq db hquota.le]
  cases hplay : s.info.isPlayground with
  | true => exact .inl ⟨rfl, rfl⟩
  | false =>
    simp only [Bool.false_eq_true, if_false, Bool.false_or, Env.accessing]
    cases env.failure .token with
    | some message => exact .inr ⟨rfl, _, rfl⟩
    | none =>
      by_cases hshort : (!s.info.tokenUnlimited && decide (db.tokenRemainQuota < quota)) = true
      · rw [if_pos hshort]
        simp only [Bool.and_eq_true, Bool.not_eq_true', decide_eq_true_eq] at hshort
        refine .inr ⟨?_, _, rfl⟩
        rw [hshort.1]
        exact decide_eq_false (not_le.mpr hshort.2)
      · rw [if_neg hshort]
        refine .inl ⟨?_, rfl⟩
        cases hunlimited : s.info.tokenUnlimited with
        | true => rfl
        | false =>
          rw [hunlimited] at hshort
          simp only [Bool.not_false, Bool.true_and, decide_eq_true_eq, not_lt] at hshort
          exact decide_eq_true hshort

theorem rollback_chargeToken (isPlayground : Bool) (hquota : 0 < quota) (db : Store) :
    (if 0 < quota ∧ (!isPlayground) = true then
      (logged (chargeToken isPlayground quota db) (increaseTokenQuota (chargeToken isPlayground quota db) quota)).1
    else chargeToken isPlayground quota db) = db := by
  cases isPlayground with
  | true =>
    rw [if_neg (by simp)]
    rfl
  | false =>
    rw [if_pos ⟨hquota, rfl⟩, increaseTokenQuota_eq _ hquota.le]
    simp [logged, chargeToken]

theorem preConsume_refused (s : Session) (env : Env) (db : Store) (hquota : 0 < quota)
    (htrust : s.shouldTrust env = false) (hadmits : tokenAdmits env s.info db quota = false) :
    ∃ e, s.preConsume env db quota = .error (⟨.preConsumeTokenQuotaFailed, e⟩, db) := by
  rcases preConsumeToken_cases { s with trusted := s.trusted || false } env db hquota with
    ⟨hadmits', -⟩ | ⟨-, e, htoken⟩
  · exact absurd (hadmits.symm.trans hadmits') (by simp)
  · unfold preConsume
    rw [htrust]
    simp only [Bool.false_eq_true, if_false, htoken]
    exact ⟨e, rfl⟩

theorem preConsume_admitted (s : Session) (env : Env) (db : Store) (hquota : 0 < quota)
    (htrust : s.shouldTrust env = false) (hadmits : tokenAdmits env s.info db quota = true) :
    s.preConsume env db quota =
      match s.funding.preConsume env (chargeToken s.info.isPlayground quota db) quota with
      | .error e => .error (⟨if e.isSubscriptionShort then .insufficientUserQuota else .updateDataError, e⟩, db)
      | .ok (funding, db') => .ok (Session.syncRelayInfo { s with
          funding := funding
          preConsumedQuota := quota
          tokenConsumed := quota
          trusted := s.trusted || false }, db') := by
  rcases preConsumeToken_cases { s with trusted := s.trusted || false } env db hquota with
    ⟨-, htoken⟩ | ⟨hadmits', -⟩
  · unfold preConsume
    rw [htrust]
    simp only [Bool.false_eq_true, if_false, htoken]
    cases s.funding.preConsume env (chargeToken s.info.isPlayground quota db) quota with
    | error e =>
      rw [rollback_chargeToken s.info.isPlayground hquota db]
    | ok result => rfl
  · exact absurd (hadmits.symm.trans hadmits') (by simp)

/-! ## The subscription's part -/

variable {requestId : String} {userId now : ℤ}

theorem preConsumeUserSubscription_known {reset : UserSubscription → Except StoreError UserSubscription}
    {record : PreConsumeRecord}
    (huser : 0 < userId) (hblank : trimSpace requestId ≠ "") (hamount : 0 < amount)
    (hrecord : db.records.get requestId = some record) :
    (hasLiveRecord db requestId = true ∧
      ∃ res, preConsumeUserSubscription reset db requestId userId now amount = .ok (res, db)) ∨
    hasLiveRecord db requestId = false ∧ ∃ e, e.isSubscriptionShort = false ∧
      preConsumeUserSubscription reset db requestId userId now amount = .error e := by
  unfold preConsumeUserSubscription hasLiveRecord
  rw [if_neg (not_le.mpr huser), if_neg hblank, if_neg (not_le.mpr hamount), hrecord]
  dsimp only
  cases record.status with
  | refunded => exact .inr ⟨rfl, .alreadyRefunded, rfl, rfl⟩
  | consumed =>
    cases db.subs.get record.userSubscriptionId with
    | none => exact .inr ⟨rfl, .recordNotFound, rfl, rfl⟩
    | some sub => exact .inl ⟨rfl, _, rfl⟩

theorem preConsumeUserSubscription_fresh (huser : 0 < userId) (hblank : trimSpace requestId ≠ "") (hamount : 0 < amount)
    (hfresh : db.records.get requestId = none) :
    ((activeSubs db userId now).all (isShort (plans.reset now) amount) = false ∧ ∃ res db',
      preConsumeUserSubscription (plans.reset now) db requestId userId now amount = .ok (res, db')) ∨
    ∃ e, preConsumeUserSubscription (plans.reset now) db requestId userId now amount = .error e ∧
      e.isSubscriptionShort = (activeSubs db userId now).all (isShort (plans.reset now) amount) := by
  unfold preConsumeUserSubscription
  rw [if_neg (not_le.mpr huser), if_neg hblank, if_neg (not_le.mpr hamount), hfresh]
  by_cases hempty : (activeSubs db userId now).isEmpty = true
  · rw [List.isEmpty_iff.mp hempty]
    exact .inr ⟨_, rfl, rfl⟩
  rw [if_neg hempty]
  have hshort := @chargeFirst_short amount (plans.reset now) (fun _ _ => Plans.reset_error) (activeSubs db userId now) db.subs
  cases hscan : chargeFirst (plans.reset now) amount (activeSubs db userId now) db.subs with
  | error e =>
    rw [hscan] at hshort
    exact .inr ⟨e, rfl, hshort⟩
  | ok result =>
    rw [hscan] at hshort
    exact .inl ⟨hshort, _, _, rfl⟩

theorem preConsumeUserSubscription_charge {db' : Store}
    {res : PreConsumeResult} (hfresh : db.records.get requestId = none)
    (h : preConsumeUserSubscription (plans.reset now) db requestId userId now amount = .ok (res, db')) :
    db'.userQuota = db.userQuota ∧ db'.tokenRemainQuota = db.tokenRemainQuota ∧ ∀ id, amountUsedOf db'.subs id =
        (if scanResets plans now amount id (activeSubs db userId now) then 0 else amountUsedOf db.subs id) +
          if res.userSubscriptionId = id then amount else 0 := by
  obtain ⟨hamount, -, ⟨record, hrecord, -⟩ | ⟨-, charged, usedBefore, hscan, rfl, hdb⟩⟩ :=
    preConsumeUserSubscription_cases h
  · rw [hfresh] at hrecord
    cases hrecord
  · refine ⟨by rw [hdb], by rw [hdb], fun id => ?_⟩
    exact chargeFirst_used activeSubs_rows (nodup_activeSubs ..) hscan id

theorem preConsumeSubscription_cases (plans : Plans) (env : Env) (info : RelayInfo) (db : Store)
    (hamount : 0 < amount) {sub : SubscriptionFunding} (hsub : sub = ⟨info.requestId, info.userId, amount, 0, 0, 0, 0⟩) :
    (∃ e, (env.withPlans plans).preConsumeSubscription db sub = .error e ∧
      (looksUp env info && hasLiveRecord db info.requestId) = false ∧
      e.isSubscriptionShort = (looksUp env info && usedUp (env.withPlans plans) info db amount)) ∨
    ∃ res db', (env.withPlans plans).preConsumeSubscription db sub = .ok (res, db') ∧
      looksUp env info = true ∧ usedUp (env.withPlans plans) info db amount = false ∧
      (hasLiveRecord db info.requestId = true ∧ db' = db ∨
        hasLiveRecord db info.requestId = false ∧ db.records.get info.requestId = none ∧
        preConsumeUserSubscription (plans.reset env.now) db info.requestId info.userId env.now amount = .ok (res, db')) := by
  subst hsub
  unfold Env.preConsumeSubscription
  by_cases huser : 0 < info.userId
  swap
  · have hargs : info.userId ≤ 0 := not_lt.mp huser
    rw [if_pos (.inl hargs)]
    have hlooks : looksUp env info = false := by simp [looksUp, huser]
    rw [hlooks]
    refine .inl ⟨.invalidUserId, ?_, rfl, rfl⟩
    unfold preConsumeUserSubscription
    rw [if_pos hargs]
  by_cases hblank : trimSpace info.requestId = ""
  · rw [if_pos (.inr (.inl hblank))]
    have hlooks : looksUp env info = false := by
      simp [looksUp, hblank]
    rw [hlooks]
    refine .inl ⟨.requestIdEmpty, ?_, rfl, rfl⟩
    unfold preConsumeUserSubscription
    rw [if_neg (not_le.mpr huser), if_pos hblank]
  rw [if_neg (by simp only [not_or, not_le]; exact ⟨huser, hblank, hamount⟩)]
  have hlooks : looksUp env info = (env.failure .subscription).isNone := by
    simp [looksUp, huser, hblank]
  rw [hlooks]
  unfold Env.accessing
  have hfail : (env.withPlans plans).failure = env.failure := rfl
  rw [hfail]
  cases env.failure .subscription with
  | some message => exact .inl ⟨_, rfl, rfl, rfl⟩
  | none =>
    simp only [Option.isNone_none, Bool.true_and]
    cases hrecord : db.records.get info.requestId with
    | some record =>
      have hused : usedUp (env.withPlans plans) info db amount = false := by
        simp [usedUp, hrecord]
      rw [if_neg (by simp), hused]
      rcases preConsumeUserSubscription_known huser hblank hamount hrecord with
        ⟨hlive, res, hok⟩ | ⟨hlive, e, hshort, herror⟩
      · exact .inr ⟨res, db, hok, trivial, rfl, .inl ⟨hlive, rfl⟩⟩
      · exact .inl ⟨e, herror, hlive, hshort⟩
    | none =>
      have hlive : hasLiveRecord db info.requestId = false := by simp only [hasLiveRecord, hrecord]
      have hused : usedUp (env.withPlans plans) info db amount = ((env.failure .subscriptionScan).isSome ||
          (activeSubs db info.userId env.now).all (isShort (plans.reset env.now) amount)) := by
        simp only [usedUp, hrecord, Option.isNone_none, Bool.true_and]
        rfl
      rw [hused, hlive]
      by_cases hscan : (env.failure .subscriptionScan).isSome = true
      · rw [hscan]
        exact .inl ⟨.noActiveSubscription, rfl, rfl, rfl⟩
      · simp only [Bool.not_eq_true] at hscan
        rw [hscan]
        rcases preConsumeUserSubscription_fresh huser hblank hamount hrecord with
          ⟨hall, res, db', hok⟩ | ⟨e, herror, hshort⟩
        · exact .inr ⟨res, db', hok, trivial, hall, .inr ⟨rfl, rfl, hok⟩⟩
        · exact .inl ⟨e, herror, rfl, hshort⟩

/-! ## One attempt -/

theorem chargeToken_eq (isPlayground : Bool) (amount : ℤ) (db : Store) : chargeToken isPlayground amount db =
      { db with
        tokenRemainQuota := db.tokenRemainQuota - if isPlayground then 0 else amount
        tokenUsedQuota := db.tokenUsedQuota + if isPlayground then 0 else amount } := by
  cases isPlayground <;> simp [chargeToken]

theorem wallet_preConsume_cases (env : Env) (db : Store) (consumed : ℤ) (hquota : 0 < quota) :
    (∃ e, (Funding.wallet consumed).preConsume env db quota = .error e ∧ e.isSubscriptionShort = false) ∨
    (Funding.wallet consumed).preConsume env db quota =
      .ok (.wallet quota, { db with userQuota := db.userQuota - quota }) := by
  unfold Funding.preConsume
  dsimp only
  rw [if_neg (not_le.mpr hquota), decreaseUserQuota_eq db hquota.le]
  unfold Env.accessing
  split
  · exact .inl ⟨_, rfl, rfl⟩
  · exact .inr rfl

theorem wallet_preConsume_free (info : RelayInfo) (env : Env) (db : Store)
    (hfree : (if (newSession info (.wallet 0)).shouldTrust env then 0 else quota) ≤ 0) :
    (newSession info (.wallet 0)).preConsume env db quota = .ok (Session.syncRelayInfo
      { newSession info (.wallet 0) with
        preConsumedQuota := if (newSession info (.wallet 0)).shouldTrust env then 0 else quota
        trusted := (newSession info (.wallet 0)).shouldTrust env }, db) := by
  unfold preConsume preConsumeToken
  generalize (newSession info (.wallet 0)).shouldTrust env = trusted at hfree ⊢
  dsimp only
  rw [if_neg (not_lt.mpr hfree)]
  dsimp only [newSession, Funding.preConsume]
  rw [if_pos hfree]
  rfl

theorem wallet_billed_free {env : Env} {info info' : RelayInfo} {effective : ℤ} {trusted : Bool} :
    LeavesNoTrace plans env info db quota (.ok (Session.syncRelayInfo { newSession info' (.wallet 0) with
      preConsumedQuota := effective, trusted := trusted }, db)) ↔ effective = 0 := by
  constructor
  · intro h
    have hwallet : db.userQuota = db.userQuota - effective := h.wallet
    omega
  · rintro rfl
    refine ⟨?_, ?_, fun _ => rfl⟩
    · change db.tokenRemainQuota = db.tokenRemainQuota - if info'.isPlayground then 0 else 0
      rw [ite_self, sub_zero]
    · change db.userQuota = db.userQuota - 0
      rw [sub_zero]

section Attempts

variable (plans : Plans) (env : Env) (info : RelayInfo) (db : Store) (preConsumedQuota : ℤ)

theorem trySubscription_cases : (∃ e, trySubscription (env.withPlans plans) info db preConsumedQuota = .error (e, db) ∧
      answeredFromRecord (env.withPlans plans) info db preConsumedQuota = false ∧
      (e.code = .insufficientUserQuota ↔ subscriptionShort (env.withPlans plans) info db preConsumedQuota = true)) ∨
    ∃ opened, trySubscription (env.withPlans plans) info db preConsumedQuota = .ok opened ∧
      subscriptionShort (env.withPlans plans) info db preConsumedQuota = false ∧
      (LeavesNoTrace plans env info db preConsumedQuota (.ok opened) ↔
        answeredFromRecord (env.withPlans plans) info db preConsumedQuota = false) := by
  have hamount := subConsume_pos preConsumedQuota
  unfold answeredFromRecord subscriptionShort reachesSubscription LeavesNoTrace
  have htry : trySubscription (env.withPlans plans) info db preConsumedQuota =
      (newSession info (.subscription ⟨info.requestId, info.userId, subConsume preConsumedQuota, 0, 0, 0,
        0⟩)).preConsume (env.withPlans plans) db (subConsume preConsumedQuota) := rfl
  have hlooks : looksUp (env.withPlans plans) info = looksUp env info := rfl
  rw [htry, hlooks]
  generalize subConsume preConsumedQuota = amount at hamount ⊢
  cases hadmits : tokenAdmits (env.withPlans plans) info db amount with
  | false =>
    obtain ⟨e, herror⟩ := preConsume_refused (newSession info (.subscription ⟨info.requestId, info.userId, amount,
      0, 0, 0, 0⟩)) (env.withPlans plans) db hamount (shouldTrust_subscription ..) hadmits
    rw [herror]
    exact .inl ⟨_, rfl, rfl, by simp⟩
  | true =>
    rw [preConsume_admitted _ _ _ hamount (shouldTrust_subscription ..) hadmits, Bool.true_and, chargeToken_eq]
    dsimp only [newSession, Funding.preConsume]
    rcases preConsumeSubscription_cases plans env info _ hamount rfl with
      ⟨e, herror, hlive, hshort⟩ | ⟨res, db', hok, hlooks', hused, hcases⟩
    · rw [herror]
      refine .inl ⟨_, rfl, hlive, ?_⟩
      change e.isSubscriptionShort = (looksUp env info && usedUp (env.withPlans plans) info db amount) at hshort
      rw [← hshort]
      cases e.isSubscriptionShort <;> simp
    · change usedUp (env.withPlans plans) info db amount = false at hused
      rw [hok, hlooks', hused]
      refine .inr ⟨_, rfl, rfl, ?_⟩
      rcases hcases with ⟨hlive, rfl⟩ | ⟨hlive, hfresh, hpre⟩
      · -- nothing is charged to the subscription of the record
        change hasLiveRecord db info.requestId = true at hlive
        rw [hlive]
        refine ⟨fun hbilled => ?_, fun h => by cases h⟩
        have hcharge := hbilled.subscriptions res.userSubscriptionId
        have hrecord : (db.records.get info.requestId).isNone = false := by
          cases hget : db.records.get info.requestId with
          | some record => rfl
          | none => simp [hasLiveRecord, hget] at hlive
        simp only [syncRelayInfo, getPreConsumedQuota, hrecord, Bool.false_and,
          Bool.false_eq_true, if_false, if_true] at hcharge
        omega
      · change hasLiveRecord db info.requestId = false at hlive
        rw [hlive]
        refine ⟨fun _ => rfl, fun _ => ?_⟩
        obtain ⟨hwallet, htoken, hsubs⟩ := preConsumeUserSubscription_charge (by exact hfresh) hpre
        refine ⟨htoken, hwallet.trans (sub_zero _).symm, fun id => ?_⟩
        rw [hfresh]
        exact hsubs id

theorem tryWallet_cases : (∃ e, tryWallet (env.withPlans plans) info db preConsumedQuota = .error (e, db) ∧
      walletUnpaid (env.withPlans plans) info db preConsumedQuota = false ∧
      (e.code = .insufficientUserQuota ↔ walletShort (env.withPlans plans) db preConsumedQuota = true)) ∨
    ∃ opened, tryWallet (env.withPlans plans) info db preConsumedQuota = .ok opened ∧
      walletShort (env.withPlans plans) db preConsumedQuota = false ∧
      (LeavesNoTrace plans env info db preConsumedQuota (.ok opened) ↔
        walletUnpaid (env.withPlans plans) info db preConsumedQuota = false) := by
  unfold tryWallet walletUnpaid walletShort
  cases (env.withPlans plans).failure .userQuota with
  | some message => exact .inl ⟨_, rfl, by simp, by simp⟩
  | none =>
    by_cases hempty : db.userQuota ≤ 0
    · rw [if_pos hempty]
      exact .inl ⟨_, rfl, by simp [hempty], by simp [hempty]⟩
    rw [if_neg hempty]
    by_cases hbelow : db.userQuota - preConsumedQuota < 0
    · rw [if_pos hbelow]
      exact .inl ⟨_, rfl, by simp; omega, by simp; omega⟩
    rw [if_neg hbelow]
    have hshort : (decide (db.userQuota ≤ 0) || decide (db.userQuota < preConsumedQuota)) = false := by
      simp
      omega
    simp only [Option.isNone_none, Bool.true_and, hshort, not_le.mp hempty, decide_true, Bool.and_true]
    set info' : RelayInfo := { info with userQuota := db.userQuota } with hinfo
    by_cases hfree : (if (newSession info' (.wallet 0)).shouldTrust (env.withPlans plans) then 0
        else preConsumedQuota) ≤ 0
    · rw [wallet_preConsume_free info' (env.withPlans plans) db hfree]
      refine .inr ⟨_, rfl, trivial, ?_⟩
      generalize (newSession info' (.wallet 0)).shouldTrust (env.withPlans plans) = trusted at hfree ⊢
      rw [wallet_billed_free]
      cases trusted
      · simp at hfree ⊢
        omega
      · simp
    · have htrust : (newSession info' (.wallet 0)).shouldTrust (env.withPlans plans) = false := by
        by_contra h
        rw [Bool.not_eq_false] at h
        rw [h] at hfree
        exact hfree (le_refl 0)
      rw [htrust] at hfree ⊢
      have hpos : 0 < preConsumedQuota := not_le.mp hfree
      have hpaid : (decide (preConsumedQuota < 0) && !false) = false := by simp; omega
      rw [hpaid]
      cases hadmits : tokenAdmits (env.withPlans plans) info' db preConsumedQuota with
      | false =>
        obtain ⟨e, herror⟩ := preConsume_refused _ _ _ hpos htrust hadmits
        rw [herror]
        exact .inl ⟨_, rfl, rfl, by simp⟩
      | true =>
        rw [preConsume_admitted _ _ _ hpos htrust hadmits, chargeToken_eq]
        dsimp only [newSession]
        rcases wallet_preConsume_cases (env.withPlans plans) _ 0 hpos with ⟨e, herror, hshort⟩ | hok
        · rw [herror]
          exact .inl ⟨_, rfl, rfl, by simp [hshort]⟩
        · rw [hok]
          exact .inr ⟨_, rfl, trivial, fun _ => rfl, fun _ => ⟨rfl, rfl, fun _ => rfl⟩⟩

/-! ## The preference -/

theorem error_leavesNoTrace (e : ApiError) : LeavesNoTrace plans env info db preConsumedQuota (.error (e, db)) :=
  ⟨rfl, rfl, fun _ => rfl⟩

theorem tryWallet_leavesNoTrace_iff : LeavesNoTrace plans env info db preConsumedQuota
      (tryWallet (env.withPlans plans) info db preConsumedQuota) ↔
    walletUnpaid (env.withPlans plans) info db preConsumedQuota = false := by
  rcases tryWallet_cases plans env info db preConsumedQuota with ⟨e, herror, hpaid, -⟩ | ⟨opened, hok, -, hiff⟩
  · rw [herror, hpaid]
    exact iff_of_true (error_leavesNoTrace plans env info db preConsumedQuota e) rfl
  · rw [hok]
    exact hiff

theorem trySubscription_leavesNoTrace_iff : LeavesNoTrace plans env info db preConsumedQuota
      (trySubscription (env.withPlans plans) info db preConsumedQuota) ↔
    answeredFromRecord (env.withPlans plans) info db preConsumedQuota = false := by
  rcases trySubscription_cases plans env info db preConsumedQuota with
    ⟨e, herror, hfresh, -⟩ | ⟨opened, hok, -, hiff⟩
  · rw [herror, hfresh]
    exact iff_of_true (error_leavesNoTrace plans env info db preConsumedQuota e) rfl
  · rw [hok]
    exact hiff

/-- A failed opening changes no balance and a session has charged one source and the token, unless the request is answered
from a record or has a negative amount. -/
theorem failed_billing_leaves_no_trace_iff (billingPreference : String) : LeavesNoTrace plans env info db preConsumedQuota
      (newBillingSession (env.withPlans plans) billingPreference info db preConsumedQuota) ↔
    misbilled (env.withPlans plans) info db billingPreference preConsumedQuota = false := by
  have hwallet := tryWallet_leavesNoTrace_iff plans env info db preConsumedQuota
  have hsubscription := trySubscription_leavesNoTrace_iff plans env info db preConsumedQuota
  have hfail := error_leavesNoTrace plans env info db preConsumedQuota
  unfold newBillingSession misbilled
  cases normalizeBillingPreference billingPreference with
  | subscriptionOnly => exact hsubscription
  | walletOnly => exact hwallet
  | walletFirst =>
    rcases tryWallet_cases plans env info db preConsumedQuota with
      ⟨e, herror, hpaid, hcode⟩ | ⟨opened, hok, hshort, hiff⟩
    · rw [herror, hpaid]
      dsimp only
      by_cases hinsufficient : e.code = .insufficientUserQuota
      · rw [if_pos hinsufficient, hcode.mp hinsufficient]
        exact hsubscription
      · rw [if_neg hinsufficient, Bool.eq_false_iff.mpr fun h => hinsufficient (hcode.mpr h)]
        exact iff_of_true (hfail e) rfl
    · rw [hok, hshort, Bool.false_and, Bool.or_false]
      exact hiff
  | subscriptionFirst =>
    cases hasActiveUserSubscription (env.withPlans plans) db info.userId with
    | error e => exact iff_of_true (hfail _) rfl
    | ok active =>
      cases active with
      | false => exact hwallet
      | true =>
        rcases trySubscription_cases plans env info db preConsumedQuota with
          ⟨e, herror, hfresh, hcode⟩ | ⟨opened, hok, hshort, hiff⟩
        · rw [herror, hfresh]
          dsimp only
          by_cases hinsufficient : e.code = .insufficientUserQuota
          · rw [if_pos hinsufficient, hcode.mp hinsufficient]
            cases userActiveSubscriptionsAllowWalletOverflow (env.withPlans plans) db info.userId with
            | error e' => exact iff_of_true (hfail _) rfl
            | ok allowed =>
              cases allowed with
              | true => exact hwallet
              | false => exact iff_of_true (hfail e) rfl
          · rw [if_neg hinsufficient, Bool.eq_false_iff.mpr fun h => hinsufficient (hcode.mpr h)]
            exact iff_of_true (hfail e) rfl
        · rw [hok, hshort, Bool.false_and, Bool.or_false]
          exact hiff

end Attempts

/-- A quota of -9500, as for `max_completion_tokens` 10000 below 2^64, which is read as -10000: a session, and no charge. -/
theorem negative_quota_charges_nothing :
    ∃ s, newBillingSession (sampleEnv.withPlans samplePlans) "wallet_only" sampleInfo sampleStore (-9500) =
        .ok (s, sampleStore) ∧ s.getPreConsumedQuota = -9500 ∧
      ¬ LeavesNoTrace samplePlans sampleEnv sampleInfo sampleStore (-9500) (.ok (s, sampleStore)) := by
  refine ⟨_, rfl, rfl, fun h => ?_⟩
  have hcharge := h.wallet
  revert hcharge
  decide +kernel

end HotAI.Billing
