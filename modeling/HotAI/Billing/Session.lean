import HotAI.Billing.Store

/-! # The billing session of a request (`service/billing_session.go`, `service/funding_source.go`)

A session pre-consumes an estimate from the token and its funding source, may raise the reservation, and ends with a settlement
at the actual cost or a refund. Each method holds the session's lock, so it is one step; the updates that `Refund` hands to a
worker are taken at once. -/
namespace HotAI.Billing
open HotAI.Lib HotAI.Subscription

inductive BillingSource where
  | wallet
  | subscription
deriving DecidableEq, Repr

structure SubscriptionFunding where
  requestId : String
  userId : ℤ
  amount : ℤ
  subscriptionId : ℤ
  preConsumed : ℤ
  amountTotal : ℤ
  amountUsedAfter : ℤ
deriving DecidableEq

/-- `FundingSource`: a wallet remembers what it pre-consumed. -/
inductive Funding where
  | wallet (consumed : ℤ)
  | subscription (sub : SubscriptionFunding)
deriving DecidableEq

def Funding.source : Funding → BillingSource
  | .wallet _ => .wallet
  | .subscription _ => .subscription

/-- The fields of `RelayInfo` that billing reads or writes. -/
structure RelayInfo where
  userId : ℤ
  requestId : String
  isPlayground : Bool
  tokenUnlimited : Bool
  forcePreConsume : Bool
  userQuota : ℤ
  finalPreConsumedQuota : ℤ
  billingSource : Option BillingSource
  subscriptionId : ℤ
  subscriptionPreConsumed : ℤ
  subscriptionPostDelta : ℤ
  subscriptionAmountTotal : ℤ
  subscriptionAmountUsedAfterPreConsume : ℤ
deriving DecidableEq

structure Session where
  info : RelayInfo
  funding : Funding
  preConsumedQuota : ℤ
  tokenConsumed : ℤ
  extraReserved : ℤ
  trusted : Bool
  fundingSettled : Bool
  settled : Bool
  refunded : Bool
deriving DecidableEq

inductive Access where
  | userQuota
  | token
  | wallet
  | subscription
  | subscriptionScan
  | hasSubscription
  | walletOverflow
deriving DecidableEq, Repr

/-- `common.GetTrustQuota()`, the context's `token_quota`, database time and due reset, the server's time, and the message of a
failing database access. -/
structure Env where
  trustQuota : ℤ
  tokenQuota : ℤ
  now : ℤ
  reset : UserSubscription → Except StoreError UserSubscription
  localNow : ℤ
  failure : Access → Option String

def Env.accessing {α : Type} (env : Env) (access : Access) (result : Except StoreError α) : Except StoreError α :=
  match env.failure access with
  | some message => .error (.database message)
  | none => result

theorem Env.accessing_ok {α : Type} {env : Env} {access : Access} {result : Except StoreError α} {a : α}
    (h : env.accessing access result = .ok a) : env.failure access = none ∧ result = .ok a := by
  unfold Env.accessing at h
  split at h
  · cases h
  · next hnone => exact ⟨hnone, h⟩

/-! ## Funding sources -/

/-- `PreConsumeUserSubscription`: arguments are checked first; a failed listing is reported as no subscription. -/
def Env.preConsumeSubscription (env : Env) (db : Store) (sub : SubscriptionFunding) :
    Except StoreError (PreConsumeResult × Store) :=
  let result := preConsumeUserSubscription env.reset db sub.requestId sub.userId env.now sub.amount
  if sub.userId ≤ 0 ∨ trimSpace sub.requestId = "" ∨ sub.amount ≤ 0 then result
  else env.accessing .subscription <|
    if (env.failure .subscriptionScan).isSome ∧ db.records.get sub.requestId = none then
      .error .noActiveSubscription
    else result

theorem Env.preConsumeSubscription_ok {env : Env} {db : Store} {sub : SubscriptionFunding}
    {result : PreConsumeResult × Store} (h : env.preConsumeSubscription db sub = .ok result) :
    preConsumeUserSubscription env.reset db sub.requestId sub.userId env.now sub.amount = .ok result := by
  unfold Env.preConsumeSubscription at h
  split at h
  · exact h
  · have hresult := (Env.accessing_ok h).2
    split at hresult
    · cases hresult
    · exact hresult

def Funding.preConsume (env : Env) (db : Store) (amount : ℤ) : Funding → Except StoreError (Funding × Store)
  | .wallet consumed =>
      if amount ≤ 0 then .ok (.wallet consumed, db)
      else (env.accessing .wallet (decreaseUserQuota db amount)).map fun db => (.wallet amount, db)
  | .subscription sub =>
      -- the amount asked for is ignored in favour of the one fixed at construction
      (env.preConsumeSubscription db sub).map
        fun (res, db) => (.subscription { sub with
          subscriptionId := res.userSubscriptionId
          preConsumed := res.preConsumed
          amountTotal := res.amountTotal
          amountUsedAfter := res.amountUsedAfter }, db)

def Funding.settle (db : Store) (delta : ℤ) : Funding → Except StoreError Store
  | .wallet _ =>
      if delta = 0 then .ok db
      else if 0 < delta then decreaseUserQuota db delta
      else increaseUserQuota db (-delta)
  | .subscription sub =>
      if delta = 0 then .ok db
      else postConsumeUserSubscriptionDelta db sub.subscriptionId delta

-- the subscription's refund is tried three times; a failed transaction changes nothing
def Funding.refund (db : Store) : Funding → Except StoreError Store
  | .wallet consumed => if consumed ≤ 0 then .ok db else increaseUserQuota db consumed
  | .subscription sub =>
      if sub.preConsumed ≤ 0 then .ok db else refundSubscriptionPreConsume db sub.requestId

/-! ## The session's methods -/

/-- The result of a method: the errors are those of its quota updates, returned or logged. -/
structure Result where
  session : Session
  db : Store
  errors : List StoreError

def logged (db : Store) : Except StoreError Store → Store × List StoreError
  | .ok db' => (db', [])
  | .error e => (db, [e])

namespace Session

def needsRefund (s : Session) : Bool :=
  if s.settled || s.refunded || s.fundingSettled then false
  else if 0 < s.tokenConsumed then true
  else match s.funding with
    | .subscription sub => 0 < sub.preConsumed
    | .wallet _ => false

def syncRelayInfo (s : Session) : Session :=
  { s with info := match s.funding with
    | .subscription sub => { s.info with
        finalPreConsumedQuota := s.preConsumedQuota
        billingSource := some .subscription
        subscriptionId := sub.subscriptionId
        subscriptionPreConsumed := sub.preConsumed + s.extraReserved
        subscriptionPostDelta := 0
        subscriptionAmountTotal := sub.amountTotal
        subscriptionAmountUsedAfterPreConsume := sub.amountUsedAfter + s.extraReserved }
    | .wallet _ => { s.info with
        finalPreConsumedQuota := s.preConsumedQuota
        billingSource := some .wallet
        subscriptionId := 0
        subscriptionPreConsumed := 0 } }

def settleFunding (s : Session) (db : Store) (delta : ℤ) : Except StoreError Store :=
  if s.fundingSettled then .ok db else s.funding.settle db delta

def settleToken (s : Session) (db : Store) (delta : ℤ) : Store × List StoreError :=
  if s.info.isPlayground then (db, [])
  else if 0 < delta then logged db (decreaseTokenQuota db delta)
  else logged db (increaseTokenQuota db (-delta))

def settle (s : Session) (db : Store) (actualQuota : ℤ) : Result :=
  if s.settled then ⟨s, db, []⟩
  else
    let delta := actualQuota - s.preConsumedQuota
    if delta = 0 then ⟨{ s with settled := true }, db, []⟩
    else match s.settleFunding db delta with
      | .error e => ⟨s, db, [e]⟩
      | .ok db =>
          let (db, errors) := s.settleToken db delta
          let info := if s.funding.source = .subscription then
            { s.info with subscriptionPostDelta := s.info.subscriptionPostDelta + delta } else s.info
          ⟨{ s with info := info, fundingSettled := true, settled := true }, db, errors⟩

def refundExtra (s : Session) (db : Store) : Store × List StoreError :=
  if 0 < s.extraReserved ∧ s.funding.source = .subscription ∧ 0 < s.info.subscriptionId then
    logged db (postConsumeUserSubscriptionDelta db s.info.subscriptionId (-s.extraReserved))
  else (db, [])

def refundToken (s : Session) (db : Store) : Store × List StoreError :=
  if 0 < s.tokenConsumed ∧ !s.info.isPlayground then
    logged db (increaseTokenQuota db s.tokenConsumed)
  else (db, [])

def refund (s : Session) (db : Store) : Result :=
  if s.settled || s.refunded || !s.needsRefund then ⟨s, db, []⟩
  else
    let (db, fundingErrors) := logged db (s.funding.refund db)
    let (db, extraErrors) := s.refundExtra db
    let (db, tokenErrors) := s.refundToken db
    ⟨{ s with refunded := true }, db, fundingErrors ++ extraErrors ++ tokenErrors⟩

def reserveFunding (s : Session) (db : Store) (delta : ℤ) : Except StoreError (Funding × Store) :=
  match s.funding with
  | .wallet consumed => (decreaseUserQuota db delta).map fun db => (.wallet (consumed + delta), db)
  | .subscription sub =>
      (postConsumeUserSubscriptionDelta db sub.subscriptionId delta).map
        fun db => (.subscription sub, db)

def reserveToken (s : Session) (db : Store) (delta : ℤ) : Except StoreError Store :=
  if delta ≤ 0 ∨ s.info.isPlayground then .ok db
  else preConsumeTokenQuota db s.info.isPlayground s.info.tokenUnlimited delta

/-- `rollbackFundingReserve`: a wallet whose rollback fails keeps the raised amount. -/
def rollbackFundingReserve (funding : Funding) (db : Store) (delta : ℤ) : Funding × Store × List StoreError :=
  match funding with
  | .wallet consumed =>
      match increaseUserQuota db delta with
      | .ok db => (.wallet (consumed - delta), db, [])
      | .error e => (.wallet consumed, db, [e])
  | .subscription sub =>
      (.subscription sub,
        logged db (postConsumeUserSubscriptionDelta db sub.subscriptionId (-delta)))

def reserve (s : Session) (db : Store) (targetQuota : ℤ) : Result :=
  if s.settled || s.refunded || s.trusted || targetQuota ≤ s.preConsumedQuota then ⟨s, db, []⟩
  else
    let delta := targetQuota - s.preConsumedQuota
    match s.reserveFunding db delta with
    | .error e => ⟨s, db, [e]⟩
    | .ok (funding, db) =>
        match s.reserveToken db delta with
        | .error e =>
            let (funding, db, errors) := rollbackFundingReserve funding db delta
            ⟨{ s with funding := funding }, db, e :: errors⟩
        | .ok db =>
            ⟨syncRelayInfo { s with
              funding := funding
              preConsumedQuota := s.preConsumedQuota + delta
              tokenConsumed := s.tokenConsumed + delta
              extraReserved := s.extraReserved + delta }, db, []⟩

end Session

/-! ## Opening a session -/

inductive ErrorCode where
  | preConsumeTokenQuotaFailed
  | insufficientUserQuota
  | updateDataError
  | queryDataError
deriving DecidableEq, Repr

structure ApiError where
  code : ErrorCode
  cause : StoreError
deriving DecidableEq, Repr

-- the code looks for these two texts in the error's message
def StoreError.isSubscriptionShort : StoreError → Bool
  | .noActiveSubscription => true
  | .subscriptionQuotaInsufficient _ => true
  | _ => false

namespace Session

def shouldTrust (s : Session) (env : Env) : Bool :=
  if s.info.forcePreConsume then false
  else if env.trustQuota ≤ 0 then false
  else if !(s.info.tokenUnlimited || env.trustQuota < env.tokenQuota) then false
  else match s.funding with
    | .wallet _ => env.trustQuota < s.info.userQuota
    | .subscription _ => false

/-- The token's part of `preConsume`; a playground request does not look its token up. -/
def preConsumeToken (s : Session) (env : Env) (db : Store) (effectiveQuota : ℤ) : Except StoreError (Session × Store) :=
  let result := preConsumeTokenQuota db s.info.isPlayground s.info.tokenUnlimited effectiveQuota
  if 0 < effectiveQuota then
    (if s.info.isPlayground then result else env.accessing .token result).map
      fun db => ({ s with tokenConsumed := effectiveQuota }, db)
  else .ok (s, db)

/-- `preConsume`: an error comes with the store it leaves behind. -/
def preConsume (s : Session) (env : Env) (db : Store) (quota : ℤ) : Except (ApiError × Store) (Session × Store) :=
  let trusted := s.shouldTrust env
  let effectiveQuota := if trusted then 0 else quota
  match ({ s with trusted := s.trusted || trusted }).preConsumeToken env db effectiveQuota with
  | .error e => .error (⟨.preConsumeTokenQuotaFailed, e⟩, db)
  | .ok (s, db) =>
      match s.funding.preConsume env db effectiveQuota with
      | .error e =>
          let db := if 0 < s.tokenConsumed ∧ !s.info.isPlayground then
            (logged db (increaseTokenQuota db s.tokenConsumed)).1 else db
          .error (⟨if e.isSubscriptionShort then .insufficientUserQuota else .updateDataError, e⟩, db)
      | .ok (funding, db) =>
          .ok (syncRelayInfo { s with funding := funding, preConsumedQuota := effectiveQuota }, db)

end Session

/-- The zero value of `BillingSession` around a request and a funding source. -/
def newSession (info : RelayInfo) (funding : Funding) : Session :=
  ⟨info, funding, 0, 0, 0, false, false, false, false⟩

theorem shouldTrust_subscription (info : RelayInfo) (sub : SubscriptionFunding) (env : Env) :
    (newSession info (.subscription sub)).shouldTrust env = false := by
  unfold Session.shouldTrust newSession
  split
  · rfl
  split
  · rfl
  split
  · rfl
  · rfl

def tryWallet (env : Env) (info : RelayInfo) (db : Store) (preConsumedQuota : ℤ) :
    Except (ApiError × Store) (Session × Store) :=
  match env.failure .userQuota with
  | some message => .error (⟨.queryDataError, .database message⟩, db)
  | none =>
      if db.userQuota ≤ 0 then .error (⟨.insufficientUserQuota, .userQuotaNotEnough db.userQuota⟩, db)
      else if db.userQuota - preConsumedQuota < 0 then
        .error (⟨.insufficientUserQuota, .userQuotaBelowNeed db.userQuota preConsumedQuota⟩, db)
      else (newSession { info with userQuota := db.userQuota } (.wallet 0)).preConsume env db
        preConsumedQuota

def trySubscription (env : Env) (info : RelayInfo) (db : Store) (preConsumedQuota : ℤ) :
    Except (ApiError × Store) (Session × Store) :=
  let subConsume := if preConsumedQuota ≤ 0 then 1 else preConsumedQuota
  (newSession info (.subscription ⟨info.requestId, info.userId, subConsume, 0, 0, 0, 0⟩)).preConsume
    env db subConsume

def openSession (source : BillingSource) (env : Env) (info : RelayInfo) (db : Store)
    (preConsumedQuota : ℤ) : Except (ApiError × Store) (Session × Store) :=
  match source with
  | .wallet => tryWallet env info db preConsumedQuota
  | .subscription => trySubscription env info db preConsumedQuota

end HotAI.Billing
