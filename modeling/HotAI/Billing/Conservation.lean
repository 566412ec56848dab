import HotAI.Billing.Session

/-! # What a billing session takes in total

A history is told apart by its first `Settle` that sets `settled` or `Refund` that sets `refunded`. Before it the session is
`Live`: funding and token are down by the reserved amount, and the session's counters say how to undo that. -/
namespace HotAI.Billing
open HotAI.Lib HotAI.Subscription List Funding

inductive Op where
  | reserve (targetQuota : ℤ)
  | settle (actualQuota : ℤ)
  | refund
deriving DecidableEq

def perform (s : Session) (db : Store) : Op → Result
  | .reserve targetQuota => s.reserve db targetQuota
  | .settle actualQuota => s.settle db actualQuota
  | .refund => s.refund db

inductive Ending where
  | settled (actual : ℤ)
  | refunded
deriving DecidableEq

/-- A session, its store and the first effective terminal call so far. -/
structure State where
  session : Session
  db : Store
  ending : Option Ending

def endingOf (s s' : Session) : Op → Option Ending
  | .reserve _ => none
  | .settle actual => if !s.settled && s'.settled then some (.settled actual) else none
  | .refund => if !s.refunded && s'.refunded then some .refunded else none

def step (st : State) (op : Op) : State :=
  let r := perform st.session st.db op
  ⟨r.session, r.db, st.ending.or (endingOf st.session r.session op)⟩

/-! ## Balances -/

def Funding.taken (funding : Funding) (db₀ db : Store) : ℤ :=
  match funding with
  | .wallet _ => db₀.userQuota - db.userQuota
  | .subscription sub =>
      amountUsedOf db.subs sub.subscriptionId - amountUsedOf db₀.subs sub.subscriptionId

/-- From `db₀` to `db` the session took `amount` from its funding source and, outside the playground, from its token. -/
structure Took (db₀ db : Store) (s : Session) (amount : ℤ) : Prop where
  funding : s.funding.taken db₀ db = amount
  tokenRemain : s.info.isPlayground = false → db₀.tokenRemainQuota - db.tokenRemainQuota = amount
  tokenUsed : s.info.isPlayground = false → db.tokenUsedQuota - db₀.tokenUsedQuota = amount

def State.due (st : State) : ℤ :=
  match st.ending with
  | none => st.session.preConsumedQuota
  | some (.settled actual) => actual
  | some .refunded => 0

def Backed (s : Session) (db : Store) : Prop :=
  match s.funding with
  | .wallet consumed => consumed = s.preConsumedQuota
  | .subscription sub =>
      0 < sub.preConsumed ∧ 0 ≤ s.extraReserved ∧
        sub.preConsumed + s.extraReserved = s.preConsumedQuota ∧
        0 < sub.subscriptionId ∧ s.info.subscriptionId = sub.subscriptionId ∧
        db.records.get sub.requestId =
          some ⟨sub.requestId, sub.userId, sub.subscriptionId, sub.preConsumed, .consumed⟩

structure Live (db₀ db : Store) (s : Session) : Prop where
  unsettled : s.settled = false
  unrefunded : s.refunded = false
  fundingUnsettled : s.fundingSettled = false
  nonneg : 0 ≤ s.preConsumedQuota
  token : s.tokenConsumed = s.preConsumedQuota
  backed : Backed s db
  took : Took db₀ db s s.preConsumedQuota
  used_nonneg : ∀ id, 0 ≤ amountUsedOf db₀.subs id

def StoreError.isTokenShort : StoreError → Bool
  | .tokenQuotaNotEnough _ _ => true
  | _ => false

def Succeeds (errors : List StoreError) : Prop := ∀ e ∈ errors, e.isTokenShort = true

instance (errors : List StoreError) : Decidable (Succeeds errors) :=
  inferInstanceAs (Decidable (∀ e ∈ errors, e.isTokenShort = true))

variable {db : Store}

theorem logged_succeeds {r : Except StoreError Store}
    (hshort : ∀ e, r = .error e → e.isTokenShort = false) (h : Succeeds (logged db r).2) :
    r = .ok (logged db r).1 := by
  cases r with
  | ok db' => rfl
  | error e =>
    have := h e (mem_singleton.mpr rfl)
    rw [hshort e rfl] at this
    cases this

/-! ## Funding updates -/

structure SameToken (db db' : Store) : Prop where
  tokenRemain : db'.tokenRemainQuota = db.tokenRemainQuota
  tokenUsed : db'.tokenUsedQuota = db.tokenUsedQuota

structure SameRest (db db' : Store) : Prop extends SameToken db db' where
  records : db'.records = db.records

/-- The used amount of a subscription is not stopped at zero by a change of `delta`. -/
def Funding.Covers (funding : Funding) (db : Store) (delta : ℤ) : Prop :=
  match funding with
  | .wallet _ => True
  | .subscription sub => 0 ≤ amountUsedOf db.subs sub.subscriptionId + delta

variable {db₀ : Store} {delta : ℤ}
    {quota : ℤ} {funding : Funding} {info : RelayInfo} {env : Env} {e : StoreError} {amount : ℤ} {s' : Session}

theorem Funding.covers_of_taken (hused : ∀ id, 0 ≤ amountUsedOf db₀.subs id)
    (h : funding.taken db₀ db = amount) (hsum : 0 ≤ amount + delta) : funding.Covers db delta := by
  cases funding with
  | wallet consumed => trivial
  | subscription sub =>
    have hused := hused sub.subscriptionId
    simp only [taken] at h
    simp only [Funding.Covers]
    omega

theorem Funding.settle_ok {db' : Store} (h : funding.settle db delta = .ok db') (hcovers : funding.Covers db delta) :
    (∀ db₀, funding.taken db₀ db' = funding.taken db₀ db + delta) ∧ SameRest db db' := by
  unfold settle at h
  cases funding with
  | wallet consumed =>
    dsimp only at h
    split at h
    · next hzero =>
      cases h
      exact ⟨fun db₀ => by simp [hzero], ⟨⟨rfl, rfl⟩, rfl⟩⟩
    split at h
    · next hpos =>
      rw [decreaseUserQuota_eq db hpos.le] at h
      cases h
      refine ⟨fun db₀ => ?_, ⟨⟨rfl, rfl⟩, rfl⟩⟩
      simp only [taken]
      omega
    · next hneg =>
      rw [increaseUserQuota_eq db (by omega)] at h
      cases h
      refine ⟨fun db₀ => ?_, ⟨⟨rfl, rfl⟩, rfl⟩⟩
      simp only [taken]
      omega
  | subscription sub =>
    dsimp only at h
    split at h
    · next hzero =>
      cases h
      exact ⟨fun db₀ => by simp [hzero], ⟨⟨rfl, rfl⟩, rfl⟩⟩
    · next hdelta =>
      obtain ⟨⟨hzero, -⟩ | ⟨-, hused⟩, hframe⟩ := postConsume_ok h
      · exact absurd hzero hdelta
      rw [max_eq_right hcovers] at hused
      refine ⟨fun db₀ => ?_, ?_⟩
      · simp only [taken, hused]
        omega
      · rw [hframe]
        exact ⟨⟨rfl, rfl⟩, rfl⟩

theorem postConsume_not_tokenShort {id : ℤ}
    (h : postConsumeUserSubscriptionDelta db id delta = .error e) : e.isTokenShort = false := by
  unfold postConsumeUserSubscriptionDelta at h
  split at h
  · cases h; rfl
  split at h
  · cases h
  split at h
  · cases h; rfl
  dsimp only at h
  split at h
  · cases h; rfl
  · cases h

theorem refundPreConsume_not_tokenShort {requestId : String}
    (h : refundSubscriptionPreConsume db requestId = .error e) : e.isTokenShort = false := by
  unfold refundSubscriptionPreConsume at h
  split at h
  · cases h; rfl
  split at h
  · cases h; rfl
  next record _ =>
  split at h
  · cases h
  split at h
  · cases h
  cases hpost : postConsumeUserSubscriptionDelta db record.userSubscriptionId
      (-record.preConsumed) with
  | ok db' => rw [hpost] at h; cases h
  | error e' =>
    rw [hpost] at h
    cases h
    exact postConsume_not_tokenShort hpost

theorem Funding.settle_not_tokenShort (h : funding.settle db delta = .error e) : e.isTokenShort = false := by
  unfold settle decreaseUserQuota increaseUserQuota at h
  cases funding with
  | wallet consumed =>
    dsimp only at h
    repeat' split at h
    all_goals cases h
    all_goals rfl
  | subscription sub =>
    dsimp only at h
    split at h
    · cases h
    · exact postConsume_not_tokenShort h

def Funding.raised (delta : ℤ) : Funding → Funding
  | .wallet consumed => .wallet (consumed + delta)
  | .subscription sub => .subscription sub

theorem Funding.taken_raised (funding : Funding) (delta : ℤ) (db₀ db : Store) :
    (funding.raised delta).taken db₀ db = funding.taken db₀ db := by
  cases funding <;> rfl

theorem reserveFunding_eq (s : Session) (db : Store) (hdelta : 0 < delta) :
    s.reserveFunding db delta = (s.funding.settle db delta).map fun db => (s.funding.raised delta, db) := by
  unfold Session.reserveFunding settle
  cases s.funding with
  | wallet consumed => simp only [hdelta.ne', if_false, hdelta, if_true]; rfl
  | subscription sub => simp only [hdelta.ne', if_false]; rfl

theorem rollback_eq (funding : Funding) (db : Store) (hdelta : 0 < delta)
    (hok : Succeeds (Session.rollbackFundingReserve (funding.raised delta) db delta).2.2) :
    ∃ db', funding.settle db (-delta) = .ok db' ∧
      Session.rollbackFundingReserve (funding.raised delta) db delta = (funding, db', []) := by
  unfold settle
  cases funding with
  | wallet consumed =>
    refine ⟨{ db with userQuota := db.userQuota + delta }, ?_, ?_⟩
    · simp only [neg_eq_zero, hdelta.ne', if_false, Left.neg_pos_iff, not_lt.mpr hdelta.le, neg_neg]
      exact increaseUserQuota_eq db hdelta.le
    · simp only [raised, Session.rollbackFundingReserve, increaseUserQuota_eq db hdelta.le,
        add_sub_cancel_right]
  | subscription sub =>
    have hpost := logged_succeeds (fun e he => postConsume_not_tokenShort he) hok
    refine ⟨_, by simpa only [neg_eq_zero, hdelta.ne', if_false] using hpost, ?_⟩
    have hnone := congrArg (fun r => (logged db r).2) hpost
    exact congrArg (fun errors => (subscription sub, _, errors)) hnone

/-! ## Token updates -/

def chargeToken (isPlayground : Bool) (delta : ℤ) (db : Store) : Store :=
  if isPlayground then db else
    { db with tokenRemainQuota := db.tokenRemainQuota - delta
              tokenUsedQuota := db.tokenUsedQuota + delta }

theorem Funding.taken_chargeToken (funding : Funding) (isPlayground : Bool) (delta : ℤ) (db₀ db : Store) :
    funding.taken db₀ (chargeToken isPlayground delta db) = funding.taken db₀ db := by
  cases isPlayground <;> cases funding <;> rfl

theorem records_chargeToken (isPlayground : Bool) (delta : ℤ) (db : Store) :
    (chargeToken isPlayground delta db).records = db.records := by
  cases isPlayground <;> rfl

theorem settleToken_eq (s : Session) (db : Store) (delta : ℤ) :
    s.settleToken db delta = (chargeToken s.info.isPlayground delta db, []) := by
  unfold Session.settleToken
  cases hp : s.info.isPlayground with
  | true => rfl
  | false =>
    by_cases hd : 0 < delta
    · rw [if_pos hd, decreaseTokenQuota_eq db hd.le]
      rfl
    · have hneg : 0 ≤ -delta := by omega
      rw [if_neg hd, increaseTokenQuota_eq db hneg, sub_neg_eq_add]
      rfl

theorem refundToken_eq (s : Session) (db : Store) (hnonneg : 0 ≤ s.tokenConsumed) :
    s.refundToken db = (chargeToken s.info.isPlayground (-s.tokenConsumed) db, []) := by
  unfold Session.refundToken chargeToken
  rw [increaseTokenQuota_eq db hnonneg]
  cases hp : s.info.isPlayground with
  | true => simp
  | false =>
    by_cases hpos : 0 < s.tokenConsumed
    · simp [hpos, logged, ← sub_eq_add_neg]
    · have hzero : s.tokenConsumed = 0 := by omega
      simp [hzero]

theorem reserveToken_cases (s : Session) (db : Store) (hdelta : 0 < delta) :
    s.reserveToken db delta = .ok (chargeToken s.info.isPlayground delta db) ∨
    s.reserveToken db delta = .error (.tokenQuotaNotEnough db.tokenRemainQuota delta) := by
  unfold Session.reserveToken
  cases hp : s.info.isPlayground with
  | true => exact .inl (by simp [chargeToken])
  | false =>
    rw [if_neg (by simp [hdelta])]
    exact preConsumeTokenQuota_cases db false s.info.tokenUnlimited hdelta.le

variable {s : Session}

theorem Took.charge {db₁ : Store} (h : Took db₀ db s amount)
    (htaken : s.funding.taken db₀ db₁ = s.funding.taken db₀ db + delta) (hsame : SameToken db db₁) :
    Took db₀ (chargeToken s.info.isPlayground delta db₁) s (amount + delta) := by
  obtain ⟨hfunding, hremain, hused⟩ := h
  obtain ⟨hremain₁, hused₁⟩ := hsame
  refine ⟨?_, ?_, ?_⟩
  · rw [taken_chargeToken, htaken, hfunding]
  · intro hp
    have := hremain hp
    simp only [chargeToken, hp, Bool.false_eq_true, if_false]
    omega
  · intro hp
    have := hused hp
    simp only [chargeToken, hp, Bool.false_eq_true, if_false]
    omega

theorem Took.congr (h : Took db₀ db s amount) (hfunding : s'.funding.taken db₀ db = s.funding.taken db₀ db)
    (hplayground : s'.info.isPlayground = s.info.isPlayground) : Took db₀ db s' amount :=
  ⟨hfunding.trans h.funding, hplayground ▸ h.tokenRemain, hplayground ▸ h.tokenUsed⟩

theorem syncRelayInfo_isPlayground (s : Session) : s.syncRelayInfo.info.isPlayground = s.info.isPlayground := by
  unfold Session.syncRelayInfo
  cases s.funding <;> rfl

/-! ## One call on a live session -/

theorem raised_live {db₁ : Store} (h : Live db₀ db s)
    (hdelta : 0 < delta) (htaken : s.funding.taken db₀ db₁ = s.funding.taken db₀ db + delta)
    (hrest : SameRest db db₁) :
    Live db₀ (chargeToken s.info.isPlayground delta db₁) (Session.syncRelayInfo { s with
        funding := s.funding.raised delta
        preConsumedQuota := s.preConsumedQuota + delta
        tokenConsumed := s.tokenConsumed + delta
        extraReserved := s.extraReserved + delta }) := by
  have htook := h.took.charge htaken hrest.toSameToken
  refine ⟨h.unsettled, h.unrefunded, h.fundingUnsettled, ?_, ?_, ?_, ?_, h.used_nonneg⟩
  · exact add_nonneg h.nonneg hdelta.le
  · exact congrArg (· + delta) h.token
  · have hbacked := h.backed
    unfold Backed at hbacked ⊢
    dsimp only [Session.syncRelayInfo]
    cases hf : s.funding with
    | wallet consumed =>
      rw [hf] at hbacked
      exact congrArg (· + delta) hbacked
    | subscription sub =>
      rw [hf] at hbacked
      obtain ⟨hpos, hextra, hsum, hid, -, hrecord⟩ := hbacked
      refine ⟨hpos, by omega, ?_, hid, rfl, ?_⟩
      · omega
      · rw [records_chargeToken, hrest.records]
        exact hrecord
  · exact htook.congr (taken_raised ..) (syncRelayInfo_isPlayground _)

theorem unchanged_live {db₂ : Store} (h : Live db₀ db s)
    (htaken : s.funding.taken db₀ db₂ = s.funding.taken db₀ db) (hrest : SameRest db db₂) :
    Live db₀ db₂ s := by
  refine { h with backed := ?_, took := ⟨htaken.trans h.took.funding, ?_, ?_⟩ }
  · have hbacked := h.backed
    unfold Backed at hbacked ⊢
    rw [hrest.records]
    exact hbacked
  · rw [hrest.tokenRemain]
    exact h.took.tokenRemain
  · rw [hrest.tokenUsed]
    exact h.took.tokenUsed

theorem reserve_live (targetQuota : ℤ) (h : Live db₀ db s) (hok : Succeeds (s.reserve db targetQuota).errors) :
    Live db₀ (s.reserve db targetQuota).db (s.reserve db targetQuota).session := by
  unfold Session.reserve at hok ⊢
  split
  · exact h
  next hguard =>
  rw [if_neg hguard] at hok
  have hdelta : 0 < targetQuota - s.preConsumedQuota := by
    simp only [Bool.or_eq_true, decide_eq_true_eq, not_or, not_le] at hguard
    omega
  generalize targetQuota - s.preConsumedQuota = delta at hdelta hok ⊢
  dsimp only at hok ⊢
  rw [reserveFunding_eq s db hdelta] at hok ⊢
  cases hsettle : s.funding.settle db delta with
  | error e =>
    rw [hsettle] at hok
    exact absurd (hok e (mem_singleton.mpr rfl)) (by simp [settle_not_tokenShort hsettle])
  | ok db₁ =>
    rw [hsettle] at hok
    have hnonneg := h.nonneg
    have htook := h.took.funding
    obtain ⟨htaken, hrest⟩ := settle_ok hsettle (covers_of_taken h.used_nonneg htook (by omega))
    dsimp only [Except.map] at hok ⊢
    rcases reserveToken_cases s db₁ hdelta with htoken | htoken
    · rw [htoken]
      exact raised_live h hdelta (htaken db₀) hrest
    · -- the token is short: the funding source gets its share back
      rw [htoken] at hok ⊢
      obtain ⟨db₂, hback, heq⟩ := rollback_eq s.funding db₁ hdelta
        (fun e he => hok e (mem_cons_of_mem _ he))
      obtain ⟨htaken₂, hrest₂⟩ := settle_ok hback
        (covers_of_taken h.used_nonneg (htaken db₀) (by omega))
      rw [heq]
      refine unchanged_live h ?_ ?_
      · rw [htaken₂, htaken, add_neg_cancel_right]
      · exact ⟨⟨hrest₂.tokenRemain.trans hrest.tokenRemain, hrest₂.tokenUsed.trans hrest.tokenUsed⟩,
          hrest₂.records.trans hrest.records⟩

theorem settle_live {actualQuota : ℤ} (h : Live db₀ db s) (hfloor : s.funding.source = .subscription → 0 ≤ actualQuota)
    (hok : Succeeds (s.settle db actualQuota).errors) :
    (s.settle db actualQuota).session.settled = true ∧
      Took db₀ (s.settle db actualQuota).db (s.settle db actualQuota).session actualQuota := by
  have hpre : s.preConsumedQuota + (actualQuota - s.preConsumedQuota) = actualQuota := by omega
  unfold Session.settle at hok ⊢
  rw [if_neg (by simp [h.unsettled])] at hok ⊢
  generalize actualQuota - s.preConsumedQuota = delta at hpre hok ⊢
  by_cases hzero : delta = 0
  · rw [if_pos hzero]
    refine ⟨rfl, ?_⟩
    rw [← hpre, hzero, add_zero]
    exact h.took.congr rfl rfl
  rw [if_neg hzero] at hok ⊢
  unfold Session.settleFunding at hok ⊢
  rw [if_neg (by simp [h.fundingUnsettled])] at hok ⊢
  cases hsettle : s.funding.settle db delta with
  | error e =>
    rw [hsettle] at hok
    exact absurd (hok e (mem_singleton.mpr rfl)) (by simp [settle_not_tokenShort hsettle])
  | ok db₁ =>
    have hcovers : s.funding.Covers db delta := by
      cases hf : s.funding with
      | wallet consumed => trivial
      | subscription sub =>
        rw [← hf]
        have hactual := hfloor (by rw [hf]; rfl)
        exact covers_of_taken h.used_nonneg h.took.funding (by omega)
    obtain ⟨htaken, hrest⟩ := settle_ok hsettle hcovers
    dsimp only
    rw [settleToken_eq]
    refine ⟨rfl, ?_⟩
    rw [← hpre]
    refine (h.took.charge (htaken db₀) hrest.toSameToken).congr rfl ?_
    split <;> rfl

theorem refundFunding_live (h : Live db₀ db s) (hfunding : Succeeds (logged db (s.funding.refund db)).2)
    (hextra : Succeeds (s.refundExtra (logged db (s.funding.refund db)).1).2) :
    let db₂ := (s.refundExtra (logged db (s.funding.refund db)).1).1
    s.funding.taken db₀ db₂ = s.funding.taken db₀ db + -s.preConsumedQuota ∧ SameToken db db₂ := by
  have hbacked := h.backed
  have hnonneg := h.nonneg
  have htook := h.took.funding
  unfold Backed at hbacked
  unfold Session.refundExtra at hextra ⊢
  cases hf : s.funding with
  | wallet consumed =>
    rw [hf] at hbacked
    simp only [source, reduceCtorEq, false_and, and_false, if_false, refund]
    split
    · refine ⟨?_, ⟨rfl, rfl⟩⟩
      simp only [logged]
      omega
    · rw [increaseUserQuota_eq db (by omega)]
      refine ⟨?_, ⟨rfl, rfl⟩⟩
      simp only [logged, taken]
      omega
  | subscription sub =>
    rw [hf] at hbacked hfunding hextra htook
    obtain ⟨hpos, hextraNonneg, hsum, hid, hinfo, hrecord⟩ := hbacked
    have hused₀ := h.used_nonneg sub.subscriptionId
    simp only [taken] at htook
    simp only [refund, if_neg (not_le.mpr hpos)] at hfunding hextra ⊢
    have hrefund := logged_succeeds (fun e he => refundPreConsume_not_tokenShort he) hfunding
    obtain ⟨hused₁, hframe₁⟩ := refundSubscriptionPreConsume_ok hrecord hpos hrefund
    simp only [source, hinfo, hid, and_true] at hextra ⊢
    by_cases hx : 0 < s.extraReserved
    · rw [if_pos hx] at hextra ⊢
      have hpost := logged_succeeds (fun e he => postConsume_not_tokenShort he) hextra
      obtain ⟨⟨hzero, -⟩ | ⟨-, hused₂⟩, hframe₂⟩ := postConsume_ok hpost
      · omega
      refine ⟨?_, ?_⟩
      · simp only [taken]
        omega
      · rw [hframe₂, hframe₁]
        exact ⟨rfl, rfl⟩
    · rw [if_neg hx]
      refine ⟨?_, ?_⟩
      · simp only [taken]
        omega
      · rw [hframe₁]
        exact ⟨rfl, rfl⟩

theorem refund_live (h : Live db₀ db s) (hok : Succeeds (s.refund db).errors) :
    (s.refund db).session = s ∧ (s.refund db).db = db ∨
      (s.refund db).session.refunded = true ∧ Took db₀ (s.refund db).db (s.refund db).session 0 := by
  unfold Session.refund at hok ⊢
  split
  · exact .inl ⟨rfl, rfl⟩
  next hguard =>
  rw [if_neg hguard] at hok
  dsimp only at hok ⊢
  have hfunding := refundFunding_live h
    (fun e he => hok e (mem_append_left _ (mem_append_left _ he)))
    (fun e he => hok e (mem_append_left _ (mem_append_right _ he)))
  generalize (s.refundExtra (logged db (s.funding.refund db)).1).1 = db₂ at *
  obtain ⟨htaken, hsame⟩ := hfunding
  refine .inr ⟨rfl, ?_⟩
  rw [refundToken_eq s db₂ (h.token ▸ h.nonneg), h.token]
  have htook := h.took.charge htaken hsame
  rw [add_neg_cancel] at htook
  exact htook.congr rfl rfl

/-! ## Calls after the end -/

/-- A refunded session is not settled at another amount than its reservation, a subscription not at a negative one. -/
def Sound (st : State) : Op → Prop
  | .settle actual =>
      (st.session.refunded = true → st.session.settled = false →
        actual = st.session.preConsumedQuota) ∧
      (st.session.funding.source = .subscription → 0 ≤ actual)
  | _ => True

instance (st : State) (op : Op) : Decidable (Sound st op) := by
  cases op <;> unfold Sound <;> infer_instance

def UpdatesSucceed (st : State) (op : Op) : Prop := Succeeds (perform st.session st.db op).errors

instance (st : State) (op : Op) : Decidable (UpdatesSucceed st op) :=
  inferInstanceAs (Decidable (Succeeds _))

theorem perform_ended {op : Op} {ending : Option Ending}
    (hended : s.settled = true ∨ s.refunded = true) (hsound : Sound ⟨s, db, ending⟩ op) :
    (perform s db op).db = db ∧ ∃ settled, (s.settled = true → settled = true) ∧
      (perform s db op).session = { s with settled := settled } := by
  cases op with
  | reserve targetQuota =>
    have hguard : (s.settled || s.refunded || s.trusted ||
        decide (targetQuota ≤ s.preConsumedQuota)) = true := by
      rcases hended with h | h <;> simp [h]
    have hsame : perform s db (.reserve targetQuota) = ⟨s, db, []⟩ := if_pos hguard
    rw [hsame]
    exact ⟨rfl, s.settled, id, rfl⟩
  | refund =>
    have hguard : (s.settled || s.refunded || !s.needsRefund) = true := by
      rcases hended with h | h <;> simp [h]
    have hsame : perform s db .refund = ⟨s, db, []⟩ := if_pos hguard
    rw [hsame]
    exact ⟨rfl, s.settled, id, rfl⟩
  | settle actual =>
    simp only [perform, Session.settle]
    by_cases hsettled : s.settled = true
    · rw [if_pos hsettled]
      exact ⟨rfl, s.settled, id, rfl⟩
    · have hsame := hsound.1 (hended.resolve_left hsettled) (Bool.eq_false_iff.mpr hsettled)
      rw [if_neg hsettled, if_pos (sub_eq_zero.mpr hsame)]
      exact ⟨rfl, true, fun _ => rfl, rfl⟩

/-! ## Whole histories -/

def Inv (db₀ : Store) (st : State) : Prop :=
  match st.ending with
  | none => Live db₀ st.db st.session
  | some (.settled actual) => st.session.settled = true ∧ Took db₀ st.db st.session actual
  | some .refunded => st.session.refunded = true ∧ Took db₀ st.db st.session 0

theorem Inv.ended {st : State} (h : Inv db₀ st) (hne : st.ending ≠ none) :
    st.session.settled = true ∨ st.session.refunded = true := by
  unfold Inv at h
  split at h
  · next hnone => exact absurd hnone hne
  · exact .inl h.1
  · exact .inr h.1

theorem Inv.took {st : State} (h : Inv db₀ st) : Took db₀ st.db st.session st.due := by
  unfold Inv at h
  unfold State.due
  split at h
  · exact h.took
  · exact h.2
  · exact h.2

theorem step_live (op : Op) (h : Live db₀ db s) (hok : UpdatesSucceed ⟨s, db, none⟩ op) (hsound : Sound ⟨s, db, none⟩ op) :
    Inv db₀ (step ⟨s, db, none⟩ op) := by
  cases op with
  | reserve targetQuota => exact reserve_live targetQuota h hok
  | settle actual =>
    obtain ⟨hsettled, htook⟩ := settle_live h hsound.2 hok
    have hending : (step ⟨s, db, none⟩ (.settle actual)).ending = some (.settled actual) := by
      simp [step, perform, endingOf, h.unsettled, hsettled]
    unfold Inv
    rw [hending]
    exact ⟨hsettled, htook⟩
  | refund =>
    rcases refund_live h hok with ⟨hs, hdb⟩ | ⟨hrefunded, htook⟩
    · have hsame : step ⟨s, db, none⟩ .refund = ⟨s, db, none⟩ := by
        simp [step, perform, endingOf, hs, hdb]
      rw [hsame]
      exact h
    · have hending : (step ⟨s, db, none⟩ .refund).ending = some .refunded := by
        simp [step, perform, endingOf, h.unrefunded, hrefunded]
      unfold Inv
      rw [hending]
      exact ⟨hrefunded, htook⟩

theorem step_ended {ending : Ending} (op : Op) (h : Inv db₀ ⟨s, db, some ending⟩) (hsound : Sound ⟨s, db, some ending⟩ op) :
    Inv db₀ (step ⟨s, db, some ending⟩ op) := by
  have hended : s.settled = true ∨ s.refunded = true := h.ended (by simp)
  obtain ⟨hdb, settled, hkeep, hs⟩ := perform_ended hended hsound
  have hstep : step ⟨s, db, some ending⟩ op = ⟨{ s with settled := settled }, db, some ending⟩ := by
    simp only [step, hdb, hs, Option.some_or]
  rw [hstep]
  cases ending with
  | settled actual => exact ⟨hkeep h.1, h.2.congr rfl rfl⟩
  | refunded => exact ⟨h.1, h.2.congr rfl rfl⟩

theorem step_inv (st : State) (op : Op) (h : Inv db₀ st)
    (hok : UpdatesSucceed st op ∧ Sound st op) : Inv db₀ (step st op) := by
  obtain ⟨s, db, ending⟩ := st
  cases ending with
  | none => exact step_live op h hok.1 hok.2
  | some ending => exact step_ended op h hok.2

/-! ## Opening a session -/

theorem chargeToken_zero (isPlayground : Bool) (db : Store) : chargeToken isPlayground 0 db = db := by
  cases isPlayground
  · simp [chargeToken]
  · rfl

theorem preConsumeToken_ok {db' : Store} (hquota : 0 ≤ quota)
    (hzero : s.tokenConsumed = 0) (h : s.preConsumeToken env db quota = .ok (s', db')) :
    s' = { s with tokenConsumed := quota } ∧ db' = chargeToken s.info.isPlayground quota db := by
  unfold Session.preConsumeToken at h
  by_cases hpos : 0 < quota
  · rw [if_pos hpos] at h
    obtain ⟨db₁, htoken, heq⟩ := except_map_ok h
    cases heq
    have hpre : preConsumeTokenQuota db s.info.isPlayground s.info.tokenUnlimited quota = .ok db' := by
      split at htoken
      · exact htoken
      · exact (Env.accessing_ok htoken).2
    rcases preConsumeTokenQuota_cases db s.info.isPlayground s.info.tokenUnlimited hquota with heq | heq
    · rw [heq] at hpre
      cases hpre
      exact ⟨rfl, rfl⟩
    · rw [heq] at hpre
      cases hpre
  · have hq : quota = 0 := by omega
    rw [if_neg hpos] at h
    cases h
    subst hq
    refine ⟨?_, (chargeToken_zero _ _).symm⟩
    rw [← hzero]

theorem chargeToken_took {isPlayground : Bool} (hp : isPlayground = false) :
    db₀.tokenRemainQuota - (chargeToken isPlayground quota db₀).tokenRemainQuota = quota ∧
      (chargeToken isPlayground quota db₀).tokenUsedQuota - db₀.tokenUsedQuota = quota := by
  subst hp
  simp only [chargeToken, Bool.false_eq_true, if_false]
  omega

theorem wallet_preConsume_live (hused : ∀ id, 0 ≤ amountUsedOf db₀.subs id) (hquota : 0 ≤ quota)
    (h : (newSession info (.wallet 0)).preConsume env db₀ quota = .ok (s, db)) : Live db₀ db s := by
  unfold Session.preConsume at h
  generalize (newSession info (.wallet 0)).shouldTrust env = trusted at h
  dsimp only at h
  have heff : 0 ≤ if trusted = true then 0 else quota := by split <;> omega
  generalize (if trusted = true then 0 else quota) = effective at h heff
  split at h
  · cases h
  next s₁ db₁ htoken =>
  obtain ⟨hs₁, hdb₁⟩ := preConsumeToken_ok heff rfl htoken
  subst hs₁ hdb₁
  dsimp only [newSession, preConsume] at h
  split at h
  · cases h
  next funding db₂ hfunding =>
  cases h
  refine ⟨rfl, rfl, rfl, heff, rfl, ?_, ?_, hused⟩
  all_goals by_cases hpos : effective ≤ 0
  · rw [if_pos hpos] at hfunding
    cases hfunding
    exact le_antisymm heff hpos
  · rw [if_neg hpos] at hfunding
    obtain ⟨db₃, -, heq⟩ := except_map_ok hfunding
    cases heq
    rfl
  · rw [if_pos hpos] at hfunding
    cases hfunding
    have hzero : effective = 0 := le_antisymm hpos heff
    refine ⟨?_, fun hp => (chargeToken_took hp).1, fun hp => (chargeToken_took hp).2⟩
    rw [hzero, chargeToken_zero]
    exact sub_self _
  · rw [if_neg hpos, decreaseUserQuota_eq _ heff] at hfunding
    obtain ⟨db₃, hwallet, heq⟩ := except_map_ok hfunding
    cases heq
    cases (Env.accessing_ok hwallet).2
    refine ⟨?_, fun hp => (chargeToken_took hp).1, fun hp => (chargeToken_took hp).2⟩
    have htaken := taken_chargeToken (.wallet 0) info.isPlayground effective db₀ db₀
    simp only [taken, Session.syncRelayInfo] at htaken ⊢
    omega

theorem subscription_preConsume_live (hused₀ : ∀ id, 0 ≤ amountUsedOf db₀.subs id) (hreset : NoReset env.reset)
    (hfresh : db₀.records.get info.requestId = none)
    (hquota : 0 < quota)
    (h : (newSession info (.subscription ⟨info.requestId, info.userId, quota, 0, 0, 0, 0⟩)).preConsume
      env db₀ quota = .ok (s, db)) : Live db₀ db s := by
  unfold Session.preConsume at h
  rw [shouldTrust_subscription] at h
  simp only [Bool.false_eq_true, if_false] at h
  split at h
  · cases h
  next s₁ db₁ htoken =>
  obtain ⟨hs₁, hdb₁⟩ := preConsumeToken_ok hquota.le rfl htoken
  subst hs₁ hdb₁
  dsimp only [newSession, preConsume] at h
  split at h
  · cases h
  next funding db₂ hfunding =>
  cases h
  obtain ⟨⟨res, db₂⟩, hsub, heq⟩ := except_map_ok hfunding
  cases heq
  have hpre : preConsumeUserSubscription env.reset (chargeToken info.isPlayground quota db₀) info.requestId
      info.userId env.now quota = .ok (res, db₂) := Env.preConsumeSubscription_ok hsub
  have hfresh₁ : (chargeToken info.isPlayground quota db₀).records.get info.requestId = none := by
    rw [records_chargeToken]
    exact hfresh
  obtain ⟨-, -, hamount, hid, hused, hrecord, hframe⟩ :=
    preConsumeUserSubscription_ok hreset hfresh₁ hpre
  refine ⟨rfl, rfl, rfl, hquota.le, rfl, ?_, ⟨?_, ?_, ?_⟩, hused₀⟩
  · refine ⟨?_, le_refl 0, ?_, hid, rfl, ?_⟩
    · dsimp only
      omega
    · exact (add_zero _).trans hamount
    · rw [hrecord, hamount]
  · have hsubs : (chargeToken info.isPlayground quota db₀).subs = db₀.subs := by
      cases info.isPlayground <;> rfl
    rw [hsubs] at hused
    simp only [taken, Session.syncRelayInfo]
    omega
  · intro hp
    rw [hframe]
    exact (chargeToken_took hp).1
  · intro hp
    rw [hframe]
    exact (chargeToken_took hp).2

theorem openSession_live {source : BillingSource} (hused : ∀ id, 0 ≤ amountUsedOf db₀.subs id) (hquota : 0 ≤ quota)
    (hreset : NoReset env.reset)
    (hfresh : source = .subscription → db₀.records.get info.requestId = none)
    (h : openSession source env info db₀ quota = .ok (s, db)) : Live db₀ db s := by
  cases source with
  | wallet =>
    simp only [openSession, tryWallet] at h
    split at h
    · cases h
    split at h
    · cases h
    split at h
    · cases h
    exact wallet_preConsume_live hused hquota h
  | subscription =>
    refine subscription_preConsume_live hused hreset (hfresh rfl) ?_ h
    split <;> omega

/-! ## Conservation -/

/-- **Conservation.** In every history of sound calls whose updates go through, source and token are down by exactly what the
session owes, and no call after the first effective terminal one changes a balance. -/
theorem session_conserves_balances (source : BillingSource) (env : Env) (info : RelayInfo)
    (db₀ db : Store) (quota : ℤ) (s : Session) (hused : ∀ id, 0 ≤ amountUsedOf db₀.subs id) (hquota : 0 ≤ quota)
    (hreset : NoReset env.reset)
    (hfresh : source = .subscription → db₀.records.get info.requestId = none)
    (hopen : openSession source env info db₀ quota = .ok (s, db)) (ops : List Op)
    (hops : Along step (fun st op => UpdatesSucceed st op ∧ Sound st op) ⟨s, db, none⟩ ops) :
    Took db₀ (run step ⟨s, db, none⟩ ops).db (run step ⟨s, db, none⟩ ops).session (run step ⟨s, db, none⟩ ops).due ∧
      ((run step ⟨s, db, none⟩ ops).ending ≠ none → ∀ op, Sound (run step ⟨s, db, none⟩ ops) op →
          (step (run step ⟨s, db, none⟩ ops) op).db = (run step ⟨s, db, none⟩ ops).db) := by
  have hlive : Inv db₀ ⟨s, db, none⟩ := openSession_live hused hquota hreset hfresh hopen
  have hinv := run_invariant step_inv hlive hops
  exact ⟨hinv.took, fun hne op hsound => (perform_ended (hinv.ended hne) hsound).1⟩

/-! A user with 1000 units in the wallet and a subscription of 500, 40 of which are used. -/

def sampleEnv : Env := ⟨0, 0, 50, .ok, 50, fun _ => none⟩

def sampleInfo : RelayInfo := ⟨7, "req-1", false, false, false, 0, 0, none, 0, 0, 0, 0, 0⟩

def sampleSub : UserSubscription where
  id := 1
  userId := 7
  planId := 1
  amountTotal := 500
  amountUsed := 40
  startTime := 0
  endTime := 100
  status := .active
  lastResetTime := 0
  nextResetTime := 0
  upgradeGroup := ""
  prevUserGroup := ""
  downgradeGroup := ""
  allowWalletOverflow := true
  id_pos := by decide

def sampleStore : Store := ⟨1000, 300, 0, ⟨[sampleSub], by decide⟩, ⟨[], by decide⟩⟩

theorem sampleStore_used (id : ℤ) : 0 ≤ amountUsedOf sampleStore.subs id := by
  unfold amountUsedOf
  split
  · next sub hsub =>
    have hmem := ((sampleStore.subs.get_eq_some_iff _ _).mp hsub).1
    rw [List.mem_singleton.mp hmem]
    decide
  · exact le_refl 0

theorem session_conserves_balances_subscription :
    ∃ s db, openSession .subscription sampleEnv sampleInfo sampleStore 10 = .ok (s, db) ∧
      Took sampleStore (run step ⟨s, db, none⟩ [.reserve 25, .settle 18, .refund]).db
        (run step ⟨s, db, none⟩ [.reserve 25, .settle 18, .refund]).session 18 := by
  refine ⟨_, _, rfl, ?_⟩
  exact (session_conserves_balances .subscription sampleEnv sampleInfo sampleStore _ 10 _ sampleStore_used (by decide)
    (fun _ _ h => by cases h; exact ⟨rfl, rfl⟩) (fun _ => rfl) rfl [.reserve 25, .settle 18, .refund] (by decide)).1

/-- A settlement at another amount after the refund is charged in full on top of it. -/
theorem settle_after_refund_charges : ∃ s db, openSession .wallet sampleEnv sampleInfo sampleStore 10 = .ok (s, db) ∧
      Along step UpdatesSucceed ⟨s, db, none⟩ [.refund, .settle 30] ∧
      (run step ⟨s, db, none⟩ [.refund, .settle 30]).ending = some .refunded ∧
      s.funding.taken sampleStore (run step ⟨s, db, none⟩ [.refund, .settle 30]).db = 20 ∧
      ¬ Took sampleStore (run step ⟨s, db, none⟩ [.refund, .settle 30]).db
        (run step ⟨s, db, none⟩ [.refund, .settle 30]).session
        (run step ⟨s, db, none⟩ [.refund, .settle 30]).due :=
  ⟨_, _, rfl, by decide, rfl, rfl, fun h => absurd h.funding (by decide)⟩

end HotAI.Billing
