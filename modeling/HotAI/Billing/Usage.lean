import HotAI.Billing.Period

/-! # The used amount of a subscription stays within its total

Pre-consumption, its refund, a later adjustment and the reset pass write `AmountUsed`. Each keeps every row, its total and
the bound. -/
namespace HotAI.Billing
open HotAI.Lib HotAI.Subscription Table

inductive UsageOp where
  | preConsume (requestId : String) (userId amount : ℤ)
  | refund (requestId : String)
  | postConsume (userSubscriptionId delta : ℤ)
  | resetDue (limit : ℤ)
deriving DecidableEq

structure UsageLabel where
  elapsed : ℕ
  op : UsageOp

structure Books where
  clock : ℤ
  db : Store

def performUsage (plans : Plans) (now : ℤ) (db : Store) : UsageOp → Except StoreError Store
  | .preConsume requestId userId amount =>
      (preConsumeUserSubscription (plans.reset now) db requestId userId now amount).map Prod.snd
  | .refund requestId => refundSubscriptionPreConsume db requestId
  | .postConsume id delta => postConsumeUserSubscriptionDelta db id delta
  | .resetDue limit => .ok (resetDueSubscriptions plans db now limit)

def usageStep (plans : Plans) (b : Books) (l : UsageLabel) : Books :=
  ⟨b.clock + l.elapsed, match performUsage plans (b.clock + l.elapsed) b.db l.op with
    | .ok db => db
    | .error _ => b.db⟩

/-! ## Rows within their total -/

structure Limited (old new : UserSubscription) : Prop where
  total : new.amountTotal = old.amountTotal
  nonneg : 0 ≤ old.amountUsed → 0 ≤ new.amountUsed
  used : 0 < old.amountTotal → old.amountUsed ≤ old.amountTotal → new.amountUsed ≤ old.amountTotal

def KeepsLimits (subs subs' : SubTable) : Prop :=
  ∀ id old, subs.get id = some old → ∃ new, subs'.get id = some new ∧ Limited old new

theorem Limited.refl (sub : UserSubscription) : Limited sub sub := ⟨rfl, fun h => h, fun _ h => h⟩

theorem Limited.trans {a b c : UserSubscription} (h : Limited a b) (h' : Limited b c) : Limited a c := by
  refine ⟨h'.total.trans h.total, fun hnonneg => h'.nonneg (h.nonneg hnonneg), fun hpos hused => ?_⟩
  have hb := h.used hpos hused
  rw [← h.total] at hpos hb ⊢
  exact h'.used hpos hb

theorem KeepsLimits.refl (subs : SubTable) : KeepsLimits subs subs :=
  fun _ old h => ⟨old, h, Limited.refl old⟩

theorem KeepsLimits.trans {a b c : SubTable} (h : KeepsLimits a b) (h' : KeepsLimits b c) : KeepsLimits a c := by
  intro id old hold
  obtain ⟨mid, hmid, hlimited⟩ := h id old hold
  obtain ⟨new, hnew, hlimited'⟩ := h' id mid hmid
  exact ⟨new, hnew, hlimited.trans hlimited'⟩

theorem keepsLimits_put {subs : SubTable} {row old : UserSubscription}
    (hget : subs.get row.id = some old) (h : Limited old row) : KeepsLimits subs (subs.put row) := by
  intro id other hother
  by_cases hid : id = row.id
  · subst hid
    rw [hget] at hother
    cases hother
    exact ⟨row, get_put_self hget, h⟩
  · exact ⟨other, by rw [get_put_of_ne hid]; exact hother, Limited.refl other⟩

theorem ResetOf.limited {sub : UserSubscription} {result : UserSubscription × Bool}
    (h : ResetOf sub result) : Limited sub result.1 := by
  refine ⟨h.amountTotal, fun hnonneg => ?_, fun hpos hused => ?_⟩ <;> rw [h.amountUsed]
  · split
    · exact le_refl 0
    · exact hnonneg
  · split
    · exact hpos.le
    · exact hused

/-! ## The operations -/

variable {plans : Plans} {db db' : Store}

theorem keepsLimits_charged {now amount userId : ℤ} (hamount : 0 < amount) {charged : UserSubscription} {usedBefore : ℤ} {subs' : SubTable}
    (h : chargeFirst (plans.reset now) amount (activeSubs db userId now) db.subs = .ok (charged, usedBefore, subs')) :
    KeepsLimits db.subs subs' := by
  obtain ⟨⟨candidate, hmem, sub, hreset, -, hcharged, henough⟩, hstored, hothers⟩ :=
    chargeFirst_ok (fun _ _ heq => (Plans.reset_ok heq).id) activeSubs_rows (nodup_activeSubs ..) h
  have hresetOf := Plans.reset_ok hreset
  have hid : charged.id = candidate.id := by
    rw [hcharged]
    exact hresetOf.id
  intro id old hold
  by_cases hsame : id = charged.id
  · subst hsame
    have hcandidate : old = candidate := by
      rw [hid, activeSubs_rows candidate hmem] at hold
      exact (Option.some.inj hold).symm
    subst hcandidate
    refine ⟨charged, hstored, hresetOf.limited.trans ⟨by rw [hcharged]; rfl, fun hnonneg => ?_, fun hpos _ => ?_⟩⟩ <;>
      rw [hcharged]
    · exact add_nonneg hnonneg hamount.le
    · exact henough hpos
  · rcases hothers id hsame with hget | ⟨row, hrow, hrowid, new, hnew, hget⟩
    · exact ⟨old, hget.trans hold, Limited.refl old⟩
    · have hold' : old = row := by
        rw [← hrowid, activeSubs_rows row hrow] at hold
        exact (Option.some.inj hold).symm
      subst hold'
      exact ⟨new, hget, (Plans.reset_ok hnew).limited⟩

variable {requestId : String}

theorem keepsLimits_preConsume {now userId amount : ℤ} {res : PreConsumeResult}
    (h : preConsumeUserSubscription (plans.reset now) db requestId userId now amount = .ok (res, db')) :
    KeepsLimits db.subs db'.subs := by
  obtain ⟨hamount, -, ⟨_, _, rfl⟩ | ⟨-, charged, usedBefore, hcharged, -⟩⟩ :=
    preConsumeUserSubscription_cases h
  · exact KeepsLimits.refl _
  · exact keepsLimits_charged hamount hcharged

theorem keepsLimits_postConsume {id delta : ℤ}
    (h : postConsumeUserSubscriptionDelta db id delta = .ok db') : KeepsLimits db.subs db'.subs := by
  unfold postConsumeUserSubscriptionDelta at h
  split at h
  · cases h
  split at h
  · cases h
    exact KeepsLimits.refl _
  split at h
  · cases h
  · next sub hsub =>
    dsimp only at h
    split at h
    · cases h
    · next hwithin =>
      cases h
      have hget : db.subs.get (sub.withUsed (max 0 (sub.amountUsed + delta))).id = some sub := by
        rw [← key_of_get hsub] at hsub
        exact hsub
      refine keepsLimits_put hget ⟨rfl, fun _ => le_max_left _ _, fun hpos _ => ?_⟩
      by_contra hover
      exact hwithin ⟨hpos, not_le.mp hover⟩

theorem keepsLimits_resetOne (plans : Plans) (now : ℤ) (subs : SubTable) (listed : UserSubscription) :
    KeepsLimits subs (resetOne plans now subs listed) := by
  unfold resetOne
  split
  · next plan locked _ hlocked =>
    split
    · have hspec := maybeReset_spec plans.cal plan now locked
      refine keepsLimits_put ?_ hspec.limited
      rw [hspec.id, key_of_get hlocked]
      exact hlocked
    · exact KeepsLimits.refl _
  · exact KeepsLimits.refl _

theorem keepsLimits_resetAll (plans : Plans) (now : ℤ) (listed : List UserSubscription) (subs : SubTable) :
    KeepsLimits subs (listed.foldl (resetOne plans now) subs) := by
  induction listed generalizing subs with
  | nil => exact KeepsLimits.refl _
  | cons first rest ih =>
    exact (keepsLimits_resetOne plans now subs first).trans (ih _)

def sampleResetCalendar : ResetCalendar where
  nextDay base := base - base % 86400 + 86400
  nextMonday base := base - base % 604800 + 604800
  nextMonth base := base - base % 2592000 + 2592000
  lt_nextDay base := by omega
  lt_nextMonday base := by omega
  lt_nextMonth base := by omega

def samplePlans : Plans := ⟨fun id => if id = 1 then some ⟨"custom", 3600⟩ else none, sampleResetCalendar⟩

def hourlySub : UserSubscription where
  id := 1
  userId := 7
  planId := 1
  amountTotal := 100
  amountUsed := 0
  startTime := 0
  endTime := 1000000
  status := .active
  lastResetTime := 0
  nextResetTime := 3600
  upgradeGroup := ""
  prevUserGroup := ""
  downgradeGroup := ""
  allowWalletOverflow := false
  id_pos := Int.one_pos

def sampleBooks : Books := ⟨0, 0, 0, 0, ⟨[hourlySub], by decide⟩, ⟨[], List.nodup_nil⟩⟩

end HotAI.Billing
