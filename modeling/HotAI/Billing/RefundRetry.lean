import HotAI.Billing.Usage

/-! # Refunds of a pre-consumption under database failures

The record is marked in one transaction, inside which `PostConsumeUserSubscriptionDelta` gives the amount back in one of its
own. Every statement and commit may fail; a failed transaction takes only its own statements back. -/
namespace HotAI.Billing
open HotAI.Lib HotAI.Subscription Table

inductive Stmt where
  | begin
  | selectRecord
  | beginInner
  | selectSub
  | saveSub
  | commitInner
  | saveRecord
  | commit
deriving DecidableEq, Repr

inductive RefundError where
  | database (stmt : Stmt)
  | store (e : StoreError)
deriving DecidableEq, Repr

/-- `PostConsumeUserSubscriptionDelta`, of which the statements in `fails` fail. -/
def postConsumeUnder (fails : Stmt → Bool) (db : Store) (userSubscriptionId delta : ℤ) : Except RefundError Store :=
  if userSubscriptionId ≤ 0 then .error (.store .invalidUserSubscriptionId)
  else if delta = 0 then .ok db
  else if fails .beginInner then .error (.database .beginInner)
  else if fails .selectSub then .error (.database .selectSub)
  else match postConsumeUserSubscriptionDelta db userSubscriptionId delta with
    | .error e => .error (.store e)
    | .ok db' =>
        if fails .saveSub then .error (.database .saveSub)
        else if fails .commitInner then .error (.database .commitInner)
        else .ok db'

theorem postConsumeUnder_no_failure (db : Store) (id delta : ℤ) : postConsumeUnder (fun _ => false) db id delta =
      (postConsumeUserSubscriptionDelta db id delta).mapError .store := by
  unfold postConsumeUnder
  by_cases hid : id ≤ 0
  · rw [if_pos hid, postConsumeUserSubscriptionDelta, if_pos hid]
    rfl
  by_cases hdelta : delta = 0
  · rw [if_neg hid, if_pos hdelta, postConsumeUserSubscriptionDelta, if_neg hid, if_pos hdelta]
    rfl
  · rw [if_neg hid, if_neg hdelta]
    cases postConsumeUserSubscriptionDelta db id delta with
    | error e => rfl
    | ok db' => rfl

def markRefunded (fails : Stmt → Bool) (db : Store) (record : PreConsumeRecord) : Option RefundError × Store :=
  if fails .saveRecord then (some (.database .saveRecord), db)
  else if fails .commit then (some (.database .commit), db)
  else (none, { db with records := db.records.put { record with status := .refunded } })

/-- One attempt of `RefundSubscriptionPreConsume`: its error, and the store it leaves. -/
def refundAttempt (fails : Stmt → Bool) (db : Store) (requestId : String) : Option RefundError × Store :=
  if trimSpace requestId = "" then (some (.store .requestIdEmpty), db)
  else if fails .begin then (some (.database .begin), db)
  else if fails .selectRecord then (some (.database .selectRecord), db)
  else match db.records.get requestId with
    | none => (some (.store .recordNotFound), db)
    | some record =>
        if record.status = .refunded then
          (if fails .commit then some (.database .commit) else none, db)
        else if record.preConsumed ≤ 0 then markRefunded fails db record
        else match postConsumeUnder fails db record.userSubscriptionId (-record.preConsumed) with
          | .error e => (some e, db)
          -- what the inner transaction has committed stays, whatever becomes of the outer one
          | .ok db₁ => markRefunded fails db₁ record

theorem refundAttempt_no_failure (db : Store) (requestId : String) :
    refundAttempt (fun _ => false) db requestId = match refundSubscriptionPreConsume db requestId with
      | .ok db' => (none, db')
      | .error e => (some (.store e), db) := by
  unfold refundAttempt refundSubscriptionPreConsume
  split
  · rfl
  simp only [Bool.false_eq_true, if_false]
  cases db.records.get requestId with
  | none => rfl
  | some record =>
    dsimp only
    split
    · rfl
    split
    · rfl
    rw [postConsumeUnder_no_failure]
    cases postConsumeUserSubscriptionDelta db record.userSubscriptionId (-record.preConsumed) with
    | error e => rfl
    | ok db' => rfl

/-! ## Calls with retries -/

/-- A call of `SubscriptionFunding.Refund`: in `refundWithRetry` after so many attempts, or back. -/
inductive RefundCall where
  | trying (attempts : ℕ)
  | done (err : Option RefundError)
deriving DecidableEq, Repr

def maxAttempts : ℕ := 3

/-- The call starts; a funding that has taken nothing has nothing to refund. -/
def RefundCall.start (preConsumed : ℤ) : RefundCall := if preConsumed ≤ 0 then .done none else .trying 0

/-- `refundWithRetry` after an attempt. -/
def RefundCall.after (attempts : ℕ) : Option RefundError → RefundCall
  | none => .done none
  | some e => if attempts + 1 < maxAttempts then .trying (attempts + 1) else .done (some e)

/-- The store, the calls that refund the watched request, and what they have given back so far. -/
structure Refunding where
  clock : ℤ
  db : Store
  calls : List RefundCall
  givenBack : ℤ

inductive RefundLabel where
  | call (preConsumed : ℤ)
  | attempt (i : ℕ) (fails : Stmt → Bool)
  | other (l : UsageLabel)

def usedOfRequest (db : Store) (requestId : String) : ℤ :=
  match db.records.get requestId with
  | some record => amountUsedOf db.subs record.userSubscriptionId
  | none => 0

def refundStep (plans : Plans) (requestId : String) (s : Refunding) : RefundLabel → Refunding
  | .call preConsumed => { s with calls := s.calls ++ [RefundCall.start preConsumed] }
  | .attempt i fails =>
      match s.calls[i]? with
      | some (.trying attempts) =>
          let (err, db) := refundAttempt fails s.db requestId
          ⟨s.clock, db, s.calls.set i (RefundCall.after attempts err),
            s.givenBack + (usedOfRequest s.db requestId - usedOfRequest db requestId)⟩
      | _ => s
  | .other l =>
      let b := usageStep plans ⟨s.clock, s.db⟩ l
      { s with clock := b.clock, db := b.db }

def innerCommits (fails : Stmt → Bool) : Bool :=
  !fails .begin && !fails .selectRecord && !fails .beginInner && !fails .selectSub && !fails .saveSub &&
    !fails .commitInner

/-- The record is saved as refunded if the amount is given back, and the subscription has that much. Other operations do not
refund the request. -/
def separable (requestId : String) (s : Refunding) : RefundLabel → Bool
  | .call _ => true
  | .attempt _ fails =>
      match s.db.records.get requestId with
      | none => true
      | some record => record.status = .refunded ||
          (!innerCommits fails || !fails .saveRecord && !fails .commit) &&
            record.preConsumed ≤ amountUsedOf s.db.subs record.userSubscriptionId
  | .other l => l.op ≠ .refund requestId

/-! ## One attempt -/

variable {requestId : String} {plans : Plans} {record : PreConsumeRecord} {db db' : Store}

theorem postConsumeUnder_ok {fails : Stmt → Bool} {id delta : ℤ} (hdelta : delta ≠ 0)
    (h : postConsumeUnder fails db id delta = .ok db') :
    postConsumeUserSubscriptionDelta db id delta = .ok db' ∧ fails .beginInner = false ∧
      fails .selectSub = false ∧ fails .saveSub = false ∧ fails .commitInner = false := by
  unfold postConsumeUnder at h
  split at h
  · cases h
  split at h
  · cases h
  next hbegin =>
  split at h
  · cases h
  next hselect =>
  split at h
  · cases h
  next hpost =>
  split at h
  · cases h
  next hsave =>
  split at h
  · cases h
  next hcommit =>
  cases h
  simp only [Bool.not_eq_true] at hbegin hselect hsave hcommit
  exact ⟨hpost, hbegin, hselect, hsave, hcommit⟩

theorem markRefunded_snd (fails : Stmt → Bool) (db : Store) (record : PreConsumeRecord) :
    (fails .saveRecord || fails .commit) = true ∧ (markRefunded fails db record).2 = db ∨ (markRefunded fails db record).2 =
        { db with records := db.records.put { record with status := .refunded } } := by
  unfold markRefunded
  split
  · next hsave => exact .inl ⟨by rw [hsave]; rfl, rfl⟩
  split
  · next hcommit => exact .inl ⟨by rw [hcommit, Bool.or_true], rfl⟩
  · exact .inr rfl

/-- An attempt writes nothing, or marks a record without an amount, or marks one whose amount the inner transaction has given
back. -/
theorem refundAttempt_inv (fails : Stmt → Bool) (db : Store) (requestId : String) :
    (∃ err, refundAttempt fails db requestId = (err, db)) ∨ ∃ record, db.records.get requestId = some record ∧
      (record.preConsumed ≤ 0 ∧ refundAttempt fails db requestId = markRefunded fails db record ∨
        0 < record.preConsumed ∧ record.status = .consumed ∧ trimSpace requestId ≠ "" ∧ innerCommits fails = true ∧
          ∃ db₁, postConsumeUserSubscriptionDelta db record.userSubscriptionId (-record.preConsumed) = .ok db₁ ∧
            refundAttempt fails db requestId = markRefunded fails db₁ record) := by
  unfold refundAttempt
  split
  · exact .inl ⟨_, rfl⟩
  next hblank =>
  split
  · exact .inl ⟨_, rfl⟩
  next hbegin =>
  split
  · exact .inl ⟨_, rfl⟩
  next hselect =>
  cases hrecord : db.records.get requestId with
  | none => exact .inl ⟨_, rfl⟩
  | some record =>
    dsimp only
    cases hstatus : record.status with
    | refunded => exact .inl ⟨_, rfl⟩
    | consumed =>
      rw [if_neg (by decide)]
      split
      · next hnone => exact .inr ⟨record, rfl, .inl ⟨hnone, rfl⟩⟩
      next hpos =>
      cases hinner : postConsumeUnder fails db record.userSubscriptionId (-record.preConsumed) with
      | error e => exact .inl ⟨_, rfl⟩
      | ok db₁ =>
        obtain ⟨hpost, hbegin', hselect', hsave, hcommit⟩ := postConsumeUnder_ok (by omega) hinner
        refine .inr ⟨record, rfl, .inr ⟨not_le.mp hpos, hstatus, hblank, ?_, db₁, hpost, rfl⟩⟩
        simp only [innerCommits, hbegin, hselect, hbegin', hselect', hsave, hcommit, Bool.not_false, Bool.and_self]

/-- An attempt changes nothing, or commits and marks the record, unless one of the outer transaction's last statements fails.
-/
theorem refundAttempt_cases {fails : Stmt → Bool} {db : Store} {requestId : String}
    {record : PreConsumeRecord} (hrecord : db.records.get requestId = some record)
    (hpos : 0 < record.preConsumed) :
    (refundAttempt fails db requestId).2 = db ∨ record.status = .consumed ∧ innerCommits fails = true ∧
      ∃ db₁, postConsumeUserSubscriptionDelta db record.userSubscriptionId (-record.preConsumed) = .ok db₁ ∧
        ((fails .saveRecord || fails .commit) = true ∧ (refundAttempt fails db requestId).2 = db₁ ∨
          (refundAttempt fails db requestId).2 =
            { db₁ with records := db₁.records.put { record with status := .refunded } }) := by
  obtain ⟨err, h⟩ | ⟨record', hget, ⟨hnone, -⟩ | ⟨-, hstatus, -, hinner, db₁, hpost, h⟩⟩ :=
    refundAttempt_inv fails db requestId
  · exact .inl (by rw [h])
  · rw [hrecord] at hget
    cases hget
    omega
  · rw [hrecord] at hget
    cases hget
    rw [h]
    exact .inr ⟨hstatus, hinner, db₁, hpost, markRefunded_snd fails db₁ record⟩

/-! ## Runs -/

/-- The request's record is still there, and what was given back is what its status says. -/
structure RefundInv (requestId : String) (preConsumed : ℤ) (s : Refunding) : Prop where
  record : ∃ record, s.db.records.get requestId = some record ∧ record.preConsumed = preConsumed ∧
    s.givenBack = if record.status = .refunded then preConsumed else 0

theorem performUsage_record {now : ℤ} {op : UsageOp} (h : performUsage plans now db op = .ok db')
    (hrecord : db.records.get requestId = some record) (hop : op ≠ .refund requestId) :
    db'.records.get requestId = some record := by
  cases op with
  | preConsume other userId amount =>
    simp only [performUsage] at h
    cases hpre : preConsumeUserSubscription (plans.reset now) db other userId now amount with
    | error e =>
      rw [hpre] at h
      cases h
    | ok result =>
      rw [hpre] at h
      cases h
      obtain ⟨-, -, ⟨_, -, heq⟩ | ⟨-, _, _, -, -, hdb⟩⟩ := preConsumeUserSubscription_cases hpre
      · rw [heq]
        exact hrecord
      · rw [hdb]
        exact get_add_of_get hrecord
  | refund other =>
    have hne : requestId ≠ other := by
      rintro rfl
      exact hop rfl
    obtain ⟨record', hrecord', ⟨-, rfl⟩ | ⟨-, db₁, hdb₁, rfl⟩⟩ := refundSubscriptionPreConsume_cases h
    · exact hrecord
    · have hrecords : db₁.records = db.records := by
        rcases hdb₁ with ⟨-, rfl⟩ | ⟨-, hpost⟩
        · rfl
        · rw [(postConsume_ok hpost).2]
      have hkey : record'.requestId = other := key_of_get hrecord'
      rw [hrecords, get_put_of_ne (by rw [hkey]; exact hne)]
      exact hrecord
  | postConsume id delta =>
    rw [(postConsume_ok h).2]
    exact hrecord
  | resetDue limit =>
    cases h
    exact hrecord

theorem usageStep_record {b : Books} {l : UsageLabel} (hrecord : b.db.records.get requestId = some record)
    (hop : l.op ≠ .refund requestId) : (usageStep plans b l).db.records.get requestId = some record := by
  unfold usageStep
  split
  · next hok => exact performUsage_record hok hrecord hop
  · exact hrecord

theorem refundInv_step {preConsumed : ℤ} (hpos : 0 < preConsumed)
    (s : Refunding) (l : RefundLabel) (h : RefundInv requestId preConsumed s)
    (hok : separable requestId s l = true) : RefundInv requestId preConsumed (refundStep plans requestId s l) := by
  obtain ⟨record, hrecord, hpre, hgiven⟩ := h
  subst hpre
  cases l with
  | call preConsumed => exact ⟨record, hrecord, rfl, hgiven⟩
  | other l =>
    have hop : l.op ≠ .refund requestId := of_decide_eq_true hok
    exact ⟨record, usageStep_record hrecord hop, rfl, hgiven⟩
  | attempt i fails =>
    simp only [refundStep]
    split
    · next attempts _ =>
      have hcases := @refundAttempt_cases fails s.db requestId record hrecord hpos
      generalize refundAttempt fails s.db requestId = result at hcases ⊢
      obtain ⟨err, db⟩ := result
      rcases hcases with rfl | ⟨hstatus, hinner, db₁, hpost, hmark⟩
      · refine ⟨record, hrecord, rfl, ?_⟩
        rw [sub_self, add_zero]
        exact hgiven
      · simp only [separable, hrecord, hstatus, reduceCtorEq, decide_false, Bool.false_or, hinner, Bool.not_true,
          Bool.and_eq_true, Bool.not_eq_true', decide_eq_true_eq] at hok
        obtain ⟨⟨hsave, hcommit⟩, henough⟩ := hok
        rcases hmark with ⟨hfail, -⟩ | rfl
        · rw [hsave, hcommit] at hfail
          cases hfail
        obtain ⟨⟨hzero, -⟩ | ⟨-, hused⟩, hframe⟩ := postConsume_ok hpost
        · omega
        have hkey : record.requestId = requestId := key_of_get hrecord
        subst hkey
        have hmarked : (db₁.records.put { record with status := .refunded }).get record.requestId =
            some { record with status := .refunded } := by
          rw [hframe]
          exact get_put_self hrecord
        refine ⟨{ record with status := .refunded }, hmarked, rfl, ?_⟩
        simp only [usedOfRequest, hrecord, hmarked, hgiven, hstatus, hused, reduceCtorEq, if_false, if_true]
        omega
    · exact ⟨record, hrecord, rfl, hgiven⟩

/-- Without a failure between an attempt's two commits, and with as much used as the request took, it is refunded at most
once, and exactly when its record says so. -/
theorem refunded_at_most_once (plans : Plans) (requestId : String) (s : Refunding) (record₀ : PreConsumeRecord)
    (hrecord : s.db.records.get requestId = some record₀) (hpos : 0 < record₀.preConsumed)
    (hconsumed : record₀.status = .consumed) (hgiven : s.givenBack = 0) (ls : List RefundLabel)
    (hls : Along (refundStep plans requestId) (fun s l => separable requestId s l = true) s ls) :
    ∃ record, (run (refundStep plans requestId) s ls).db.records.get requestId = some record ∧
      record.preConsumed = record₀.preConsumed ∧
      ((run (refundStep plans requestId) s ls).givenBack = 0 ∨
        (run (refundStep plans requestId) s ls).givenBack = record.preConsumed) ∧
      ((run (refundStep plans requestId) s ls).givenBack = record.preConsumed ↔ record.status = .refunded) := by
  have hstart : RefundInv requestId record₀.preConsumed s :=
    ⟨record₀, hrecord, rfl, by rw [hconsumed, hgiven]; rfl⟩
  obtain ⟨record, hget, hpre, hsum⟩ := run_invariant (refundInv_step hpos) hstart hls
  refine ⟨record, hget, hpre, ?_⟩
  rw [hsum, hpre]
  cases record.status with
  | refunded => exact ⟨.inr rfl, fun _ => rfl, fun _ => rfl⟩
  | consumed => exact ⟨.inl rfl, fun heq => absurd heq hpos.ne, fun heq => by cases heq⟩

def sampleRefunding : Refunding where
  clock := 0
  db := ⟨0, 0, 0, ⟨[hourlySub.withUsed 30], by decide⟩, ⟨[⟨"a", 7, 1, 10, .consumed⟩], by decide⟩⟩
  calls := []
  givenBack := 0

/-- The first attempt fails at the inner commit, the second goes through; then the call is repeated. -/
def retriedRefund : List RefundLabel :=
  [.call 10, .attempt 0 (· = .commitInner), .attempt 0 fun _ => false, .call 10, .attempt 1 fun _ => false]

theorem refunded_at_most_once_second_attempt :
    ∃ record, (run (refundStep samplePlans "a") sampleRefunding retriedRefund).db.records.get "a" = some record ∧
      record.preConsumed = 10 ∧
      ((run (refundStep samplePlans "a") sampleRefunding retriedRefund).givenBack = 0 ∨
        (run (refundStep samplePlans "a") sampleRefunding retriedRefund).givenBack = record.preConsumed) ∧
      ((run (refundStep samplePlans "a") sampleRefunding retriedRefund).givenBack = record.preConsumed ↔
        record.status = .refunded) :=
  refunded_at_most_once samplePlans "a" sampleRefunding ⟨"a", 7, 1, 10, .consumed⟩ (by decide) (by decide) rfl rfl
    retriedRefund (by decide +kernel)

/-- The record's update fails after the inner commit: the retry gives the 10 back a second time. -/
theorem retry_refunds_twice :
    let s := run (refundStep samplePlans "a") sampleRefunding [.call 10, .attempt 0 (· = .saveRecord),
      .attempt 0 fun _ => false]
    s.calls = [.done none] ∧ s.givenBack = 20 ∧ amountUsedOf s.db.subs 1 = 10 ∧
      s.db.records.get "a" = some ⟨"a", 7, 1, 10, .refunded⟩ := by
  decide +kernel

end HotAI.Billing
