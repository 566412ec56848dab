import HotAI.TopUp.Orders

/-! # Every mix of completion attempts on the orders

The transactions of the completing functions are one step each; the epay handler is three, under a lock that holds in its own
process only: it reads the order, saves it, and raises the quota. -/
namespace HotAI.TopUp
open HotAI.Lib List Option Table

inductive EpayHandler where
  | read (order : Order) (method : String)
  | saved (order : Order)
deriving DecidableEq

/-- What one step did; `path` is the callback's provider, or none for the administrator and for closing. -/
structure Entry where
  tradeNo : String
  path : Option PaymentProvider
  before : Option OrderStatus
  after : Option OrderStatus
  raised : ℚ
deriving DecidableEq

structure Desk where
  db : Db
  epay : String → Option EpayHandler
  log : List Entry

/-- A step of an attempt; `fails` is the database's error, if it fails the step. -/
inductive Attempt where
  | complete (c : Completion) (tradeNo : String) (now : ℤ) (fails : Option String)
  | close (tradeNo : String) (expected : Option PaymentProvider) (target : Closing) (fails : Option String)
  | epayStart (tradeNo method : String)
  | epaySave (tradeNo : String) (fails : Option String)
  | epayCredit (tradeNo : String) (fails : Option String)

def statusOf (db : Db) (tradeNo : String) : Option OrderStatus := (db.orders.get tradeNo).map Order.status

def raisedBy (db db' : Db) (tradeNo : String) : ℚ :=
  match db.orders.get tradeNo with
  | some order => quotaOf db' order.userId - quotaOf db order.userId
  | none => 0

def Desk.enter (s : Desk) (path : Option PaymentProvider) (tradeNo : String) (db' : Db) : Desk :=
  { s with
    db := db'
    log := s.log ++ [⟨tradeNo, path, statusOf s.db tradeNo, statusOf db' tradeNo, raisedBy s.db db' tradeNo⟩] }

def Desk.setEpay (s : Desk) (tradeNo : String) (handler : Option EpayHandler) : Desk :=
  { s with epay := fun t => if t = tradeNo then handler else s.epay t }

def underFailure (fails : Option String) (result : Except String Db) : Except String Db :=
  match fails with
  | some message => .error message
  | none => result

/-- The store after a step's statements, or the step's error; `none` if the step has nothing to do. -/
def attemptOutcome (quotaPerUnit : ℚ) (s : Desk) : Attempt → Option (Except String Db)
  | .complete c tradeNo now fails => some (underFailure fails (c.run quotaPerUnit now s.db tradeNo))
  | .close tradeNo expected target fails =>
      some (underFailure fails (updatePendingTopUpStatus s.db tradeNo expected target))
  | .epayStart _ _ => none
  | .epaySave tradeNo fails =>
      match s.epay tradeNo with
      | some (.read order method) => some (underFailure fails (.ok (epaySave s.db order method)))
      | _ => none
  | .epayCredit tradeNo fails =>
      match s.epay tradeNo with
      | some (.saved order) => some (underFailure fails (epayCredit quotaPerUnit s.db order))
      | _ => none

def Attempt.tradeNo : Attempt → String
  | .complete _ tradeNo _ _ => tradeNo
  | .close tradeNo _ _ _ => tradeNo
  | .epayStart tradeNo _ => tradeNo
  | .epaySave tradeNo _ => tradeNo
  | .epayCredit tradeNo _ => tradeNo

def Attempt.path : Attempt → Option PaymentProvider
  | .complete c _ _ _ => c.provider
  | .close _ _ _ _ => none
  | _ => some .epay

def nextHandler (quotaPerUnit : ℚ) (s : Desk) (l : Attempt) : Option EpayHandler :=
  match l, s.epay l.tradeNo with
  | .epayStart tradeNo method, none => (epayRead s.db tradeNo).map fun order => .read order method
  | .epaySave _ _, some (.read order _) =>
      match attemptOutcome quotaPerUnit s l with
      | some (.ok _) => some (.saved order)
      | _ => none
  | .epayCredit _ _, some (.saved _) => none
  | _, handler => handler

def attemptStep (quotaPerUnit : ℚ) (s : Desk) (l : Attempt) : Desk :=
  let s' := match attemptOutcome quotaPerUnit s l with
    | some (.ok db') => s.enter l.path l.tradeNo db'
    | _ => s
  s'.setEpay l.tradeNo (nextHandler quotaPerUnit s l)

/-! ## The condition -/

def notRead (s : Desk) (tradeNo : String) : Bool :=
  match s.epay tradeNo with
  | some (.read _ _) => false
  | _ => true

def creditable (s : Desk) (order : Order) (credit : ℚ) : Bool :=
  (s.db.users.get order.userId).isSome && 0 < credit

/-- Nothing comes between an epay handler's statements or fails its last one, and a credit is positive
and has a user. -/
def orderly (quotaPerUnit : ℚ) (s : Desk) : Attempt → Bool
  | .complete c tradeNo _ _ => notRead s tradeNo &&
      match s.db.orders.get tradeNo with
      | none => true
      | some order => !c.accepts order || order.status ≠ .pending ||
          creditable s order (c.credit quotaPerUnit order)
  | .close tradeNo _ _ _ => notRead s tradeNo
  | .epayStart _ _ => true
  | .epaySave _ _ => true
  | .epayCredit tradeNo fails =>
      match s.epay tradeNo with
      | some (.saved order) => fails.isNone && creditable s order (unitCredit quotaPerUnit order)
      | _ => true

/-! ## What the log says about one order -/

def statusChanges (tradeNo : String) (log : List Entry) : List (Option OrderStatus × Option OrderStatus) :=
  (log.filter fun e => e.tradeNo = tradeNo ∧ e.before ≠ e.after).map fun e => (e.before, e.after)

def raises (tradeNo : String) (log : List Entry) : List (Option PaymentProvider × ℚ) :=
  (log.filter fun e => e.tradeNo = tradeNo ∧ e.raised ≠ 0).map fun e => (e.path, e.raised)

def pathFits (provider : PaymentProvider) (path : Option PaymentProvider) : Bool :=
  path = none ∨ path = some provider

inductive Phase where
  | untouched
  | closed (target : Closing)
  | half
  | paid (path : Option PaymentProvider) (quota : ℚ)

def Phase.changes : Phase → List (Option OrderStatus × Option OrderStatus)
  | .untouched => []
  | .closed target => [(some .pending, some target.status)]
  | .half => [(some .pending, some .success)]
  | .paid _ _ => [(some .pending, some .success)]

def Phase.raises : Phase → List (Option PaymentProvider × ℚ)
  | .paid path quota => [(path, quota)]
  | _ => []

def Phase.status (status₀ : OrderStatus) : Phase → OrderStatus
  | .untouched => status₀
  | .closed target => target.status
  | .half => .success
  | .paid _ _ => .success

def Phase.handler (order : Order) : Phase → Option EpayHandler → Prop
  | .untouched, none => True
  | .untouched, some (.read copy _) => copy = order ∧ order.status = .pending ∧ order.paymentProvider = .epay
  | .half, some (.saved copy) => copy.userId = order.userId ∧ order.paymentProvider = .epay
  | .closed _, none => True
  | .paid _ _, none => True
  | _, _ => False

structure OrderInv (tradeNo : String) (order₀ : Order) (s : Desk) (phase : Phase) (order : Order) : Prop where
  stored : s.db.orders.get tradeNo = some order
  provider : order.paymentProvider = order₀.paymentProvider
  status : order.status = phase.status order₀.status
  started : phase.changes ≠ [] → order₀.status = .pending
  handler : phase.handler order (s.epay tradeNo)
  changes : statusChanges tradeNo s.log = phase.changes
  raises : raises tradeNo s.log = phase.raises
  fits : ∀ path quota, phase = .paid path quota → pathFits order₀.paymentProvider path = true ∧ 0 < quota

/-! ## One step -/

theorem attemptStep_epay (quotaPerUnit : ℚ) (s : Desk) (l : Attempt) (tradeNo : String) :
    (attemptStep quotaPerUnit s l).epay tradeNo =
      if tradeNo = l.tradeNo then nextHandler quotaPerUnit s l else s.epay tradeNo := by
  unfold attemptStep
  split <;> rfl

variable {l : Attempt} {db' : Db}

theorem attemptStep_of_ok {quotaPerUnit : ℚ} {s : Desk} (h : attemptOutcome quotaPerUnit s l = some (.ok db')) :
    (attemptStep quotaPerUnit s l).db = db' ∧ (attemptStep quotaPerUnit s l).log = s.log ++
      [⟨l.tradeNo, l.path, statusOf s.db l.tradeNo, statusOf db' l.tradeNo, raisedBy s.db db' l.tradeNo⟩] := by
  unfold attemptStep
  rw [h]
  exact ⟨rfl, rfl⟩

theorem attemptStep_of_not_ok {quotaPerUnit : ℚ} {s : Desk} (h : ∀ db', attemptOutcome quotaPerUnit s l ≠ some (.ok db')) :
    (attemptStep quotaPerUnit s l).db = s.db ∧ (attemptStep quotaPerUnit s l).log = s.log := by
  unfold attemptStep
  split
  · next db' heq => exact absurd heq (h db')
  · exact ⟨rfl, rfl⟩

theorem statusChanges_append (tradeNo : String) (log : List Entry) (e : Entry) :
    statusChanges tradeNo (log ++ [e]) = statusChanges tradeNo log ++
      if e.tradeNo = tradeNo ∧ e.before ≠ e.after then [(e.before, e.after)] else [] := by
  simp only [statusChanges, filter_append, map_append, filter_cons, filter_nil,
    decide_eq_true_eq]
  split <;> rfl

theorem raises_append (tradeNo : String) (log : List Entry) (e : Entry) : raises tradeNo (log ++ [e]) = raises tradeNo log ++
      if e.tradeNo = tradeNo ∧ e.raised ≠ 0 then [(e.path, e.raised)] else [] := by
  simp only [raises, filter_append, map_append, filter_cons, filter_nil,
    decide_eq_true_eq]
  split <;> rfl

theorem underFailure_ok {fails : Option String} {result : Except String Db}
    (h : underFailure fails result = .ok db') : fails = none ∧ result = .ok db' := by
  cases fails with
  | some message => cases h
  | none => exact ⟨rfl, h⟩

def CopiesFit (s : Desk) : Prop :=
  ∀ tradeNo order method, s.epay tradeNo = some (.read order method) → order.tradeNo = tradeNo

theorem outcome_other {quotaPerUnit : ℚ} {s : Desk} {tradeNo : String}
    (hcopies : CopiesFit s) (h : attemptOutcome quotaPerUnit s l = some (.ok db')) (hne : tradeNo ≠ l.tradeNo) :
    db'.orders.get tradeNo = s.db.orders.get tradeNo := by
  cases l with
  | complete c t now fails =>
    obtain ⟨-, hrun⟩ := underFailure_ok (some.inj h)
    obtain ⟨order, horder, -, ⟨-, rfl⟩ | ⟨-, -, rfl⟩⟩ := Completion.run_ok hrun
    · rfl
    · have hkey : order.tradeNo = t := key_of_get horder
      exact get_put_of_ne (by rw [hkey]; exact hne)
  | close t expected target fails =>
    obtain ⟨-, hrun⟩ := underFailure_ok (some.inj h)
    obtain ⟨order, horder, -, rfl⟩ := updatePendingTopUpStatus_ok hrun
    have hkey : order.tradeNo = t := key_of_get horder
    exact get_put_of_ne (by rw [hkey]; exact hne)
  | epayStart t method => cases h
  | epaySave t fails =>
    simp only [attemptOutcome] at h
    split at h
    · next order method hread =>
      obtain ⟨-, hrun⟩ := underFailure_ok (some.inj h)
      cases hrun
      exact get_put_of_ne (by rw [hcopies t order method hread]; exact hne)
    · cases h
  | epayCredit t fails =>
    simp only [attemptOutcome] at h
    split at h
    · next order _ =>
      obtain ⟨-, hrun⟩ := underFailure_ok (some.inj h)
      unfold epayCredit at hrun
      dsimp only at hrun
      split at hrun
      · cases hrun
      · cases hrun
        rfl
    · cases h

theorem copiesFit_step {quotaPerUnit : ℚ} {s : Desk} (l : Attempt) (h : CopiesFit s) :
    CopiesFit (attemptStep quotaPerUnit s l) := by
  intro tradeNo order method hread
  rw [attemptStep_epay] at hread
  split at hread
  · next heq =>
    subst heq
    unfold nextHandler at hread
    split at hread
    · next t m _ =>
      obtain ⟨copy, hcopy, heq⟩ := map_eq_some_iff.mp hread
      cases heq
      unfold epayRead at hcopy
      split at hcopy
      · cases hcopy
      next stored hstored =>
      split at hcopy
      · cases hcopy
        exact key_of_get hstored
      · cases hcopy
    · split at hread
      · cases hread
      · cases hread
    · cases hread
    · exact h _ order method hread
  · exact h tradeNo order method hread

variable {quotaPerUnit : ℚ} {s : Desk} {tradeNo : String} {order₀ order : Order} {phase : Phase}

section
variable (h : OrderInv tradeNo order₀ s phase order)
include h

theorem OrderInv.other (hcopies : CopiesFit s) (l : Attempt)
    (hne : tradeNo ≠ l.tradeNo) : OrderInv tradeNo order₀ (attemptStep quotaPerUnit s l) phase order := by
  have hepay : (attemptStep quotaPerUnit s l).epay tradeNo = s.epay tradeNo := by
    rw [attemptStep_epay, if_neg hne]
  by_cases hok : ∃ db', attemptOutcome quotaPerUnit s l = some (.ok db')
  · obtain ⟨db', hok⟩ := hok
    obtain ⟨hdb, hlog⟩ := attemptStep_of_ok hok
    refine ⟨?_, h.provider, h.status, h.started, by rw [hepay]; exact h.handler, ?_, ?_, h.fits⟩
    · rw [hdb, outcome_other hcopies hok hne]
      exact h.stored
    · rw [hlog, statusChanges_append, if_neg fun heq => hne heq.1.symm, append_nil]
      exact h.changes
    · rw [hlog, raises_append, if_neg fun heq => hne heq.1.symm, append_nil]
      exact h.raises
  · obtain ⟨hdb, hlog⟩ := attemptStep_of_not_ok fun db' heq => hok ⟨db', heq⟩
    exact ⟨by rw [hdb]; exact h.stored, h.provider, h.status, h.started, by rw [hepay]; exact h.handler,
      by rw [hlog]; exact h.changes, by rw [hlog]; exact h.raises, h.fits⟩

theorem OrderInv.idle (l : Attempt) (htrade : l.tradeNo = tradeNo)
    (hout : ∀ db', attemptOutcome quotaPerUnit s l ≠ some (.ok db'))
    (hhandler : phase.handler order (nextHandler quotaPerUnit s l)) :
    OrderInv tradeNo order₀ (attemptStep quotaPerUnit s l) phase order := by
  obtain ⟨hdb, hlog⟩ := attemptStep_of_not_ok hout
  refine ⟨by rw [hdb]; exact h.stored, h.provider, h.status, h.started, ?_, by rw [hlog]; exact h.changes,
    by rw [hlog]; exact h.raises, h.fits⟩
  rw [attemptStep_epay, if_pos htrade.symm]
  exact hhandler

theorem OrderInv.move (l : Attempt) (htrade : l.tradeNo = tradeNo)
    (hout : attemptOutcome quotaPerUnit s l = some (.ok db')) {phase' : Phase} {order' : Order}
    (hstored : db'.orders.get tradeNo = some order') (hprovider : order'.paymentProvider = order.paymentProvider)
    (hstatus : order'.status = phase'.status order₀.status)
    (hstarted : phase'.changes ≠ [] → order₀.status = .pending)
    (hhandler : phase'.handler order' (nextHandler quotaPerUnit s l))
    (hchanges : phase'.changes = phase.changes ++
      if some order.status ≠ some order'.status then [(some order.status, some order'.status)] else [])
    (hraises : phase'.raises = phase.raises ++
      if raisedBy s.db db' tradeNo ≠ 0 then [(l.path, raisedBy s.db db' tradeNo)] else [])
    (hfits : ∀ path quota, phase' = .paid path quota → pathFits order₀.paymentProvider path = true ∧ 0 < quota) :
    OrderInv tradeNo order₀ (attemptStep quotaPerUnit s l) phase' order' := by
  obtain ⟨hdb, hlog⟩ := attemptStep_of_ok hout
  have hbefore : statusOf s.db tradeNo = some order.status := by rw [statusOf, h.stored, map_some]
  have hafter : statusOf db' tradeNo = some order'.status := by rw [statusOf, hstored, map_some]
  rw [htrade, hbefore, hafter] at hlog
  refine ⟨by rw [hdb]; exact hstored, hprovider.trans h.provider, hstatus, hstarted, ?_, ?_, ?_, hfits⟩
  · rw [attemptStep_epay, if_pos htrade.symm]
    exact hhandler
  · rw [hlog, statusChanges_append, h.changes, hchanges]
    simp only [true_and]
  · rw [hlog, raises_append, h.raises, hraises]
    simp only [true_and]

theorem OrderInv.untouched_of_pending
    (hpending : order.status = .pending) : phase = .untouched ∧ order₀.status = .pending := by
  have hstatus := h.status
  rw [hpending] at hstatus
  cases phase with
  | untouched => exact ⟨rfl, hstatus.symm⟩
  | closed target => cases target <;> cases hstatus
  | half => cases hstatus
  | paid path quota => cases hstatus

end

theorem OrderInv.no_handler (h : OrderInv tradeNo order₀ s .untouched order) (hread : notRead s tradeNo = true) :
    s.epay tradeNo = none := by
  have hhandler := h.handler
  unfold notRead at hread
  cases hepay : s.epay tradeNo with
  | none => rfl
  | some handler =>
    rw [hepay] at hhandler hread
    cases handler with
    | read copy method => cases hread
    | saved copy => exact hhandler.elim

theorem nextHandler_complete (c : Completion) (now : ℤ) (fails : Option String) :
    nextHandler quotaPerUnit s (.complete c tradeNo now fails) = s.epay tradeNo := by
  unfold nextHandler
  split
  · contradiction
  · contradiction
  · contradiction
  · rfl

theorem nextHandler_close (expected : Option PaymentProvider) (target : Closing) (fails : Option String) :
    nextHandler quotaPerUnit s (.close tradeNo expected target fails) = s.epay tradeNo := by
  unfold nextHandler
  split
  · contradiction
  · contradiction
  · contradiction
  · rfl

theorem raisedBy_self (db : Db) (tradeNo : String) : raisedBy db db tradeNo = 0 := by
  unfold raisedBy
  split
  · exact sub_self _
  · rfl

theorem raisedBy_addQuota {db : Db} (horder : db.orders.get tradeNo = some order) {user : User}
    (huser : db.users.get order.userId = some user) (orders : Table Order Order.tradeNo) (quota : ℚ)
    (touch : User → User) :
    raisedBy db ⟨orders, addQuota db.users order.userId quota touch⟩ tradeNo = quota := by
  simp only [raisedBy, horder, quotaOf_addQuota huser, add_sub_cancel_left]

theorem raisedBy_orders {db : Db} (orders : Table Order Order.tradeNo) :
    raisedBy db { db with orders := orders } tradeNo = 0 := by
  unfold raisedBy
  split
  · exact sub_self _
  · rfl

theorem pathFits_of_accepts {c : Completion} (h : c.accepts order = true) :
    pathFits order.paymentProvider c.provider = true := by
  unfold Completion.accepts at h
  unfold pathFits
  cases hprovider : c.provider with
  | none => simp
  | some provider =>
    rw [hprovider] at h
    have heq : order.paymentProvider = provider := of_decide_eq_true h
    simp [heq]

theorem creditable_iff {credit : ℚ} (h : creditable s order credit = true) :
    (∃ user, s.db.users.get order.userId = some user) ∧ 0 < credit := by
  rw [creditable, Bool.and_eq_true, decide_eq_true_eq, isSome_iff_exists] at h
  exact h

section
variable (h : OrderInv tradeNo order₀ s phase order)
include h

theorem orderInv_complete (c : Completion) (now : ℤ)
    (fails : Option String) (hok : orderly quotaPerUnit s (.complete c tradeNo now fails) = true) :
    ∃ phase' order', OrderInv tradeNo order₀ (attemptStep quotaPerUnit s (.complete c tradeNo now fails)) phase' order' := by
  simp only [orderly, h.stored, Bool.and_eq_true] at hok
  obtain ⟨hread, hcredit⟩ := hok
  cases hrun : underFailure fails (c.run quotaPerUnit now s.db tradeNo) with
  | error e =>
    refine ⟨phase, order, h.idle (.complete c tradeNo now fails) rfl ?_ ?_⟩
    · intro db' heq
      rw [attemptOutcome, hrun] at heq
      cases heq
    · exact h.handler
  | ok db' =>
    have hout : attemptOutcome quotaPerUnit s (.complete c tradeNo now fails) = some (.ok db') := by
      rw [attemptOutcome, hrun]
    obtain ⟨order', horder', haccepts, ⟨-, rfl⟩ | ⟨hpending, -, rfl⟩⟩ :=
      Completion.run_ok (underFailure_ok hrun).2
    all_goals
      rw [h.stored] at horder'
      cases horder'
    · -- an order that has succeeded is left alone
      refine ⟨phase, order, h.move (.complete c tradeNo now fails) rfl hout h.stored rfl h.status h.started ?_ ?_ ?_ h.fits⟩
      · exact h.handler
      · simp
      · simp [raisedBy_self]
    · obtain ⟨rfl, hstart⟩ := h.untouched_of_pending hpending
      simp only [haccepts, hpending, Bool.not_true, ne_eq, not_true_eq_false, decide_false, Bool.false_or] at hcredit
      obtain ⟨⟨user, huser⟩, hpos⟩ := creditable_iff hcredit
      have hkey : order.tradeNo = tradeNo := key_of_get h.stored
      subst hkey
      have hraised := raisedBy_addQuota h.stored huser
        (s.db.orders.put { order with status := .success, completeTime := now }) (c.credit quotaPerUnit order) c.touch
      refine ⟨.paid c.provider (c.credit quotaPerUnit order), { order with status := .success, completeTime := now },
        h.move (.complete c order.tradeNo now fails) rfl hout (get_put_self h.stored) rfl rfl (fun _ => hstart)
          ?_ ?_ ?_ ?_⟩
      · rw [nextHandler_complete, h.no_handler hread]
        trivial
      · simp [Phase.changes, hpending]
      · rw [hraised, if_pos hpos.ne']
        rfl
      · intro path quota heq
        cases heq
        rw [← h.provider]
        exact ⟨pathFits_of_accepts haccepts, hpos⟩

theorem orderInv_close (expected : Option PaymentProvider) (target : Closing) (fails : Option String)
    (hok : orderly quotaPerUnit s (.close tradeNo expected target fails) = true) :
    ∃ phase' order', OrderInv tradeNo order₀
      (attemptStep quotaPerUnit s (.close tradeNo expected target fails)) phase' order' := by
  cases hrun : underFailure fails (updatePendingTopUpStatus s.db tradeNo expected target) with
  | error e =>
    refine ⟨phase, order, h.idle (.close tradeNo expected target fails) rfl ?_ ?_⟩
    · intro db' heq
      rw [attemptOutcome, hrun] at heq
      cases heq
    · exact h.handler
  | ok db' =>
    have hout : attemptOutcome quotaPerUnit s (.close tradeNo expected target fails) = some (.ok db') := by
      rw [attemptOutcome, hrun]
    obtain ⟨order', horder', hpending, rfl⟩ := updatePendingTopUpStatus_ok (underFailure_ok hrun).2
    rw [h.stored] at horder'
    cases horder'
    obtain ⟨rfl, hstart⟩ := h.untouched_of_pending hpending
    have hkey : order.tradeNo = tradeNo := key_of_get h.stored
    subst hkey
    refine ⟨.closed target, { order with status := target.status }, h.move (.close order.tradeNo expected target fails)
      rfl hout (get_put_self h.stored) rfl rfl (fun _ => hstart) ?_ ?_ ?_ ?_⟩
    · rw [nextHandler_close, h.no_handler hok]
      trivial
    · cases target <;> simp [Phase.changes, hpending, Closing.status]
    · rw [raisedBy_orders]
      rfl
    · intro path quota heq
      cases heq

theorem orderInv_epayStart (method : String) :
    OrderInv tradeNo order₀ (attemptStep quotaPerUnit s (.epayStart tradeNo method)) phase order := by
  refine h.idle (.epayStart tradeNo method) rfl (fun db' heq => by cases heq) ?_
  have hhandler := h.handler
  cases hepay : s.epay tradeNo with
  | some handler =>
    rw [hepay] at hhandler
    simp only [nextHandler, Attempt.tradeNo, hepay]
    exact hhandler
  | none =>
    rw [hepay] at hhandler
    simp only [nextHandler, Attempt.tradeNo, hepay, epayRead, h.stored]
    split
    · next hopen =>
      obtain ⟨rfl, -⟩ := h.untouched_of_pending hopen.2
      exact ⟨rfl, hopen.2, hopen.1⟩
    · exact hhandler

theorem orderInv_epaySave (fails : Option String) :
    ∃ phase' order', OrderInv tradeNo order₀ (attemptStep quotaPerUnit s (.epaySave tradeNo fails)) phase' order' := by
  have hhandler := h.handler
  by_cases hread : ∃ copy method, s.epay tradeNo = some (.read copy method)
  · obtain ⟨copy, method, hepay⟩ := hread
    rw [hepay] at hhandler
    cases phase with
    | closed target => exact hhandler.elim
    | half => exact hhandler.elim
    | paid path quota => exact hhandler.elim
    | untouched =>
      obtain ⟨rfl, hpending, hprovider⟩ := hhandler
      have hkey : copy.tradeNo = tradeNo := key_of_get h.stored
      subst hkey
      cases fails with
      | some message =>
        refine ⟨.untouched, copy, h.idle (.epaySave copy.tradeNo (some message)) rfl ?_ ?_⟩
        · intro db' heq
          simp only [attemptOutcome, hepay, underFailure] at heq
          cases heq
        · simp only [nextHandler, Attempt.tradeNo, attemptOutcome, hepay, underFailure]
          trivial
      | none =>
        have hout : attemptOutcome quotaPerUnit s (.epaySave copy.tradeNo none) =
            some (.ok (epaySave s.db copy method)) := by
          simp only [attemptOutcome, hepay, underFailure]
        refine ⟨.half, { copy with paymentMethod := method, status := .success },
          h.move (.epaySave copy.tradeNo none) rfl hout (get_put_self h.stored) rfl rfl
            (fun _ => (h.untouched_of_pending hpending).2) ?_ ?_ ?_ ?_⟩
        · simp only [nextHandler, Attempt.tradeNo, hepay, hout]
          exact ⟨rfl, hprovider⟩
        · simp [Phase.changes, hpending]
        · rw [epaySave, raisedBy_orders]
          rfl
        · intro path quota heq
          cases heq
  · have hskip : ∀ copy method, s.epay tradeNo ≠ some (.read copy method) :=
      fun copy method heq => hread ⟨copy, method, heq⟩
    refine ⟨phase, order, h.idle (.epaySave tradeNo fails) rfl ?_ ?_⟩
    · intro db' heq
      simp only [attemptOutcome] at heq
      cases heq
    · have hnext : nextHandler quotaPerUnit s (.epaySave tradeNo fails) = s.epay tradeNo := by
        simp only [nextHandler, Attempt.tradeNo]
        split
        · contradiction
        · next copy method _ hepay => exact absurd hepay (hskip copy _)
        · contradiction
        · rfl
      rw [hnext]
      exact hhandler

theorem orderInv_epayCredit (fails : Option String) (hok : orderly quotaPerUnit s (.epayCredit tradeNo fails) = true) :
    ∃ phase' order', OrderInv tradeNo order₀ (attemptStep quotaPerUnit s (.epayCredit tradeNo fails)) phase' order' := by
  have hhandler := h.handler
  by_cases hsaved : ∃ copy, s.epay tradeNo = some (.saved copy)
  · obtain ⟨copy, hepay⟩ := hsaved
    rw [hepay] at hhandler
    cases phase with
    | untouched => exact hhandler.elim
    | closed target => exact hhandler.elim
    | paid path quota => exact hhandler.elim
    | half =>
      obtain ⟨huserId, hprovider⟩ := hhandler
      simp only [orderly, hepay, Bool.and_eq_true, isNone_iff_eq_none] at hok
      obtain ⟨rfl, hcredit⟩ := hok
      obtain ⟨⟨user, huser⟩, hpos⟩ := creditable_iff hcredit
      have hout : attemptOutcome quotaPerUnit s (.epayCredit tradeNo none) = some (.ok
          { s.db with users := addQuota s.db.users copy.userId (unitCredit quotaPerUnit copy) id }) := by
        simp only [attemptOutcome, hepay, underFailure, epayCredit, if_neg (not_lt.mpr hpos.le)]
      have hraised : raisedBy s.db { s.db with
          users := addQuota s.db.users copy.userId (unitCredit quotaPerUnit copy) id } tradeNo =
          unitCredit quotaPerUnit copy := by
        rw [huserId] at huser ⊢
        exact raisedBy_addQuota h.stored huser s.db.orders _ id
      refine ⟨.paid (some .epay) (unitCredit quotaPerUnit copy), order, h.move (.epayCredit tradeNo none) rfl hout
        h.stored rfl h.status (fun _ => h.started (by simp [Phase.changes])) ?_ ?_ ?_ ?_⟩
      · simp only [nextHandler, Attempt.tradeNo, hepay]
        trivial
      · simp [Phase.changes]
      · rw [hraised, if_pos hpos.ne']
        rfl
      · intro path quota heq
        cases heq
        rw [← h.provider, hprovider]
        exact ⟨rfl, hpos⟩
  · have hskip : ∀ copy, s.epay tradeNo ≠ some (.saved copy) := fun copy heq => hsaved ⟨copy, heq⟩
    refine ⟨phase, order, h.idle (.epayCredit tradeNo fails) rfl ?_ ?_⟩
    · intro db' heq
      simp only [attemptOutcome] at heq
      cases heq
    · have hnext : nextHandler quotaPerUnit s (.epayCredit tradeNo fails) = s.epay tradeNo := by
        simp only [nextHandler, Attempt.tradeNo]
        split
        · contradiction
        · contradiction
        · next copy _ hepay => exact absurd hepay (hskip _)
        · rfl
      rw [hnext]
      exact hhandler

end

/-! ## Runs -/

theorem orderInv_step (h : OrderInv tradeNo order₀ s phase order) (hcopies : CopiesFit s) (l : Attempt)
    (hok : orderly quotaPerUnit s l = true) :
    ∃ phase' order', OrderInv tradeNo order₀ (attemptStep quotaPerUnit s l) phase' order' := by
  by_cases hother : tradeNo = l.tradeNo
  · cases l with
    | complete c t now fails =>
      cases hother
      exact orderInv_complete h c now fails hok
    | close t expected target fails =>
      cases hother
      exact orderInv_close h expected target fails hok
    | epayStart t method =>
      cases hother
      exact ⟨phase, order, orderInv_epayStart h method⟩
    | epaySave t fails =>
      cases hother
      exact orderInv_epaySave h fails
    | epayCredit t fails =>
      cases hother
      exact orderInv_epayCredit h fails hok
  · exact ⟨phase, order, h.other hcopies l hother⟩

def idleAt (s : Desk) (tradeNo : String) : Bool := (s.epay tradeNo).isNone

/-- What the log and the tables say about an order that started as `order₀`. -/
structure CreditedOnce (tradeNo : String) (order₀ : Order) (s : Desk) : Prop where
  status : ∃ order, s.db.orders.get tradeNo = some order ∧
    (statusChanges tradeNo s.log = [] ∧ order.status = order₀.status ∨
      order₀.status = .pending ∧ order.status ≠ .pending ∧
        statusChanges tradeNo s.log = [(some .pending, some order.status)])
  raised : idleAt s tradeNo = true →
    ((some .pending, some .success) ∈ statusChanges tradeNo s.log ∧
      (∃ path quota, raises tradeNo s.log = [(path, quota)] ∧ 0 < quota ∧
        pathFits order₀.paymentProvider path = true)) ∨
    (some .pending, some .success) ∉ statusChanges tradeNo s.log ∧ raises tradeNo s.log = []

theorem OrderInv.creditedOnce (h : OrderInv tradeNo order₀ s phase order) : CreditedOnce tradeNo order₀ s := by
  obtain ⟨hstored, -, hstatus, hstarted, hhandler, hchanges, hraises, hfits⟩ := h
  cases phase with
  | untouched =>
    refine ⟨⟨order, hstored, .inl ⟨hchanges, hstatus⟩⟩, fun _ => .inr ⟨?_, hraises⟩⟩
    rw [hchanges]
    exact not_mem_nil
  | closed target =>
    have hstart := hstarted (by simp [Phase.changes])
    refine ⟨⟨order, hstored, .inr ⟨hstart, ?_, ?_⟩⟩, fun _ => .inr ⟨?_, hraises⟩⟩
    · rw [hstatus]
      cases target <;> simp [Phase.status, Closing.status]
    · rw [hchanges, hstatus]
      rfl
    · rw [hchanges]
      cases target <;> decide
  | half =>
    have hstart := hstarted (by simp [Phase.changes])
    refine ⟨⟨order, hstored, .inr ⟨hstart, ?_, ?_⟩⟩, fun hidle => ?_⟩
    · rw [hstatus]
      simp [Phase.status]
    · rw [hchanges, hstatus]
      rfl
    · rw [idleAt, isNone_iff_eq_none] at hidle
      rw [hidle] at hhandler
      exact hhandler.elim
  | paid path quota =>
    have hstart := hstarted (by simp [Phase.changes])
    obtain ⟨hpath, hpos⟩ := hfits path quota rfl
    refine ⟨⟨order, hstored, .inr ⟨hstart, ?_, ?_⟩⟩, fun _ => .inl ⟨?_, path, quota, hraises, hpos, hpath⟩⟩
    · rw [hstatus]
      simp [Phase.status]
    · rw [hchanges, hstatus]
      rfl
    · rw [hchanges]
      exact mem_singleton.mpr rfl

theorem attempt_error_unchanged {e : String} (hok : orderly quotaPerUnit s l = true)
    (h : attemptOutcome quotaPerUnit s l = some (.error e)) :
    (attemptStep quotaPerUnit s l).db = s.db ∧ ∀ t fails, l ≠ .epayCredit t fails := by
  refine ⟨(attemptStep_of_not_ok fun db' heq => ?_).1, fun t fails heq => ?_⟩
  · rw [h] at heq
    cases heq
  · subst heq
    simp only [attemptOutcome] at h
    split at h
    · next order hepay =>
      simp only [orderly, hepay, Bool.and_eq_true, isNone_iff_eq_none] at hok
      obtain ⟨rfl, hcredit⟩ := hok
      obtain ⟨-, hpos⟩ := creditable_iff hcredit
      simp only [underFailure, epayCredit, if_neg (not_lt.mpr hpos.le)] at h
      cases h
    · cases h

/-- In every mix of orderly attempts each order's status changes at most once, from pending, its user is credited exactly on
success, once and by a fitting path, and reported errors change nothing. -/
theorem topups_credit_at_most_once (quotaPerUnit : ℚ) (s : Desk) (hidle : ∀ tradeNo, s.epay tradeNo = none)
    (hlog : s.log = []) (tradeNo : String) (order₀ : Order) (horder : s.db.orders.get tradeNo = some order₀)
    (ls : List Attempt)
    (hls : Along (attemptStep quotaPerUnit) (fun s l => orderly quotaPerUnit s l = true) s ls) :
    CreditedOnce tradeNo order₀ (run (attemptStep quotaPerUnit) s ls) ∧
    ∀ l e, orderly quotaPerUnit (run (attemptStep quotaPerUnit) s ls) l = true →
      attemptOutcome quotaPerUnit (run (attemptStep quotaPerUnit) s ls) l = some (.error e) →
      (attemptStep quotaPerUnit (run (attemptStep quotaPerUnit) s ls) l).db =
          (run (attemptStep quotaPerUnit) s ls).db ∧ ∀ t fails, l ≠ .epayCredit t fails := by
  refine ⟨?_, fun l e hok herror => attempt_error_unchanged hok herror⟩
  have hstart : CopiesFit s ∧ ∃ phase order, OrderInv tradeNo order₀ s phase order := by
    refine ⟨fun t order method hread => ?_, .untouched, order₀, horder, rfl, rfl, fun h => absurd rfl h, ?_, ?_, ?_, ?_⟩
    · rw [hidle t] at hread
      cases hread
    · rw [hidle tradeNo]
      trivial
    · rw [hlog]
      rfl
    · rw [hlog]
      rfl
    · intro path quota heq
      cases heq
  have hinv := run_invariant (fun s l (hs : CopiesFit s ∧ ∃ phase order, OrderInv tradeNo order₀ s phase order) hok =>
    ⟨copiesFit_step l hs.1, by
      obtain ⟨hcopies, phase, order, horder⟩ := hs
      exact orderInv_step horder hcopies l hok⟩) hstart hls
  obtain ⟨-, phase, order, hfinal⟩ := hinv
  exact hfinal.creditedOnce

/-- A pending epay order of 10 units for a user without quota. -/
def sampleOrder : Order := ⟨"T1", 7, 10, 73, "alipay", .epay, 0, 0, .pending⟩

def sampleDesk : Desk where
  db := ⟨⟨[sampleOrder], by decide⟩, ⟨[⟨7, 0, "", ""⟩], by decide⟩⟩
  epay := fun _ => none
  log := []

/-- The administrator completes the order again after epay, and it is closed too late. -/
def sampleAttempts : List Attempt :=
  [.epayStart "T1" "wxpay", .epaySave "T1" none, .epayCredit "T1" none,
    .complete manualCompleteTopUp "T1" 60 none, .close "T1" (some .epay) .expired none,
    .complete (recharge "cus_1") "T1" 90 none]

theorem topups_credit_at_most_once_three_paths :
    CreditedOnce "T1" sampleOrder (run (attemptStep 500000) sampleDesk sampleAttempts) :=
  (topups_credit_at_most_once 500000 sampleDesk (fun _ => rfl) rfl "T1" sampleOrder (by decide) sampleAttempts
    (by decide +kernel)).1

/-- The epay handler's quota update fails after the order was saved: it has succeeded and nothing is credited. -/
theorem epay_success_without_credit :
    let s := run (attemptStep 500000) sampleDesk
      [.epayStart "T1" "alipay", .epaySave "T1" none, .epayCredit "T1" (some "database is locked")]
    idleAt s "T1" = true ∧ statusChanges "T1" s.log = [(some .pending, some .success)] ∧
      raises "T1" s.log = [] ∧ quotaOf s.db 7 = 0 ∧ ¬ CreditedOnce "T1" sampleOrder s := by
  refine ⟨by decide +kernel, by decide +kernel, by decide +kernel, by decide +kernel, fun h => ?_⟩
  rcases h.raised (by decide +kernel) with ⟨-, path, quota, hraises, -⟩ | ⟨hnone, -⟩
  · have hnil : raises "T1" (run (attemptStep 500000) sampleDesk [.epayStart "T1" "alipay",
        .epaySave "T1" none, .epayCredit "T1" (some "database is locked")]).log = [] := by decide +kernel
    rw [hnil] at hraises
    cases hraises
  · exact hnone (by decide +kernel)

end HotAI.TopUp
