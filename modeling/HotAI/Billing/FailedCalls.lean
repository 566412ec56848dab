import HotAI.Billing.PeriodCharges
import HotAI.Billing.RefundRetry

/-! # The used amount of a subscription under database failures

Statements and commits may fail in every call. A refund gives the amount back in a transaction of its own before the outer one
marks the record, and a reset pass commits row by row, so an error need not mean that nothing was written. -/
namespace HotAI.Billing
open HotAI.Lib HotAI.Subscription List Table

/-- A call after so many seconds, with the statements that fail in it and, in a reset pass, the rows whose transaction does. -/
structure Call where
  elapsed : ℕ
  op : UsageOp
  fails : Stmt → Bool
  failsRow : ℤ → Bool

def Call.intact (elapsed : ℕ) (op : UsageOp) : Call := ⟨elapsed, op, fun _ => false, fun _ => false⟩

/-- `PreConsumeUserSubscription` is one transaction; a known request id needs no writes. -/
def preConsumeUnder (fails : Stmt → Bool) (plans : Plans) (db : Store) (requestId : String) (userId now amount : ℤ) :
    Option RefundError × Store :=
  match preConsumeUserSubscription (plans.reset now) db requestId userId now amount with
  | .error e => (some (.store e), db)
  | .ok (_, db') =>
      let writes := if (db.records.get requestId).isSome then [] else [Stmt.saveRecord, .saveSub]
      match ([.begin, .selectRecord, .selectSub] ++ writes ++ [.commit] : List Stmt).find? fails with
      | some stmt => (some (.database stmt), db)
      | none => (none, db')

/-- No transaction is begun for a row without a plan. -/
def failsIn (plans : Plans) (failsRow : ℤ → Bool) (sub : UserSubscription) : Bool :=
  failsRow sub.id && (plans.getSubscriptionPlanById sub.planId).isOk

/-- The rows that a pass commits before it returns. -/
def committedRows (plans : Plans) (failsRow : ℤ → Bool) (subs : SubTable) (now limit : ℤ) : List UserSubscription :=
  (dueForReset subs now limit).takeWhile fun sub => !failsIn plans failsRow sub

def resetDueUnder (fails : Stmt → Bool) (failsRow : ℤ → Bool) (plans : Plans) (db : Store) (now limit : ℤ) :
    Option RefundError × Store :=
  if fails .selectSub then (some (.database .selectSub), db)
  else
    (if (dueForReset db.subs now limit).any (failsIn plans failsRow) then some (.database .commit) else none,
      { db with subs := (committedRows plans failsRow db.subs now limit).foldl (resetOne plans now) db.subs })

def performUnder (plans : Plans) (now : ℤ) (db : Store) (c : Call) : Option RefundError × Store :=
  match c.op with
  | .preConsume requestId userId amount => preConsumeUnder c.fails plans db requestId userId now amount
  | .refund requestId => refundAttempt c.fails db requestId
  | .postConsume id delta =>
      match postConsumeUnder c.fails db id delta with
      | .error e => (some e, db)
      | .ok db' => (none, db')
  | .resetDue limit => resetDueUnder c.fails c.failsRow plans db now limit

def callError (plans : Plans) (b : Books) (c : Call) : Option RefundError :=
  (performUnder plans (b.clock + c.elapsed) b.db c).1

def callStep (plans : Plans) (b : Books) (c : Call) : Books :=
  ⟨b.clock + c.elapsed, (performUnder plans (b.clock + c.elapsed) b.db c).2⟩

/-- Without failures the calls are the operations. -/
theorem performUnder_no_failure (plans : Plans) (now : ℤ) (db : Store) (elapsed : ℕ) (op : UsageOp) :
    performUnder plans now db (.intact elapsed op) = match performUsage plans now db op with
      | .ok db' => (none, db')
      | .error e => (some (.store e), db) := by
  cases op with
  | preConsume requestId userId amount =>
    have hnone (stmts : List Stmt) : stmts.find? (fun _ => false) = none := by simp
    simp only [performUnder, Call.intact, preConsumeUnder, performUsage, hnone]
    cases preConsumeUserSubscription (plans.reset now) db requestId userId now amount <;> rfl
  | refund requestId => exact refundAttempt_no_failure db requestId
  | postConsume id delta =>
    simp only [performUnder, Call.intact, performUsage, postConsumeUnder_no_failure]
    cases postConsumeUserSubscriptionDelta db id delta <;> rfl
  | resetDue limit =>
    have hall : committedRows plans (fun _ => false) db.subs now limit = dueForReset db.subs now limit :=
      takeWhile_eq_self_iff.mpr fun sub _ => by simp [failsIn]
    simp [performUnder, Call.intact, resetDueUnder, performUsage, resetDueSubscriptions, hall, failsIn]

/-! ## What a call can write -/

variable {plans : Plans} {db db' : Store} {fails : Stmt → Bool} {requestId : String} {now : ℤ}

theorem preConsumeUnder_cases (fails : Stmt → Bool) (plans : Plans) (db : Store) (requestId : String)
    (userId now amount : ℤ) :
    (∃ e, preConsumeUnder fails plans db requestId userId now amount = (some e, db)) ∨
      ∃ res db', preConsumeUserSubscription (plans.reset now) db requestId userId now amount = .ok (res, db') ∧
        preConsumeUnder fails plans db requestId userId now amount = (none, db') := by
  unfold preConsumeUnder
  cases preConsumeUserSubscription (plans.reset now) db requestId userId now amount with
  | error e => exact .inl ⟨_, rfl⟩
  | ok result =>
    dsimp only
    split
    · exact .inl ⟨_, rfl⟩
    · exact .inr ⟨_, _, rfl, rfl⟩

theorem postConsumeUnder_eq {id delta : ℤ} (h : postConsumeUnder fails db id delta = .ok db') :
    postConsumeUserSubscriptionDelta db id delta = .ok db' := by
  by_cases hdelta : delta = 0
  · unfold postConsumeUnder at h
    unfold postConsumeUserSubscriptionDelta
    by_cases hid : id ≤ 0
    · rw [if_pos hid] at h
      cases h
    · rw [if_neg hid, if_pos hdelta] at h ⊢
      cases h
      rfl
  · exact (postConsumeUnder_ok hdelta h).1

/-- A refund writes nothing, or what the inner transaction has committed, with or without the mark. -/
theorem refundAttempt_writes (fails : Stmt → Bool) (db : Store) (requestId : String) :
    (refundAttempt fails db requestId).2 = db ∨ ∃ (record : PreConsumeRecord) (db₁ : Store),
      (db₁ = db ∨ postConsumeUserSubscriptionDelta db record.userSubscriptionId (-record.preConsumed) = .ok db₁) ∧
        ((refundAttempt fails db requestId).2 = db₁ ∨ (refundAttempt fails db requestId).2 =
          { db₁ with records := db₁.records.put { record with status := .refunded } }) := by
  obtain ⟨err, h⟩ | ⟨record, -, ⟨-, h⟩ | ⟨-, -, -, -, db₁, hpost, h⟩⟩ := refundAttempt_inv fails db requestId
  · exact .inl (by rw [h])
  · rw [h]
    exact .inr ⟨record, db, .inl rfl, (markRefunded_snd fails db record).imp And.right fun h => h⟩
  · rw [h]
    exact .inr ⟨record, db₁, .inr hpost, (markRefunded_snd fails db₁ record).imp And.right fun h => h⟩

theorem keepsLimits_performUnder (plans : Plans) (now : ℤ) (db : Store) (c : Call) :
    KeepsLimits db.subs (performUnder plans now db c).2.subs := by
  unfold performUnder
  cases c.op with
  | preConsume requestId userId amount =>
    dsimp only
    obtain ⟨e, h⟩ | ⟨res, db', hok, h⟩ := preConsumeUnder_cases c.fails plans db requestId userId now amount <;> rw [h]
    · exact KeepsLimits.refl _
    · exact keepsLimits_preConsume hok
  | refund requestId =>
    obtain h | ⟨record, db₁, hdb₁, h⟩ := refundAttempt_writes c.fails db requestId
    · dsimp only
      rw [h]
      exact KeepsLimits.refl _
    · have hkeeps : KeepsLimits db.subs db₁.subs := by
        rcases hdb₁ with rfl | hpost
        · exact KeepsLimits.refl _
        · exact keepsLimits_postConsume hpost
      dsimp only
      rcases h with h | h <;> rw [h] <;> exact hkeeps
  | postConsume id delta =>
    dsimp only
    cases h : postConsumeUnder c.fails db id delta with
    | error e => exact KeepsLimits.refl _
    | ok db' => exact keepsLimits_postConsume (postConsumeUnder_eq h)
  | resetDue limit =>
    dsimp only [resetDueUnder]
    split
    · exact KeepsLimits.refl _
    · exact keepsLimits_resetAll plans now _ db.subs

theorem keepsLimits_calls (plans : Plans) (b : Books) (calls : List Call) :
    KeepsLimits b.db.subs (run (callStep plans) b calls).db.subs := by
  induction calls generalizing b with
  | nil => exact KeepsLimits.refl _
  | cons c calls ih => exact (keepsLimits_performUnder plans _ b.db c).trans (ih (callStep plans b c))

/-! ## Request ids that are known -/

theorem isSome_put_record {record : PreConsumeRecord} (h : (db.records.get requestId).isSome = true) :
    ((db.records.put record).get requestId).isSome = true := by
  by_cases hkey : requestId = record.requestId
  · subst hkey
    obtain ⟨old, hold⟩ := Option.isSome_iff_exists.mp h
    rw [get_put_self hold]
    rfl
  · rwa [get_put_of_ne hkey]

/-- No call takes a record away. -/
theorem isSome_record_performUnder (plans : Plans) (now : ℤ) (c : Call) (h : (db.records.get requestId).isSome = true) :
    ((performUnder plans now db c).2.records.get requestId).isSome = true := by
  have hpost : ∀ {id delta db₁}, postConsumeUserSubscriptionDelta db id delta = .ok db₁ → db₁.records = db.records :=
    fun hok => by rw [(postConsume_ok hok).2]
  unfold performUnder
  cases c.op with
  | preConsume other userId amount =>
    dsimp only
    obtain ⟨e, hfailed⟩ | ⟨res, db', hok, hdone⟩ := preConsumeUnder_cases c.fails plans db other userId now amount
    · rw [hfailed]
      exact h
    · rw [hdone]
      obtain ⟨record, hrecord⟩ := Option.isSome_iff_exists.mp h
      obtain ⟨-, -, ⟨_, -, rfl⟩ | ⟨-, _, _, -, -, hdb⟩⟩ := preConsumeUserSubscription_cases hok
      · exact h
      · rw [hdb]
        exact Option.isSome_iff_exists.mpr ⟨record, get_add_of_get hrecord⟩
  | refund other =>
    dsimp only
    obtain hwrites | ⟨record, db₁, hdb₁, hwrites⟩ := refundAttempt_writes c.fails db other
    · rwa [hwrites]
    · have hrecords : db₁.records = db.records := hdb₁.elim (fun heq => by rw [heq]) hpost
      rcases hwrites with hwrites | hwrites
      · rwa [hwrites, hrecords]
      · rw [hwrites]
        exact isSome_put_record (by rwa [hrecords])
  | postConsume id delta =>
    dsimp only
    cases hinner : postConsumeUnder c.fails db id delta with
    | error e => exact h
    | ok db' =>
      dsimp only
      rwa [hpost (postConsumeUnder_eq hinner)]
  | resetDue limit =>
    dsimp only [resetDueUnder]
    split <;> exact h

theorem isSome_record_calls (plans : Plans) (b : Books) (calls : List Call)
    (h : (b.db.records.get requestId).isSome = true) :
    ((run (callStep plans) b calls).db.records.get requestId).isSome = true := by
  induction calls generalizing b with
  | nil => exact h
  | cons c calls ih => exact ih (callStep plans b c) (isSome_record_performUnder plans _ c h)

section
variable {b : Books} {c : Call} {userId amount : ℤ} (hop : c.op = .preConsume requestId userId amount)
include hop

theorem callStep_preConsume : (callError plans b c ≠ none ∧ (callStep plans b c).db = b.db) ∨
    callError plans b c = none ∧ ∃ res, preConsumeUserSubscription (plans.reset (b.clock + c.elapsed)) b.db requestId userId
      (b.clock + c.elapsed) amount = .ok (res, (callStep plans b c).db) := by
  unfold callError callStep performUnder
  rw [hop]
  dsimp only
  obtain ⟨e, h⟩ | ⟨res, db', hpre, h⟩ :=
    preConsumeUnder_cases c.fails plans b.db requestId userId (b.clock + c.elapsed) amount <;> rw [h]
  · exact .inl ⟨Option.some_ne_none e, rfl⟩
  · exact .inr ⟨rfl, res, hpre⟩

theorem isSome_record_preConsume (hok : callError plans b c = none) :
    ((callStep plans b c).db.records.get requestId).isSome = true := by
  obtain ⟨herror, -⟩ | ⟨-, res, hpre⟩ := callStep_preConsume hop
  · exact absurd hok herror
  obtain ⟨-, -, ⟨record, hrecord, heq⟩ | ⟨hfresh, _, _, -, -, hdb⟩⟩ := preConsumeUserSubscription_cases hpre
  · exact heq ▸ Option.isSome_iff_exists.mpr ⟨record, hrecord⟩
  · exact hdb ▸ Option.isSome_iff_exists.mpr ⟨_, get_add_self hfresh⟩

theorem callStep_known (h : (b.db.records.get requestId).isSome = true) : (callStep plans b c).db = b.db := by
  obtain ⟨-, heq⟩ | ⟨-, res, hpre⟩ := @callStep_preConsume plans _ b c _ _ hop
  · exact heq
  obtain ⟨-, -, ⟨_, -, heq⟩ | ⟨hfresh, -⟩⟩ := preConsumeUserSubscription_cases hpre
  · exact heq
  · rw [hfresh] at h
    cases h

end

/-! ## Errors after a commit -/

/-- The outer transaction of a refund fails after the inner one has changed the used amount. -/
def RefundTorn (fails : Stmt → Bool) (db : Store) (requestId : String) : Prop :=
  trimSpace requestId ≠ "" ∧ innerCommits fails = true ∧ (fails .saveRecord || fails .commit) = true ∧
    ∃ record, db.records.get requestId = some record ∧ record.status = .consumed ∧ 0 < record.preConsumed ∧
      (∃ db₁, postConsumeUserSubscriptionDelta db record.userSubscriptionId (-record.preConsumed) = .ok db₁) ∧
      amountUsedOf db.subs record.userSubscriptionId ≠ 0

/-- The call has written a used amount, and fails. -/
def Torn (plans : Plans) (b : Books) (c : Call) : Prop :=
  match c.op with
  | .preConsume .. | .postConsume .. => False
  | .refund requestId => RefundTorn c.fails b.db requestId
  | .resetDue limit => c.fails .selectSub = false ∧
      ∃ sub ∈ committedRows plans c.failsRow b.db.subs (b.clock + c.elapsed) limit,
        plans.resets (b.clock + c.elapsed) sub = true ∧ sub.amountUsed ≠ 0

def SameUsed (db db' : Store) : Prop := ∀ id, amountUsedOf db'.subs id = amountUsedOf db.subs id

theorem resetDueUnder_sameUsed_iff {failsRow : ℤ → Bool} {limit : ℤ} (hselect : fails .selectSub = false) :
    SameUsed db (resetDueUnder fails failsRow plans db now limit).2 ↔
      ¬∃ sub ∈ committedRows plans failsRow db.subs now limit, plans.resets now sub = true ∧ sub.amountUsed ≠ 0 := by
  have hsublist : committedRows plans failsRow db.subs now limit <+ dueForReset db.subs now limit := takeWhile_sublist _
  have hrow : ∀ sub ∈ committedRows plans failsRow db.subs now limit,
      db.subs.get sub.id = some sub ∧ resetDue now sub = true := fun sub hsub =>
    have hdue := mem_dueForReset (hsublist.subset hsub)
    ⟨get_of_mem hdue.1, hdue.2⟩
  have hused (id : ℤ) := @resetAll_used plans db.subs now _ (fun sub hsub => (hrow sub hsub).1)
    (fun sub hsub => (hrow sub hsub).2) ((nodup_dueForReset db.subs now limit).sublist (hsublist.map _)) id
  unfold SameUsed resetDueUnder
  rw [if_neg (by rw [hselect]; exact Bool.false_ne_true)]
  simp only [hused]
  constructor
  · rintro hsame ⟨sub, hsub, hresets, hne⟩
    have hpass : passResets plans now sub.id (committedRows plans failsRow db.subs now limit) = true :=
      any_eq_true.mpr ⟨sub, hsub, by simp [hresets]⟩
    have hzero := hsame sub.id
    rw [if_pos hpass, amountUsedOf_eq (hrow sub hsub).1] at hzero
    exact hne hzero.symm
  · intro hnone id
    split
    · next hpass =>
      obtain ⟨sub, hsub, heq⟩ := any_eq_true.mp hpass
      rw [Bool.and_eq_true, decide_eq_true_eq] at heq
      rw [← heq.1, amountUsedOf_eq (hrow sub hsub).1]
      by_contra hne
      exact hnone ⟨sub, hsub, heq.2, fun hzero => hne hzero.symm⟩
    · rfl

theorem markRefunded_fst (fails : Stmt → Bool) (db : Store) (record : PreConsumeRecord) :
    (markRefunded fails db record).1 ≠ none → (fails .saveRecord || fails .commit) = true ∧
      (markRefunded fails db record).2 = db := by
  unfold markRefunded
  split
  · next hsave => exact fun _ => ⟨by rw [hsave]; rfl, rfl⟩
  split
  · next hcommit => exact fun _ => ⟨by rw [hcommit, Bool.or_true], rfl⟩
  · exact fun h => absurd rfl h

theorem sameUsed_postConsume_iff {record : PreConsumeRecord} {db₁ : Store} (hpos : 0 < record.preConsumed)
    (h : postConsumeUserSubscriptionDelta db record.userSubscriptionId (-record.preConsumed) = .ok db₁) :
    SameUsed db db₁ ↔ ¬amountUsedOf db.subs record.userSubscriptionId ≠ 0 := by
  obtain ⟨⟨hzero, -⟩ | ⟨-, hused⟩, -⟩ := postConsume_ok h
  · omega
  constructor
  · intro hsame
    have heq := hsame record.userSubscriptionId
    omega
  · intro hempty id
    by_cases hid : id = record.userSubscriptionId
    · subst hid
      omega
    · exact postConsume_other h hid

theorem refundAttempt_of_inner {record : PreConsumeRecord} {db₁ : Store} (hblank : trimSpace requestId ≠ "")
    (hinner : innerCommits fails = true) (hrecord : db.records.get requestId = some record)
    (hstatus : record.status = .consumed) (hpos : 0 < record.preConsumed)
    (hpost : postConsumeUserSubscriptionDelta db record.userSubscriptionId (-record.preConsumed) = .ok db₁) :
    refundAttempt fails db requestId = markRefunded fails db₁ record := by
  simp only [innerCommits, Bool.and_eq_true, Bool.not_eq_true'] at hinner
  obtain ⟨⟨⟨⟨⟨hbegin, hselect⟩, hbegin'⟩, hselect'⟩, hsave⟩, hcommit⟩ := hinner
  have hunder : postConsumeUnder fails db record.userSubscriptionId (-record.preConsumed) = .ok db₁ := by
    have hid : ¬record.userSubscriptionId ≤ 0 := fun hid => by
      rw [postConsumeUserSubscriptionDelta, if_pos hid] at hpost
      cases hpost
    simp only [postConsumeUnder, if_neg hid, hbegin', hselect', hsave, hcommit, hpost, Bool.false_eq_true, if_false]
    rw [if_neg (by omega)]
  unfold refundAttempt
  rw [if_neg hblank, hbegin, hselect, hrecord]
  simp only [Bool.false_eq_true, if_false, hstatus, reduceCtorEq, not_le.mpr hpos, hunder]

theorem refundAttempt_sameUsed_iff (herror : (refundAttempt fails db requestId).1 ≠ none) :
    SameUsed db (refundAttempt fails db requestId).2 ↔ ¬RefundTorn fails db requestId := by
  constructor
  · rintro hsame ⟨hblank, hinner, houter, record, hrecord, hstatus, hpos, ⟨db₁, hpost⟩, hne⟩
    have hattempt := refundAttempt_of_inner hblank hinner hrecord hstatus hpos hpost
    rw [hattempt] at herror hsame
    rw [(markRefunded_fst fails db₁ record herror).2, sameUsed_postConsume_iff hpos hpost] at hsame
    exact hsame hne
  · intro hwhole
    obtain ⟨err, h⟩ | ⟨record, hrecord, ⟨-, h⟩ | ⟨hpos, hstatus, hblank, hinner, db₁, hpost, h⟩⟩ :=
      refundAttempt_inv fails db requestId
    · rw [h]
      exact fun _ => rfl
    · rw [h] at herror ⊢
      rw [(markRefunded_fst fails db record herror).2]
      exact fun _ => rfl
    · rw [h] at herror ⊢
      obtain ⟨houter, hstore⟩ := markRefunded_fst fails db₁ record herror
      rw [hstore, sameUsed_postConsume_iff hpos hpost]
      exact fun hne => hwhole ⟨hblank, hinner, houter, record, hrecord, hstatus, hpos, ⟨db₁, hpost⟩, hne⟩

theorem callError_sameUsed_iff {b : Books} {c : Call} {e : RefundError} (herror : callError plans b c = some e) :
    SameUsed b.db (callStep plans b c).db ↔ ¬Torn plans b c := by
  unfold Torn
  cases hop : c.op with
  | preConsume requestId userId amount =>
    obtain ⟨-, heq⟩ | ⟨hnone, -⟩ := callStep_preConsume hop
    · exact iff_of_true (fun _ => by rw [heq]) nofun
    · rw [hnone] at herror
      cases herror
  | refund requestId =>
    simp only [callError, callStep, performUnder, hop] at herror ⊢
    exact refundAttempt_sameUsed_iff (by rw [herror]; exact Option.some_ne_none e)
  | postConsume id delta =>
    simp only [callError, callStep, performUnder, hop] at herror ⊢
    cases hinner : postConsumeUnder c.fails b.db id delta with
    | error e => exact iff_of_true (fun _ => rfl) nofun
    | ok db' =>
      rw [hinner] at herror
      cases herror
  | resetDue limit =>
    simp only [callStep, performUnder, hop]
    cases hselect : c.fails .selectSub with
    | true =>
      rw [resetDueUnder, if_pos hselect]
      exact iff_of_true (fun _ => rfl) fun h => Bool.noConfusion h.1
    | false => rw [resetDueUnder_sameUsed_iff hselect, and_iff_right rfl]

/-! ## Runs -/

/-- In every run, whatever fails, a subscription with a total stays between zero and it, a successful pre-consumption is not
repeated under its request id, and a call that fails leaves every used amount alone exactly if it is not torn. -/
theorem subscription_usage_within_limits (plans : Plans) (b : Books) (id : ℤ) (sub₀ : UserSubscription)
    (hsub : b.db.subs.get id = some sub₀) (htotal : 0 < sub₀.amountTotal) (hnonneg : 0 ≤ sub₀.amountUsed)
    (hused : sub₀.amountUsed ≤ sub₀.amountTotal) (calls : List Call) :
    (∃ sub, (run (callStep plans) b calls).db.subs.get id = some sub ∧
      sub.amountTotal = sub₀.amountTotal ∧ 0 ≤ sub.amountUsed ∧ sub.amountUsed ≤ sub.amountTotal) ∧
    (∀ c e, callError plans (run (callStep plans) b calls) c = some e →
      (SameUsed (run (callStep plans) b calls).db (callStep plans (run (callStep plans) b calls) c).db ↔
        ¬Torn plans (run (callStep plans) b calls) c)) ∧
    ∀ c requestId userId amount, c.op = .preConsume requestId userId amount →
      callError plans (run (callStep plans) b calls) c = none → ∀ later c' userId' amount',
        c'.op = .preConsume requestId userId' amount' →
        (run (callStep plans) b (calls ++ c :: later ++ [c'])).db = (run (callStep plans) b (calls ++ c :: later)).db := by
  refine ⟨?_, fun c e herror => callError_sameUsed_iff herror, fun c requestId userId amount hop hok later c' userId' amount'
    hop' => ?_⟩
  · obtain ⟨sub, hget, hlimited⟩ := keepsLimits_calls plans b calls id sub₀ hsub
    refine ⟨sub, hget, hlimited.total, hlimited.nonneg hnonneg, ?_⟩
    rw [hlimited.total]
    exact hlimited.used htotal hused
  · have hknown := isSome_record_calls plans _ later (isSome_record_preConsume hop hok)
    rw [run_append, run_append, run_cons]
    exact callStep_known hop' hknown

/-- A run with a reset, a refund whose outer commit fails and a repeated request id. -/
def sampleCalls : List Call :=
  [.intact 10 (.preConsume "a" 7 70), .intact 5 (.postConsume 1 50), .intact 4000 (.resetDue 0),
    .intact 0 (.preConsume "b" 7 60), ⟨9, .refund "b", (· = .commit), fun _ => false⟩, .intact 1 (.preConsume "b" 7 60)]

theorem subscription_usage_within_limits_across_reset :
    ∃ sub, (run (callStep samplePlans) sampleBooks sampleCalls).db.subs.get 1 = some sub ∧
      0 ≤ sub.amountUsed ∧ sub.amountUsed ≤ 100 := by
  obtain ⟨⟨sub, hget, htotal, hnonneg, hle⟩, -⟩ :=
    subscription_usage_within_limits samplePlans sampleBooks 1 hourlySub (by decide) (by decide) (by decide) (by decide)
      sampleCalls
  exact ⟨sub, hget, hnonneg, hle.trans_eq htotal⟩

/-- The refund tells an error, and the ten units are given back. -/
theorem failed_refund_changes_used :
    let c : Call := ⟨0, .refund "a", (· = .saveRecord), fun _ => false⟩
    callError samplePlans ⟨0, sampleRefunding.db⟩ c = some (.database .saveRecord) ∧
      amountUsedOf sampleRefunding.db.subs 1 = 30 ∧
      amountUsedOf (callStep samplePlans ⟨0, sampleRefunding.db⟩ c).db.subs 1 = 20 := by
  decide +kernel

end HotAI.Billing
