import HotAI.Subscription.Groups

/-! # What one subscription operation does to the user's group

If a user only buys an upgrade while none is marked active, at most one is active at a time, its snapshot is the group the user
started from, and it ends after every upgrade that expired before it. -/
namespace HotAI.Subscription
open HotAI.Lib Table

/-! ## The invariant -/

def elevates (user : ℤ) (sub : UserSubscription) : Bool :=
  sub.userId = user && sub.status = .active && sub.upgradeGroup ≠ ""

theorem elevates_iff {user : ℤ} {sub : UserSubscription} : elevates user sub = true ↔
    sub.userId = user ∧ sub.status = .active ∧ sub.upgradeGroup ≠ "" := by
  simp [elevates, and_assoc]

structure Snapshot (base : String) (sub : UserSubscription) : Prop where
  downgrade : sub.downgradeGroup = ""
  trimmed : trimSpace sub.upgradeGroup = sub.upgradeGroup
  prev : sub.upgradeGroup ≠ "" → sub.prevUserGroup = if sub.upgradeGroup = base then "" else base

def Standing (base : String) (user : ℤ) (db : Ledger) : Prop :=
  (∀ sub ∈ db.subs.rows, elevates user sub = false) ∧ db.groups user = some base ∨
    ∃ sub ∈ db.subs.rows, elevates user sub = true ∧ db.groups user = some sub.upgradeGroup ∧
      0 < sub.endTime ∧ (∀ other ∈ db.subs.rows, elevates user other = true → other.id = sub.id) ∧
      ∀ other ∈ db.subs.rows, other.userId = user → other.status = .expired →
        other.upgradeGroup ≠ "" → other.endTime < sub.endTime

structure Inv (base : String) (user : ℤ) (db : Ledger) : Prop where
  clock : 0 ≤ db.clock
  snapshot : ∀ sub ∈ db.subs.rows, sub.userId = user → Snapshot base sub
  past : ∀ sub ∈ db.subs.rows, sub.userId = user → sub.status = .expired → sub.endTime ≤ db.clock
  standing : Standing base user db

def Settled (user : ℤ) (db : Ledger) : Prop :=
  ∀ sub ∈ db.subs.rows, elevates user sub = true → db.clock < sub.endTime

structure Untouched (user : ℤ) (db db' : Ledger) : Prop where
  clock : db'.clock = db.clock
  rows : ∀ sub : UserSubscription, sub.userId = user → (sub ∈ db'.subs.rows ↔ sub ∈ db.subs.rows)
  group : db'.groups user = db.groups user

section
variable {base : String} {user : ℤ} {db db' : Ledger}
    {sub : UserSubscription} {plan : SubscriptionPlan} {current : String} {message : String} {cal : Calendar}

theorem elevates_user (h : elevates user sub = true) : sub.userId = user :=
  (elevates_iff.mp h).1

theorem Untouched.settled (hu : Untouched user db db') (h : Settled user db) : Settled user db' := by
  intro sub hsub he
  rw [hu.clock]
  exact h sub ((hu.rows sub (elevates_user he)).mp hsub) he

theorem Untouched.standing (hu : Untouched user db db') (h : Standing base user db) : Standing base user db' := by
  rcases h with ⟨hnone, hgroup⟩ | ⟨sub, hsub, he, hgroup, hpos, honly, hlast⟩
  · refine .inl ⟨fun sub hsub => ?_, hu.group.trans hgroup⟩
    by_contra he
    rw [Bool.not_eq_false] at he
    have := hnone sub ((hu.rows sub (elevates_user he)).mp hsub)
    rw [he] at this
    cases this
  · refine .inr ⟨sub, (hu.rows sub (elevates_user he)).mpr hsub, he, hu.group.trans hgroup, hpos, ?_, ?_⟩
    · intro other hother ho
      exact honly other ((hu.rows other (elevates_user ho)).mp hother) ho
    · intro other hother huser
      exact hlast other ((hu.rows other huser).mp hother) huser

theorem moveTo_frame (v : ℤ) (current target : String) :
    (db.moveTo v current target).2.clock = db.clock ∧ (db.moveTo v current target).2.subs = db.subs ∧
      ∀ u, u ≠ v → (db.moveTo v current target).2.groups u = db.groups u := by
  unfold Ledger.moveTo
  split
  · exact ⟨rfl, rfl, fun _ _ => rfl⟩
  · exact ⟨rfl, rfl, fun u hu => Function.update_of_ne hu ..⟩

theorem moveTo_base (hgroup : db.groups user = some current) (hbase : base ≠ "") (htrim : trimSpace base = base) :
    (db.moveTo user current (trimSpace (if current = base then "" else base))).2.groups user = some base := by
  by_cases hsame : current = base
  · subst hsame
    rw [if_pos rfl, Ledger.moveTo, if_pos (.inl rfl), hgroup]
  · rw [if_neg hsame, htrim, Ledger.moveTo, if_neg (not_or.mpr ⟨hbase, Ne.symm hsame⟩)]
    simp [Ledger.setUserGroup, hgroup]

theorem downgrade_frame {now : ℤ} {target : String}
    (h : downgradeUserGroupForSubscriptionTx db sub now = .ok (target, db')) :
    db'.clock = db.clock ∧ db'.subs = db.subs ∧ ∀ v, v ≠ sub.userId → db'.groups v = db.groups v := by
  unfold downgradeUserGroupForSubscriptionTx at h
  dsimp only at h
  split at h
  · cases h
    exact ⟨rfl, rfl, fun _ _ => rfl⟩
  · split at h
    · cases h
    · next current _ =>
      split at h
      · cases h
        exact ⟨rfl, rfl, fun _ _ => rfl⟩
      · generalize (if trimSpace sub.downgradeGroup = "" then trimSpace sub.prevUserGroup
          else trimSpace sub.downgradeGroup) = goal at h
        split at h
        · cases h
          exact ⟨rfl, rfl, fun _ _ => rfl⟩
        · have hframe := @moveTo_frame db sub.userId current goal
          rw [Except.ok.inj h] at hframe
          exact hframe

/-- The administrator's downgrade: a user in its upgrade group goes back to the base group if no other upgrade is running. -/
theorem downgrade_user {sub : UserSubscription} {now : ℤ} {current : String} (huser : 0 < user)
    (hsub : sub.userId = user) (hshape : Snapshot base sub) (hgroup : db.groups user = some current)
    (hbase : base ≠ "") (htrim : trimSpace base = base) :
    ∃ target db', downgradeUserGroupForSubscriptionTx db sub now = .ok (target, db') ∧
      db'.groups user = some (if sub.upgradeGroup ≠ "" ∧ current = sub.upgradeGroup ∧
        db.hasActiveUpgrade user now (·.id ≠ sub.id) = false then base else current) := by
  have hempty : trimSpace "" = "" := by decide
  unfold downgradeUserGroupForSubscriptionTx
  simp only [hshape.downgrade, hshape.trimmed, hempty, true_and, if_true, hsub, Ledger.getUserGroup,
    if_neg (not_le.mpr huser), hgroup, Option.getD_some]
  by_cases hup : sub.upgradeGroup = ""
  · exact ⟨"", db, by rw [if_pos hup], by simp [hup, hgroup]⟩
  · rw [if_neg hup]
    cases hactive : db.hasActiveUpgrade user now (·.id ≠ sub.id) with
    | true => exact ⟨"", db, rfl, by simp [hgroup]⟩
    | false =>
      by_cases hcurrent : current = sub.upgradeGroup
      · refine ⟨_, _, by rw [if_neg Bool.false_ne_true, if_neg (by simpa using hcurrent)], ?_⟩
        rw [if_pos ⟨hup, hcurrent, rfl⟩, hshape.prev hup, ← hcurrent]
        exact moveTo_base hgroup hbase htrim
      · refine ⟨"", db, by rw [if_neg Bool.false_ne_true, if_pos hcurrent], ?_⟩
        rw [if_neg fun hmoved => hcurrent hmoved.2.1, hgroup]

/-! ## Purchases -/

def OtherRunning (user : ℤ) (db : Ledger) (id : ℤ) : Prop :=
  ∃ other ∈ db.subs.rows, elevates user other = true ∧ other.id ≠ id ∧ db.clock < other.endTime

theorem hasActiveUpgrade_iff {now id : ℤ} : db.hasActiveUpgrade user now (·.id ≠ id) = true ↔
    ∃ other ∈ db.subs.rows, elevates user other = true ∧ other.id ≠ id ∧ now < other.endTime := by
  simp only [Ledger.hasActiveUpgrade, List.any_eq_true, Bool.and_eq_true, decide_eq_true_eq,
    elevates_iff]
  refine exists_congr fun other => and_congr_right fun _ => ?_
  tauto

/-- One subscription goes, and the user goes back to the base group if it had moved them and nothing else is running. -/
theorem inv_withdraw {gone : UserSubscription} (hgone : gone ∈ db.subs.rows) (h : Inv base user db)
    (hothers : ∀ other ∈ db.subs.rows, elevates user other = true → other.id ≠ gone.id → db.clock < other.endTime)
    (hclock : db'.clock = db.clock)
    (hkeep : ∀ sub ∈ db.subs.rows, sub.id ≠ gone.id → sub ∈ db'.subs.rows)
    (hfrom : ∀ sub ∈ db'.subs.rows, sub.userId = user →
      sub ∈ db.subs.rows ∧ sub.id ≠ gone.id ∨ sub.status = .cancelled ∧ Snapshot base sub)
    (hcurrent : db.groups user = some current)
    (hstay : gone.upgradeGroup = "" ∨ current ≠ gone.upgradeGroup ∨ OtherRunning user db gone.id →
      db'.groups user = some current)
    (hback : gone.upgradeGroup ≠ "" → current = gone.upgradeGroup → ¬ OtherRunning user db gone.id →
      db'.groups user = some base) :
    Inv base user db' ∧ Settled user db' := by
  have helevated : ∀ sub ∈ db'.subs.rows, elevates user sub = true →
      sub ∈ db.subs.rows ∧ sub.id ≠ gone.id := by
    intro sub hsub he
    obtain ⟨hsubuser, hactive, -⟩ := elevates_iff.mp he
    rcases hfrom sub hsub hsubuser with hold | ⟨hcancelled, -⟩
    · exact hold
    · rw [hactive] at hcancelled
      cases hcancelled
  refine ⟨⟨hclock ▸ h.clock, ?_, ?_, ?_⟩, ?_⟩
  · intro sub hsub hsubuser
    rcases hfrom sub hsub hsubuser with ⟨hold, -⟩ | ⟨-, hshape⟩
    · exact h.snapshot sub hold hsubuser
    · exact hshape
  · intro sub hsub hsubuser hexp
    rcases hfrom sub hsub hsubuser with ⟨hold, -⟩ | ⟨hcancelled, -⟩
    · exact hclock ▸ h.past sub hold hsubuser hexp
    · rw [hexp] at hcancelled
      cases hcancelled
  · rcases h.standing with ⟨hnone, hbase⟩ | ⟨top, htop, he, htopgroup, hpos, honly, hlast⟩
    · -- the base group is left by nobody and entered again at most
      have hsame : current = base := Option.some.inj (hcurrent.symm.trans hbase)
      have hidle : ¬ OtherRunning user db gone.id := by
        rintro ⟨other, hother, ho, -⟩
        rw [hnone other hother] at ho
        cases ho
      refine .inl ⟨fun sub hsub => ?_, ?_⟩
      · by_contra ho
        rw [Bool.not_eq_false] at ho
        have := hnone sub (helevated sub hsub ho).1
        rw [ho] at this
        cases this
      · by_cases hmoved : gone.upgradeGroup ≠ "" ∧ current = gone.upgradeGroup
        · exact hback hmoved.1 hmoved.2 hidle
        · rw [← hsame]
          rcases not_and_or.mp hmoved with hup | hother
          · exact hstay (.inl (not_not.mp hup))
          · exact hstay (.inr (.inl hother))
    · have htopcurrent : current = top.upgradeGroup := Option.some.inj (hcurrent.symm.trans htopgroup)
      by_cases hid : gone.id = top.id
      · -- the active upgrade itself goes
        have hsame : gone = top := eq_of_key hgone htop hid
        subst hsame
        refine .inl ⟨fun sub hsub => ?_, ?_⟩
        · by_contra ho
          rw [Bool.not_eq_false] at ho
          obtain ⟨hold, hne⟩ := helevated sub hsub ho
          exact hne (honly sub hold ho)
        · refine hback (elevates_iff.mp he).2.2 htopcurrent ?_
          rintro ⟨other, hother, ho, hne, -⟩
          exact hne (honly other hother ho)
      · have hrunning : OtherRunning user db gone.id :=
          ⟨top, htop, he, Ne.symm hid, hothers top htop he (Ne.symm hid)⟩
        refine .inr ⟨top, hkeep top htop (Ne.symm hid), he, ?_, hpos, ?_, ?_⟩
        · rw [hstay (.inr (.inr hrunning)), htopcurrent]
        · intro other hother ho
          exact honly other (helevated other hother ho).1 ho
        · intro other hother hotheruser hexp
          rcases hfrom other hother hotheruser with ⟨hold, -⟩ | ⟨hcancelled, -⟩
          · exact hlast other hold hotheruser hexp
          · rw [hexp] at hcancelled
            cases hcancelled
  · intro sub hsub he
    obtain ⟨hold, hne⟩ := helevated sub hsub he
    rw [hclock]
    exact hothers sub hold he hne

theorem Inv.exists_group (h : Inv base user db) : ∃ current, db.groups user = some current := by
  rcases h.standing with ⟨-, hgroup⟩ | ⟨top, -, -, hgroup, -⟩
  · exact ⟨_, hgroup⟩
  · exact ⟨_, hgroup⟩

def OthersUnexpired (user : ℤ) (db : Ledger) (id : ℤ) : Prop :=
  ∀ other ∈ db.subs.rows, elevates user other = true → other.id ≠ id → db.clock < other.endTime

/-- The administrator's downgrade when `sub` is withdrawn, from the ledger before: only the row of `sub` may have changed. -/
theorem downgrade_withdraw {mid final : Ledger} {sub : UserSubscription} {current target : String}
    (huser : 0 < user) (hbase : base ≠ "") (htrim : trimSpace base = base) (hsub : sub.userId = user)
    (hshape : Snapshot base sub) (hcurrent : mid.groups user = some current)
    (hrows : ∀ x : UserSubscription, x.id ≠ sub.id → (x ∈ mid.subs.rows ↔ x ∈ db.subs.rows))
    (hdown : downgradeUserGroupForSubscriptionTx mid sub db.clock = .ok (target, final)) :
    (sub.upgradeGroup = "" ∨ current ≠ sub.upgradeGroup ∨ OtherRunning user db sub.id → final.groups user = some current) ∧
    (sub.upgradeGroup ≠ "" → current = sub.upgradeGroup → ¬ OtherRunning user db sub.id →
      final.groups user = some base) := by
  obtain ⟨target', final', hok, hgroup⟩ :=
    @downgrade_user base user mid sub db.clock current huser hsub hshape hcurrent hbase htrim
  rw [hdown] at hok
  obtain ⟨rfl, rfl⟩ := Prod.mk.inj (Except.ok.inj hok)
  have hrunning : mid.hasActiveUpgrade user db.clock (·.id ≠ sub.id) = true ↔
      OtherRunning user db sub.id := by
    rw [hasActiveUpgrade_iff]
    constructor
    · rintro ⟨other, hother, he, hne, hlt⟩
      exact ⟨other, (hrows other hne).mp hother, he, hne, hlt⟩
    · rintro ⟨other, hother, he, hne, hlt⟩
      exact ⟨other, (hrows other hne).mpr hother, he, hne, hlt⟩
  rw [← hrunning, Bool.not_eq_true]
  constructor
  · intro hstay
    rw [hgroup, if_neg]
    rintro ⟨hup, hsame, hidle⟩
    rcases hstay with h | h | h
    · exact hup h
    · exact h hsame
    · rw [hidle] at h
      cases h
  · intro hup hsame hidle
    rw [hgroup, if_pos ⟨hup, hsame, hidle⟩]

theorem looked_up_ok {id : ℤ} {m n : String} {α : Type} {act : UserSubscription → Except String α} {out : α}
    (hok : (if id ≤ 0 then Except.error m else match db.subs.get id with
      | none => .error n
      | some sub => act sub) = .ok out) :
    ∃ sub ∈ db.subs.rows, sub.id = id ∧ act sub = .ok out := by
  split at hok
  · cases hok
  · cases hget : db.subs.get id with
    | none =>
      rw [hget] at hok
      cases hok
    | some sub =>
      rw [hget] at hok
      obtain ⟨hmem, hid⟩ := (db.subs.get_eq_some_iff id sub).mp hget
      exact ⟨sub, hmem, hid, hok⟩

theorem inv_delete {id : ℤ} (huser : 0 < user) (hbase : base ≠ "") (htrim : trimSpace base = base) (h : Inv base user db)
    (hok : adminDeleteUserSubscription db id = .ok (message, db')) :
    ∃ sub, db.subs.get id = some sub ∧ (sub.userId ≠ user → Untouched user db db') ∧
      (sub.userId = user → OthersUnexpired user db id → Inv base user db' ∧ Settled user db') := by
  unfold adminDeleteUserSubscription at hok
  obtain ⟨sub, hmem, rfl, hok⟩ := looked_up_ok hok
  obtain ⟨⟨target, final⟩, hdown, heq⟩ := except_map_ok hok
  obtain rfl : { final with subs := final.subs.remove sub.id } = db' := congrArg Prod.snd heq
  obtain ⟨hclock, hsubs, hframe⟩ := downgrade_frame hdown
  have hremove : ∀ x, x ∈ (final.subs.remove sub.id).rows ↔ x ∈ db.subs.rows ∧ x.id ≠ sub.id := by
    intro x
    rw [hsubs]
    exact mem_remove x
  refine ⟨sub, get_of_mem hmem, fun hne => ⟨hclock, fun other hother => ?_, hframe user (Ne.symm hne)⟩, ?_⟩
  · rw [hremove, and_iff_left_of_imp]
    intro hold hid
    exact hne (eq_of_key hold hmem hid ▸ hother)
  · intro hsub hothers
    obtain ⟨current, hcurrent⟩ := h.exists_group
    obtain ⟨hstay, hback⟩ := @downgrade_withdraw base user db db final sub current target huser
      hbase htrim hsub (h.snapshot sub hmem hsub) hcurrent (fun _ _ => Iff.rfl) hdown
    refine inv_withdraw hmem h hothers hclock ?_ ?_ hcurrent hstay hback
    · exact fun x hx hne => (hremove x).mpr ⟨hx, hne⟩
    · exact fun x hx _ => .inl ((hremove x).mp hx)

end
end HotAI.Subscription
