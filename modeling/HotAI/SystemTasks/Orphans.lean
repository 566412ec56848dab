import HotAI.SystemTasks.Leases

/-! # A running task has a lock

A claim sets its task running without looking at the lock it acquired. As long as it does so before its own lease
ends, the lock is still there. -/
namespace HotAI.SystemTasks
open HotAI.Lib Option Table

variable {Runner : Type}

def acquiredOf : Pc Runner → Option Claim
  | .mark c _ | .start c => some c
  | _ => none

def startOf : Pc Runner → Option Claim
  | .start c => some c
  | _ => none

def releaseOf : Pc Runner → Option Claim
  | .release c => some c
  | _ => none

def sweepTime : Pc Runner → Option ℤ
  | .sweep now _ | .sweepDelete now _ _ => some now
  | _ => none

def deletes : Pc Runner → Option (ℤ × SystemTaskLock Runner)
  | .sweepDelete now lock _ => some (now, lock)
  | _ => none

def IsPending (db : Store Runner) (id : String) : Prop := ∃ t, db.tasks.get id = some t ∧ t.status = .pending

variable {db : Store Runner} {id : String} {t : SystemTask Runner}

theorem not_ended_of_active (hget : db.tasks.get id = some t) (hactive : t.status.active = true) : ¬ Ended db id := by
  rintro ⟨t', hget', hended⟩
  obtain rfl := some.inj (hget.symm.trans hget')
  rw [hactive] at hended
  cases hended

theorem not_ended_of_running (h : db.isRunning id = true) : ¬ Ended db id := by
  obtain ⟨t, hget, hstatus⟩ := isRunning_iff.mp h
  exact not_ended_of_active hget (by rw [hstatus]; rfl)

theorem not_ended_of_pending (h : IsPending db id) : ¬ Ended db id := by
  obtain ⟨t, hget, hstatus⟩ := h
  exact not_ended_of_active hget (by rw [hstatus]; rfl)

theorem not_running_of_pending (h : IsPending db id) : db.isRunning id ≠ true := by
  intro hrun
  obtain ⟨t, hget, hstatus⟩ := h
  obtain ⟨t', hget', hstatus'⟩ := isRunning_iff.mp hrun
  rw [hget] at hget'
  obtain rfl := some.inj hget'
  rw [hstatus] at hstatus'
  cases hstatus'

/-! ## How a task gets its status -/

variable {set : SystemTask Runner → SystemTask Runner} {cond : SystemTask Runner → Bool} {x : SystemTask Runner}

theorem updateTask_get {id' : String}
    (hx : (db.updateTask id' cond set).1.tasks.get id = some x) (htame : ∀ t, cond t = true → Tame t (set t)) :
    db.tasks.get id = some x ∨ ∃ t, id' = id ∧ db.tasks.get id = some t ∧ cond t = true ∧ x = set t := by
  obtain h | ⟨t, hget, hcond, h⟩ := updateTask_cases db id' cond set <;> rw [h] at hx
  · exact .inl hx
  · obtain ⟨rfl, rfl⟩ | ⟨-, hold⟩ := get_put_cases hget (htame t hcond) hx
    · exact .inr ⟨t, rfl, hget, hcond, rfl⟩
    · exact .inl hold

theorem updateTask_get_self (hget : db.tasks.get id = some t) (hkey : (set t).taskID = t.taskID) :
    (db.updateTask id cond set).1.tasks.get id = some (if cond t then set t else t) := by
  have hid : (set t).taskID = id := hkey.trans (key_of_get hget)
  unfold Store.updateTask
  rw [hget]
  dsimp only
  split
  · have hold : db.tasks.get (set t).taskID = some t := hid.symm ▸ hget
    exact hid ▸ get_put_self hold
  · exact hget

theorem createTask_get {now : ℤ} {taskID type payload state : String}
    (hx : (db.createTask now taskID type payload state).tasks.get id = some x) :
    db.tasks.get id = some x ∨ db.tasks.get id = none ∧ x.status = .pending := by
  cases hget : db.tasks.get id with
  | some t =>
    unfold Store.createTask at hx
    split at hx
    · exact .inl (hget ▸ hx)
    · rw [get_add_of_get hget] at hx
      exact .inl hx
  | none =>
    unfold Store.createTask at hx
    split at hx
    · exact .inl (hget ▸ hx)
    · by_cases hid : id = taskID
      · subst hid
        rw [get_add_self hget] at hx
        obtain rfl := some.inj hx
        exact .inr ⟨rfl, rfl⟩
      · rw [get_add_of_ne hid, hget] at hx
        cases hx

section Steps
variable [DecidableEq Runner] {s s' : State Runner} {a : Action Runner} {id : String}

/-- A task row after a step: there before with the same status, new and pending, started by the runner, or ended. -/
theorem task_step (h : Stepped s a s') (hx : s'.db.tasks.get id = some x) :
    (∃ t, s.db.tasks.get id = some t ∧ x.status = t.status) ∨ (s.db.tasks.get id = none ∧ x.status = .pending) ∨
      (∃ r c, a = .next r ∧ s.pc r = .start c ∧ c.taskID = id ∧ IsPending s.db id) ∨ x.status.active = false := by
  have hsame : s.db.tasks.get id = some x → ∃ t, s.db.tasks.get id = some t ∧ x.status = t.status :=
    fun hx => ⟨x, hx, rfl⟩
  cases h with
  | create => exact (createTask_get hx).imp hsame .inl
  | @next runner pc db' pc' hpc hadv =>
    cases hadv with
    | mark =>
      obtain hx | ⟨-, -, -, -, rfl⟩ := updateTask_get hx fun t _ => tame_expire t
      · exact .inl (hsame hx)
      · exact .inr (.inr (.inr rfl))
    | sweepMark =>
      obtain hx | ⟨-, -, -, -, rfl⟩ := updateTask_get hx fun t _ => tame_expire t
      · exact .inl (hsame hx)
      · exact .inr (.inr (.inr rfl))
    | @start c =>
      obtain hx | ⟨t, hid, hget, hcond, rfl⟩ := updateTask_get hx tame_start
      · exact .inl (hsame hx)
      · simp only [Bool.and_eq_true, decide_eq_true_eq] at hcond
        exact .inr (.inr (.inl ⟨runner, c, rfl, hpc, hid, t, hget, hcond.2⟩))
    | idle | insert | conflict | giveUp | expired | lost | takeOver | release | swept | sweepDelete =>
      exact .inl (hsame hx)
  | update =>
    obtain hx | ⟨t, -, hget, -, rfl⟩ := updateTask_get hx fun t _ => tame_state t
    · exact .inl (hsame hx)
    · exact .inl ⟨t, hget, rfl⟩
  | @finish runner taskID outcome =>
    obtain hx | ⟨-, -, -, -, rfl⟩ := updateTask_get hx fun t _ => tame_finish t
    · exact .inl (hsame hx)
    · exact .inr (.inr (.inr (by cases outcome <;> rfl)))
  | refused | tick | claim | sweeping | renew | released => exact .inl (hsame hx)

theorem running_step (h : Stepped s a s') (hrun : s'.db.isRunning id = true) :
    s.db.isRunning id = true ∨ ∃ r c, a = .next r ∧ s.pc r = .start c ∧ c.taskID = id ∧ IsPending s.db id := by
  obtain ⟨x, hx, hstatus⟩ := isRunning_iff.mp hrun
  obtain ⟨t, hget, heq⟩ | ⟨-, hpending⟩ | hstart | hended := task_step h hx
  · exact .inl (isRunning_iff.mpr ⟨t, hget, heq.symm.trans hstatus⟩)
  · rw [hstatus] at hpending
    cases hpending
  · exact .inr hstart
  · rw [hstatus] at hended
    cases hended

theorem pending_step (h : Stepped s a s')
    (hpending : IsPending s'.db id) : IsPending s.db id ∨ s.db.tasks.get id = none := by
  obtain ⟨x, hx, hstatus⟩ := hpending
  obtain ⟨t, hget, heq⟩ | ⟨hnone, -⟩ | ⟨-, -, -, -, -, hstart⟩ | hended := task_step h hx
  · exact .inl ⟨t, hget, heq.symm.trans hstatus⟩
  · exact .inr hnone
  · exact .inl hstart
  · rw [hstatus] at hended
    cases hended

/-! ## What becomes of a lock -/

inductive Lost (s : State Runner) (lock : SystemTaskLock Runner) : Prop where
  | released {r c} (hpc : s.pc r = .release c) (hid : lock.taskID = c.taskID)
  | finished {r} (h : (lock.taskID, r) ∈ s.finishing)
  | swept {r now l rest} (hpc : s.pc r = .sweepDelete now l rest) (hid : lock.taskID = l.taskID)
      (hlt : lock.lockedUntil < now)
  | taken {r c existing} (hpc : s.pc r = .takeOver c existing) (hget : s.db.locks.get c.type = some lock)
      (hlt : lock.lockedUntil < c.now)

/-- The lock is still there, with the same end or one counted from now. -/
def Kept (s s' : State Runner) (lock : SystemTaskLock Runner) : Prop :=
  ∃ lock' ∈ s'.db.locks.rows, lock'.taskID = lock.taskID ∧ lock'.lockedBy = lock.lockedBy ∧
    (lock'.lockedUntil = lock.lockedUntil ∨ lock'.lockedUntil = s.now + systemTaskLockTTL)

theorem kept_or_lost (h : Stepped s a s') {lock : SystemTaskLock Runner}
    (hmem : lock ∈ s.db.locks.rows) : Kept s s' lock ∨ Lost s lock := by
  have hkept : ∀ {s' : State Runner}, lock ∈ s'.db.locks.rows → Kept s s' lock :=
    fun h => ⟨lock, h, rfl, rfl, .inl rfl⟩
  cases h with
  | create => exact .inl (hkept (by rw [createTask_locks]; exact hmem))
  | update | finish => exact .inl (hkept (updateTask_locks s.db _ _ _ ▸ hmem))
  | @renew runner taskID =>
    refine .inl ⟨lock.renewed taskID runner s.now (s.now + systemTaskLockTTL), mem_renew.mpr ⟨lock, hmem, rfl⟩, ?_⟩
    unfold SystemTaskLock.renewed
    split
    · exact ⟨rfl, rfl, .inr rfl⟩
    · exact ⟨rfl, rfl, .inl rfl⟩
  | @released runner taskID hfin =>
    by_cases hcond : (decide (lock.taskID = taskID) && decide (lock.lockedBy = runner)) = true
    · simp only [Bool.and_eq_true, decide_eq_true_eq] at hcond
      exact .inr (.finished (hcond.1 ▸ hfin))
    · exact .inl (hkept (mem_deleteLocks.mpr ⟨hmem, Bool.eq_false_iff.mpr hcond⟩))
  | @next runner pc db' pc' hpc hadv =>
    cases hadv with
    | @insert c hfree =>
      have hfree' : s.db.locks.get (c.lock runner).type = none := hfree
      exact .inl (hkept ((mem_add hfree' lock).mpr (.inl hmem)))
    | @takeOver c existing old hget hlt =>
      by_cases htype : lock.type = c.type
      · have hlock : s.db.locks.get c.type = some lock := htype ▸ get_of_mem hmem
        rw [hget] at hlock
        obtain rfl := some.inj hlock
        exact .inr (.taken hpc hget hlt)
      · have hget' : s.db.locks.get (c.lock runner).type = some old := hget
        exact .inl (hkept ((mem_put hget' lock).mpr (.inr ⟨hmem, htype⟩)))
    | mark | start | sweepMark => exact .inl (hkept (updateTask_locks s.db _ _ _ ▸ hmem))
    | @release c =>
      by_cases hcond : (decide (lock.taskID = c.taskID) && decide (lock.lockedBy = runner)) = true
      · simp only [Bool.and_eq_true, decide_eq_true_eq] at hcond
        exact .inr (.released hpc hcond.1)
      · exact .inl (hkept (mem_deleteLocks.mpr ⟨hmem, Bool.eq_false_iff.mpr hcond⟩))
    | @sweepDelete now l rest =>
      by_cases hcond : (decide (lock.type = l.type) && decide (lock.taskID = l.taskID) &&
          decide (lock.lockedBy = l.lockedBy) && decide (lock.lockedUntil < now)) = true
      · simp only [Bool.and_eq_true, decide_eq_true_eq] at hcond
        exact .inr (.swept hpc hcond.1.1.2 hcond.2)
      · exact .inl (hkept (mem_deleteLocks.mpr ⟨hmem, Bool.eq_false_iff.mpr hcond⟩))
    | idle | conflict | giveUp | expired | lost | swept => exact .inl (hkept hmem)
  | refused | tick | claim | sweeping => exact .inl (hkept hmem)

/-! ## Where a runner comes from -/

variable {r : Runner}

section
variable (h : Stepped s a s')
include h

theorem acquired_step {c : Claim} (hc : acquiredOf (s'.pc r) = some c) :
    (acquiredOf (s.pc r) = some c ∧ ∀ c', ¬ (a = .next r ∧ s.pc r = .start c')) ∨
      acquires s a = some (r, c) ∧ s'.db.tasks = s.db.tasks ∧ c.lock r ∈ s'.db.locks.rows := by
  cases moved_of_stepped h r with
  | stayed hpc ha => exact .inl ⟨hpc ▸ hc, fun _ h' => ha h'.1⟩
  | claim | sweeping =>
    rw [go_pc_self] at hc
    cases hc
  | next hpc hadv =>
    rw [go_pc_self] at hc
    cases hadv with
    | @insert c' hfree =>
      obtain rfl := some.inj hc
      have hfree' : s.db.locks.get (c'.lock r).type = none := hfree
      exact .inr ⟨by simp only [acquires, hpc, if_pos hfree], rfl, (mem_add hfree' _).mpr (.inr rfl)⟩
    | @takeOver c' existing old hget hlt =>
      have hc' : c' = c := by split at hc <;> exact some.inj hc
      subst hc'
      have hget' : s.db.locks.get (c'.lock r).type = some old := hget
      exact .inr ⟨by simp only [acquires, hpc, hget, if_pos hlt], rfl, (mem_put hget' _).mpr (.inl rfl)⟩
    | mark =>
      rw [hpc]
      exact .inl ⟨hc, fun _ h => by cases h.2⟩
    | start => split at hc <;> cases hc
    | idle | conflict | giveUp | expired | lost | release | swept | sweepMark | sweepDelete => cases hc

theorem release_step {c : Claim} (hc : releaseOf (s'.pc r) = some c) :
    releaseOf (s.pc r) = some c ∨ a = .next r ∧ s.pc r = .start c ∧
      (s.db.startTask c.now c.taskID c.type r).2 = false ∧ s'.db = (s.db.startTask c.now c.taskID c.type r).1 := by
  cases moved_of_stepped h r with
  | stayed hpc => exact .inl (hpc ▸ hc)
  | claim | sweeping =>
    rw [go_pc_self] at hc
    cases hc
  | next hpc hadv =>
    rw [go_pc_self] at hc
    cases hadv with
    | @start c' =>
      split at hc
      · cases hc
      · rename_i hfailed
        obtain rfl := some.inj hc
        exact .inr ⟨rfl, hpc, Bool.eq_false_iff.mpr hfailed, rfl⟩
    | takeOver => split at hc <;> cases hc
    | idle | insert | conflict | giveUp | expired | lost | mark | release | swept | sweepMark | sweepDelete => cases hc

theorem sweepTime_step {now : ℤ} (hnow : sweepTime (s'.pc r) = some now) : sweepTime (s.pc r) = some now ∨ now = s.now := by
  cases moved_of_stepped h r with
  | stayed hpc => exact .inl (hpc ▸ hnow)
  | claim =>
    rw [go_pc_self] at hnow
    cases hnow
  | sweeping =>
    rw [go_pc_self] at hnow
    exact .inr (some.inj hnow).symm
  | next hpc hadv =>
    rw [go_pc_self] at hnow
    left
    rw [hpc]
    cases hadv with
    | sweepMark | sweepDelete => exact hnow
    | takeOver => split at hnow <;> cases hnow
    | start => split at hnow <;> cases hnow
    | idle | insert | conflict | giveUp | expired | lost | mark | release | swept => cases hnow

theorem deletes_step {x : ℤ × SystemTaskLock Runner} (hx : deletes (s'.pc r) = some x) :
    deletes (s.pc r) = some x ∨ s'.db = s.db.markSystemTaskLeaseExpired s.now x.2.taskID := by
  cases moved_of_stepped h r with
  | stayed hpc => exact .inl (hpc ▸ hx)
  | claim | sweeping =>
    rw [go_pc_self] at hx
    cases hx
  | next hpc hadv =>
    rw [go_pc_self] at hx
    cases hadv with
    | sweepMark =>
      obtain rfl := some.inj hx
      exact .inr rfl
    | takeOver => split at hx <;> cases hx
    | start => split at hx <;> cases hx
    | idle | insert | conflict | giveUp | expired | lost | mark | release | swept | sweepDelete => cases hx

theorem finishing_step (hmem : (id, r) ∈ s'.finishing) : (id, r) ∈ s.finishing ∨ Ended s'.db id := by
  cases h with
  | @finish runner taskID outcome result error =>
    split at hmem
    · rename_i hdone
      obtain heq | hmem := List.mem_cons.mp hmem
      · obtain ⟨rfl, rfl⟩ := Prod.mk.inj heq
        right
        obtain hsame | ⟨t, hget, hcond, -⟩ := updateTask_cases s.db id (s.db.ownedBy s.now r)
          (SystemTask.finish s.now outcome result error)
        · rw [Store.finishSystemTask, hsame] at hdone
          cases hdone
        · have hkey : (t.finish s.now outcome result error).taskID = t.taskID := rfl
          refine ⟨t.finish s.now outcome result error, ?_, by cases outcome <;> rfl⟩
          exact (updateTask_get_self hget hkey).trans (by rw [if_pos hcond])
      · exact .inl hmem
    · exact .inl hmem
  | released => exact .inl (List.mem_of_mem_erase hmem)
  | refused | tick | create | claim | sweeping | next | update | renew => exact .inl hmem

end

end Steps

theorem mark_not_running (db : Store Runner) (now : ℤ) (id : String) :
    (db.markSystemTaskLeaseExpired now id).isRunning id ≠ true := by
  intro hrun
  obtain ⟨x, hx, hstatus⟩ := isRunning_iff.mp hrun
  obtain hx' | ⟨t, -, -, -, rfl⟩ := updateTask_get hx fun t _ => tame_expire t
  · -- the row is as it was, but then it was running and the statement would have changed it
    have hkey : (x.expire now).taskID = x.taskID := rfl
    have hself : (db.markSystemTaskLeaseExpired now id).tasks.get id = _ := updateTask_get_self hx' hkey
    rw [hx, if_pos (decide_eq_true hstatus)] at hself
    rw [some.inj hself] at hstatus
    cases hstatus
  · cases hstatus

/-! ## The invariant -/

/-- A claim with the lock and in time: nobody else started its task, and while that is pending the lock is its own. -/
def Holds (db : Store Runner) (r : Runner) (c : Claim) : Prop :=
  db.isRunning c.taskID ≠ true ∧ (IsPending db c.taskID →
    ∃ lock ∈ db.locks.rows, lock.taskID = c.taskID ∧ lock.lockedBy = r ∧ c.lockUntil ≤ lock.lockedUntil)

structure LockedInv (s : State Runner) : Prop extends Inv s where
  locked : ∀ {id}, s.db.isRunning id = true → ∃ lock ∈ s.db.locks.rows, lock.taskID = id
  since : ∀ {r c}, claimOf (s.pc r) = some c → s.db.isRunning c.taskID = true →
    ∃ lock ∈ s.db.locks.rows, lock.taskID = c.taskID ∧ c.now ≤ lock.lockedUntil
  acquired : ∀ {r c}, acquiredOf (s.pc r) = some c → s.now ≤ c.lockUntil → Holds s.db r c
  releasing : ∀ {r c}, releaseOf (s.pc r) = some c → Ended s.db c.taskID
  finished : ∀ {id r}, (id, r) ∈ s.finishing → Ended s.db id
  sweeping : ∀ {r now}, sweepTime (s.pc r) = some now → now ≤ s.now
  deleting : ∀ {r x}, deletes (s.pc r) = some x → s.db.isRunning x.2.taskID = true →
    ∀ {lock}, lock ∈ s.db.locks.rows → lock.taskID = x.2.taskID → x.1 ≤ lock.lockedUntil

variable {s : State Runner} {lock : SystemTaskLock Runner}

theorem not_lost_of_running (hinv : LockedInv s)
    (hmem : lock ∈ s.db.locks.rows) (hrun : s.db.isRunning lock.taskID = true) : ¬ Lost s lock := by
  rintro (⟨hpc, hid⟩ | hfin | ⟨hpc, hid, hlt⟩ | ⟨hpc, hget, hlt⟩)
  · exact not_ended_of_running hrun (hid ▸ hinv.releasing (by rw [hpc]; rfl))
  · exact not_ended_of_running hrun (hinv.finished hfin)
  · exact absurd hlt (not_lt.mpr (hinv.deleting (by rw [hpc]; rfl) (hid ▸ hrun) hmem hid))
  · rename_i r c existing
    have hc : claimOf (s.pc r) = some c := by rw [hpc]; rfl
    by_cases hid : lock.taskID = c.taskID
    · obtain ⟨lock', hmem', hid', hlive⟩ := hinv.since hc (hid ▸ hrun)
      rw [lock_unique hinv.toInv hmem' hmem (hid'.trans hid.symm)] at hlive
      exact absurd hlt (not_lt.mpr hlive)
    · exact not_ended_of_running hrun (ended_of_expired hinv.toInv hc hget hlt hid)

theorem not_lost_of_live (hinv : LockedInv s)
    (hpending : IsPending s.db lock.taskID) (hlive : s.now ≤ lock.lockedUntil) : ¬ Lost s lock := by
  rintro (⟨hpc, hid⟩ | hfin | ⟨hpc, -, hlt⟩ | ⟨hpc, -, hlt⟩)
  · exact not_ended_of_pending hpending (hid ▸ hinv.releasing (by rw [hpc]; rfl))
  · exact not_ended_of_pending hpending (hinv.finished hfin)
  · have hpast := hinv.sweeping (by rw [hpc]; rfl)
    omega
  · have hpast := (hinv.claims (by rw [hpc]; rfl)).past
    omega

theorem lockedInv_start : LockedInv (start : State Runner) where
  toInv := inv_start
  locked h := by cases h
  since h := by cases h
  acquired h := by cases h
  releasing h := by cases h
  finished h := by cases h
  sweeping h := by cases h
  deleting h := by cases h

def starts (s : State Runner) : Action Runner → Option Claim
  | .next runner => startOf (s.pc runner)
  | _ => none

/-- A claim tries to set its task running before its own lease ends. -/
def InTime (s : State Runner) (a : Action Runner) : Prop := ∀ c ∈ starts s a, s.now ≤ c.lockUntil

instance (s : State Runner) (a : Action Runner) : Decidable (InTime s a) :=
  inferInstanceAs (Decidable (∀ c ∈ starts s a, s.now ≤ c.lockUntil))

theorem started_lock {a : Action Runner} (hinv : LockedInv s) (hok : InTime s a) {r : Runner} {c : Claim} (ha : a = .next r)
    (hpc : s.pc r = .start c) (hpending : IsPending s.db c.taskID) :
    ∃ lock ∈ s.db.locks.rows, lock.taskID = c.taskID ∧ lock.lockedBy = r ∧ s.now ≤ lock.lockedUntil := by
  have htime : s.now ≤ c.lockUntil := hok c (by rw [ha]; simp only [starts, hpc, startOf]; rfl)
  obtain ⟨lock, hmem, hid, hby, huntil⟩ := (hinv.acquired (by rw [hpc]; rfl) htime).2 hpending
  exact ⟨lock, hmem, hid, hby, htime.trans huntil⟩

theorem kept_bound {s' : State Runner} (h : Kept s s' lock) {bound : ℤ}
    (hlock : bound ≤ lock.lockedUntil) (hnow : bound ≤ s.now) :
    ∃ lock' ∈ s'.db.locks.rows, lock'.taskID = lock.taskID ∧ lock'.lockedBy = lock.lockedBy ∧ bound ≤ lock'.lockedUntil := by
  obtain ⟨lock', hmem, hid, hby, huntil⟩ := h
  refine ⟨lock', hmem, hid, hby, ?_⟩
  unfold systemTaskLockTTL at huntil
  omega

section Runs
variable [DecidableEq Runner]

theorem acquires_not_running (hinv : LockedInv s) {a : Action Runner} {r : Runner} {c : Claim}
    (h : acquires s a = some (r, c)) : s.db.isRunning c.taskID ≠ true := by
  intro hrun
  have hc := acquires_claim h
  obtain ⟨lock, hmem, hid, hlive⟩ := hinv.since hc hrun
  obtain ⟨t, hget, htype, -⟩ := hinv.locks hmem
  obtain ⟨t', hget', htype', -⟩ := (hinv.claims hc).task
  rw [hid, hget'] at hget
  obtain rfl := some.inj hget
  have hlock : s.db.locks.get c.type = some lock := (htype'.symm.trans htype) ▸ get_of_mem hmem
  cases a with
  | next runner =>
    simp only [acquires] at h
    split at h
    · split at h
      · rename_i hfree
        cases h
        rw [hlock] at hfree
        cases hfree
      · cases h
    · split at h
      · cases h
      · rename_i hsome
        split at h
        · cases h
          rw [hlock] at hsome
          obtain rfl := some.inj hsome
          omega
        · cases h
    · cases h
  | tick | create | claim | expireStale | update | renew | finish | releaseFinished => cases h

/-! ## One step -/

section Step
variable {s s' : State Runner} {a : Action Runner}

theorem kept_of_running (h : Stepped s a s') (hinv : LockedInv s)
    (hmem : lock ∈ s.db.locks.rows) (hrun : s.db.isRunning lock.taskID = true) : Kept s s' lock :=
  (kept_or_lost h hmem).resolve_right (not_lost_of_running hinv hmem hrun)

theorem kept_of_live (h : Stepped s a s') (hinv : LockedInv s)
    (hmem : lock ∈ s.db.locks.rows) (hpending : IsPending s.db lock.taskID) (hlive : s.now ≤ lock.lockedUntil) :
    Kept s s' lock :=
  (kept_or_lost h hmem).resolve_right (not_lost_of_live hinv hpending hlive)

theorem running_lock (h : Stepped s a s') (hinv : LockedInv s) (hok : InTime s a)
    (hrun : s'.db.isRunning id = true) {bound : ℤ} (hbound : bound ≤ s.now)
    (hold : s.db.isRunning id = true → ∃ lock ∈ s.db.locks.rows, lock.taskID = id ∧ bound ≤ lock.lockedUntil) :
    ∃ lock ∈ s'.db.locks.rows, lock.taskID = id ∧ bound ≤ lock.lockedUntil := by
  obtain hrun | ⟨r, c, ha, hpc, rfl, hpending⟩ := running_step h hrun
  · obtain ⟨lock, hmem, rfl, huntil⟩ := hold hrun
    obtain ⟨lock', hmem', hid', -, huntil'⟩ := kept_bound (kept_of_running h hinv hmem hrun) huntil hbound
    exact ⟨lock', hmem', hid', huntil'⟩
  · obtain ⟨lock, hmem, hid, -, hlive⟩ := started_lock hinv hok ha hpc hpending
    have hkept := kept_of_live h hinv hmem (hid.symm ▸ hpending) hlive
    obtain ⟨lock', hmem', hid', -, huntil'⟩ := kept_bound hkept hlive le_rfl
    exact ⟨lock', hmem', hid'.trans hid, hbound.trans huntil'⟩

theorem locked_step (h : Stepped s a s') (hinv : LockedInv s) (hok : InTime s a)
    (hrun : s'.db.isRunning id = true) : ∃ lock ∈ s'.db.locks.rows, lock.taskID = id := by
  obtain hrun | ⟨r, c, ha, hpc, rfl, hpending⟩ := running_step h hrun
  · obtain ⟨lock, hmem, rfl⟩ := hinv.locked hrun
    obtain ⟨lock', hmem', hid', -⟩ := kept_of_running h hinv hmem hrun
    exact ⟨lock', hmem', hid'⟩
  · obtain ⟨lock, hmem, hid, -, hlive⟩ := started_lock hinv hok ha hpc hpending
    obtain ⟨lock', hmem', hid', -⟩ := kept_of_live h hinv hmem (hid.symm ▸ hpending) hlive
    exact ⟨lock', hmem', hid'.trans hid⟩

variable {r : Runner} {c : Claim}

theorem since_step (h : Stepped s a s') (hinv : LockedInv s) (hok : InTime s a)
    (hc : claimOf (s'.pc r) = some c) (hrun : s'.db.isRunning c.taskID = true) :
    ∃ lock ∈ s'.db.locks.rows, lock.taskID = c.taskID ∧ c.now ≤ lock.lockedUntil := by
  obtain hold | ⟨hdb, -, -, -, t, hget, -, hstatus⟩ := claim_step h hc
  · exact running_lock h hinv hok hrun (hinv.claims hold).past (hinv.since hold)
  · -- a claim begins with a pending task
    rw [hdb] at hrun
    exact absurd hrun (not_running_of_pending ⟨t, hget, hstatus⟩)

theorem acquired_keeps (h : Stepped s a s') (hinv : LockedInv s) (hok : InTime s a)
    (hc : acquiredOf (s'.pc r) = some c) (htime : s'.now ≤ c.lockUntil) : Holds s'.db r c := by
  obtain ⟨hold, hnot⟩ | ⟨hacq, htasks, hlock⟩ := acquired_step h hc
  · have hnow : s.now ≤ c.lockUntil := (step_now h).trans htime
    obtain ⟨hidle, hown⟩ := hinv.acquired hold hnow
    have hclaim : claimOf (s.pc r) = some c := by
      generalize s.pc r = pc at hold
      cases pc <;> first | exact hold | cases hold
    refine ⟨fun hrun => ?_, fun hpending => ?_⟩
    · obtain hrun | ⟨r', c', ha, hpc, hid, hpending⟩ := running_step h hrun
      · exact hidle hrun
      · -- two claims of one pending task, both in time, would both own its lock
        obtain ⟨lock, hmem, hlid, hby, -⟩ := hown hpending
        obtain ⟨lock', hmem', hlid', hby', -⟩ := started_lock hinv hok ha hpc (hid.symm ▸ hpending)
        rw [lock_unique hinv.toInv hmem hmem' (hlid.trans (hid.symm.trans hlid'.symm))] at hby
        obtain rfl : r' = r := hby'.symm.trans hby
        exact hnot c' ⟨ha, hpc⟩
    · obtain hpending | hnone := pending_step h hpending
      · obtain ⟨lock, hmem, hid, hby, huntil⟩ := hown hpending
        obtain ⟨lock', hmem', hid', hby', huntil'⟩ :=
          kept_of_live h hinv hmem (hid.symm ▸ hpending) (hnow.trans huntil)
        have hpast := (hinv.claims hclaim).past
        have hlease := (hinv.claims hclaim).lease
        refine ⟨lock', hmem', hid'.trans hid, hby'.trans hby, ?_⟩
        omega
      · obtain ⟨t, hget, -⟩ := (hinv.claims hclaim).task
        rw [hnone] at hget
        cases hget
  · refine ⟨fun hrun => acquires_not_running hinv hacq ?_, fun _ => ⟨c.lock r, hlock, rfl, rfl, le_rfl⟩⟩
    unfold Store.isRunning at hrun ⊢
    rwa [htasks] at hrun

theorem releasing_step (h : Stepped s a s') (hinv : LockedInv s) (hok : InTime s a)
    (hc : releaseOf (s'.pc r) = some c) : Ended s'.db c.taskID := by
  obtain ⟨hlater, -⟩ := step_tasks h hinv.tasks
  obtain hold | ⟨ha, hpc, hfailed, -⟩ := release_step h hc
  · exact ended_later hlater (hinv.releasing hold)
  · have htime : s.now ≤ c.lockUntil := hok c (by rw [ha]; simp only [starts, hpc, startOf]; rfl)
    have hidle := (hinv.acquired (by rw [hpc]; rfl) htime).1
    obtain ⟨t, hget, htype, -⟩ := (hinv.claims (by rw [hpc]; rfl)).task
    refine ended_later hlater ⟨t, hget, ?_⟩
    cases hstatus : t.status with
    | pending =>
      -- then the statement would have found its row
      simp [Store.startTask, Store.updateTask, hget, htype, hstatus] at hfailed
    | running => exact absurd (isRunning_iff.mpr ⟨t, hget, hstatus⟩) hidle
    | succeeded | failed => rfl

theorem deleting_step (h : Stepped s a s') (hinv : LockedInv s) (hok : InTime s a)
    {x : ℤ × SystemTaskLock Runner} (hx : deletes (s'.pc r) = some x) (hrun : s'.db.isRunning x.2.taskID = true)
    {lock : SystemTaskLock Runner} (hmem : lock ∈ s'.db.locks.rows) (hid : lock.taskID = x.2.taskID) :
    x.1 ≤ lock.lockedUntil := by
  obtain hold | hdb := deletes_step h hx
  · have htime : sweepTime (s.pc r) = some x.1 := by
      generalize s.pc r = pc at hold
      cases pc <;> cases hold
      rfl
    obtain ⟨lock', hmem', hid', huntil'⟩ := running_lock h hinv hok hrun (hinv.sweeping htime) fun hrun => by
      obtain ⟨l, hl, hlid⟩ := hinv.locked hrun
      exact ⟨l, hl, hlid, hinv.deleting hold hrun hl hlid⟩
    rwa [lock_unique (inv_step h hinv.toInv) hmem hmem' (hid.trans hid'.symm)]
  · rw [hdb] at hrun
    exact absurd hrun (mark_not_running _ _ _)

end Step

theorem lockedInv_step (a : Action Runner) (hinv : LockedInv s) (hok : InTime s a) : LockedInv (step s a) := by
  have h := step_stepped s a
  obtain ⟨hlater, -⟩ := step_tasks h hinv.tasks
  refine ⟨inv_step h hinv.toInv, locked_step h hinv hok, since_step h hinv hok, acquired_keeps h hinv hok,
    releasing_step h hinv hok, fun hfin => ?_, fun hnow => ?_, deleting_step h hinv hok⟩
  · exact (finishing_step h hfin).elim (fun hold => ended_later hlater (hinv.finished hold)) fun hnew => hnew
  · obtain hold | rfl := sweepTime_step h hnow
    · exact (hinv.sweeping hold).trans (step_now h)
    · exact step_now h

/-- If claims set their tasks running before their own leases end, each running task has a lock row. -/
theorem running_locked_of_inTime (as : List (Action Runner)) (h : Along step InTime (start : State Runner) as) :
    ∀ t ∈ (run step start as).db.tasks.rows, t.status = .running →
      ∃ lock ∈ (run step start as).db.locks.rows, lock.taskID = t.taskID := by
  intro t ht hstatus
  have hinv : LockedInv (run step start as) := run_invariant (fun _ a hs hok => lockedInv_step a hs hok) lockedInv_start h
  exact hinv.locked (isRunning_iff.mpr ⟨t, get_of_mem ht, hstatus⟩)

end Runs

/-- A runner stalls between lock and start beyond its lease; a sweep finds the task pending, ends nothing and deletes the
lock. -/
theorem stalled_claim_orphaned :
    let s := run step (start : State (Fin 2)) [.create "t" "log_cleanup" "" "", .claim 0 "t" "log_cleanup", .next 0,
      .tick 61, .expireStale 1, .next 1, .next 1, .next 1, .next 0]
    (∃ t ∈ s.db.tasks.rows, t.taskID = "t" ∧ t.status = .running) ∧ s.db.locks.rows = [] := by
  decide +kernel

theorem running_locked_expired :
    ∃ lock ∈ (run step (start : State (Fin 2)) [.create "t" "log_cleanup" "" "", .claim 0 "t" "log_cleanup", .next 0,
      .tick 60, .next 0, .tick 60]).db.locks.rows, lock.taskID = "t" := by
  refine running_locked_of_inTime _ (by decide +kernel)
    ⟨"t", "log_cleanup", .running, some "log_cleanup", "", "", "", "", some 0, 0, 0⟩ ?_ rfl
  decide +kernel

end HotAI.SystemTasks
