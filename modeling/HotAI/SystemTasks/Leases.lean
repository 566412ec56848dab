import HotAI.SystemTasks.Statements

/-! # Who may end a running task -/
namespace HotAI.SystemTasks
open HotAI.Lib Option Table

variable {Runner : Type}

/-! ## The invariant of every run -/

structure ClaimOk (now : ℤ) (db : Store Runner) (c : Claim) : Prop where
  task : ∃ t, db.tasks.get c.taskID = some t ∧ t.type = c.type ∧ t.createdAt ≤ c.now
  past : c.now ≤ now
  lease : c.lockUntil = c.now + systemTaskLockTTL
  /-- Its task was the active one of the type when it was read: any other active task is newer. -/
  alone : ∀ {id t}, db.tasks.get id = some t → t.type = c.type → t.createdAt < c.now → t.status.active → id = c.taskID

def Ended (db : Store Runner) (id : String) : Prop := ∃ t, db.tasks.get id = some t ∧ t.status.active = false

def LockOk (db : Store Runner) (lock : SystemTaskLock Runner) : Prop :=
  ∃ t, db.tasks.get lock.taskID = some t ∧ t.type = lock.type ∧ t.createdAt ≤ lock.lockedUntil

structure Inv (s : State Runner) : Prop where
  tasks : TasksOk s.now s.db
  locks : ∀ {lock}, lock ∈ s.db.locks.rows → LockOk s.db lock
  claims : ∀ {r c}, claimOf (s.pc r) = some c → ClaimOk s.now s.db c
  found : ∀ {r id}, foundOf (s.pc r) = some id → Ended s.db id

variable {now : ℤ} {db : Store Runner} {c : Claim} {id : String} {lock : SystemTaskLock Runner} {s : State Runner}
    {db' : Store Runner} {lock' : SystemTaskLock Runner} {id' : String}

theorem claimOk_later {now' : ℤ} (hlater : Later now db db') (hnow : now ≤ now')
    (hok : ClaimOk now db c) : ClaimOk now' db' c where
  task := by
    obtain ⟨t, hget, htype, hcreated⟩ := hok.task
    obtain ⟨t', hget', htype', hcreated', -⟩ := hlater.kept hget
    exact ⟨t', hget', htype'.trans htype, hcreated'.trans_le hcreated⟩
  past := hok.past.trans hnow
  lease := hok.lease
  alone {id t'} hget' htype hlt hactive := by
    cases hget : db.tasks.get id with
    | none =>
      have hcreated := hlater.fresh hget' hget
      have hpast := hok.past
      omega
    | some t =>
      obtain ⟨t'', hget'', htype'', hcreated'', hactive''⟩ := hlater.kept hget
      rw [hget'] at hget''
      obtain rfl := some.inj hget''
      exact hok.alone hget (htype''.symm.trans htype) (hcreated''.symm.trans_lt hlt) (hactive'' hactive)

theorem ended_later (hlater : Later now db db') (h : Ended db id) : Ended db' id := by
  obtain ⟨t, hget, hended⟩ := h
  obtain ⟨t', hget', -, -, hactive⟩ := hlater.kept hget
  refine ⟨t', hget', ?_⟩
  cases h' : t'.status.active with
  | false => rfl
  | true => exact absurd (hactive h') (by rw [hended]; exact Bool.false_ne_true)

theorem lockOk_later (hlater : Later now db db')
    (hid : lock'.taskID = lock.taskID) (htype : lock'.type = lock.type) (huntil : lock.lockedUntil ≤ lock'.lockedUntil)
    (h : LockOk db lock) : LockOk db' lock' := by
  obtain ⟨t, hget, ht, hcreated⟩ := h
  obtain ⟨t', hget', ht', hcreated', -⟩ := hlater.kept hget
  refine ⟨t', hid ▸ hget', (ht'.trans ht).trans htype.symm, ?_⟩
  omega

theorem lock_unique (hinv : Inv s)
    (h : lock ∈ s.db.locks.rows) (h' : lock' ∈ s.db.locks.rows) (hid : lock.taskID = lock'.taskID) : lock = lock' := by
  obtain ⟨t, hget, htype, -⟩ := hinv.locks h
  obtain ⟨t', hget', htype', -⟩ := hinv.locks h'
  rw [hid, hget'] at hget
  obtain rfl := some.inj hget
  exact eq_of_key h h' (htype.symm.trans htype')

theorem acquires_claim [DecidableEq Runner] {a : Action Runner} {r : Runner}
    (h : acquires s a = some (r, c)) : claimOf (s.pc r) = some c := by
  cases a with
  | next runner =>
    simp only [acquires] at h
    split at h
    · rename_i hpc
      split at h <;> cases h
      rw [hpc]
      rfl
    · rename_i hpc
      split at h
      · cases h
      · split at h <;> cases h
        rw [hpc]
        rfl
    · cases h
  | tick | create | claim | expireStale | update | renew | finish | releaseFinished => cases h

theorem lockOk_claim (hok : ClaimOk now db c) (runner : Runner) : LockOk db (c.lock runner) := by
  obtain ⟨t, hget, htype, hcreated⟩ := hok.task
  refine ⟨t, hget, htype, ?_⟩
  have hlease := hok.lease
  change t.createdAt ≤ c.lockUntil
  unfold systemTaskLockTTL at hlease
  omega

theorem ended_of_expired (hinv : Inv s) {r : Runner}
    (hc : claimOf (s.pc r) = some c) (hget : s.db.locks.get c.type = some lock) (hlt : lock.lockedUntil < c.now)
    (hne : lock.taskID ≠ c.taskID) : Ended s.db lock.taskID := by
  obtain ⟨hmem, hkey⟩ := (get_eq_some_iff _ _ _).mp hget
  obtain ⟨t, htask, htype, hcreated⟩ := hinv.locks hmem
  refine ⟨t, htask, ?_⟩
  cases hactive : t.status.active with
  | false => rfl
  | true => exact absurd ((hinv.claims hc).alone htask (htype.trans hkey) (hcreated.trans_lt hlt) hactive) hne

theorem inv_start : Inv (start : State Runner) where
  tasks := ⟨fun h => (by cases h), fun h => (by cases h), fun h => (by cases h)⟩
  locks h := by cases h
  claims h := by cases h
  found h := by cases h

def Store.isRunning (db : Store Runner) (id : String) : Bool := (db.tasks.get id).any fun t => t.status = .running

theorem isRunning_iff : db.isRunning id = true ↔ ∃ t, db.tasks.get id = some t ∧ t.status = .running := by
  unfold Store.isRunning
  cases h : db.tasks.get id <;> simp

/-- An `UPDATE system_tasks` ends the running state of the row it selects only, and only if it sets another status. -/
theorem updateTask_running {cond : SystemTask Runner → Bool}
    {set : SystemTask Runner → SystemTask Runner} (hrun : db.isRunning id = true)
    (hend : (db.updateTask id' cond set).1.isRunning id ≠ true) (hkey : ∀ t, (set t).taskID = t.taskID) :
    ∃ t, id' = id ∧ db.tasks.get id = some t ∧ cond t = true ∧ (set t).status ≠ .running := by
  obtain h | ⟨t, hget, hcond, h⟩ := updateTask_cases db id' cond set <;> rw [h] at hend
  · exact absurd hrun hend
  have hset : (set t).taskID = id' := (hkey t).trans (key_of_get hget)
  by_cases hid : id = id'
  · subst hid
    by_cases hstatus : (set t).status = .running
    · have hold : db.tasks.get (set t).taskID = some t := hset.symm ▸ hget
      have hself := get_put_self hold
      rw [hset] at hself
      exact absurd (isRunning_iff.mpr ⟨set t, hself, hstatus⟩) hend
    · exact ⟨t, rfl, hget, hcond, hstatus⟩
  · obtain ⟨x, hx, hstatus⟩ := isRunning_iff.mp hrun
    exact absurd (isRunning_iff.mpr ⟨x, (get_put_of_ne (hset.symm ▸ hid)).trans hx, hstatus⟩) hend

theorem mark_running (hrun : db.isRunning id = true)
    (hend : (db.markSystemTaskLeaseExpired now id').isRunning id ≠ true) : id' = id := by
  obtain ⟨-, hid, -⟩ := updateTask_running hrun hend fun _ => rfl
  exact hid

theorem createTask_running {taskID type payload state : String}
    (hrun : db.isRunning id = true) : (db.createTask now taskID type payload state).isRunning id = true := by
  obtain ⟨t, hget, hstatus⟩ := isRunning_iff.mp hrun
  unfold Store.createTask
  split
  · exact hrun
  · exact isRunning_iff.mpr ⟨t, get_add_of_get hget, hstatus⟩

structure SweepInv (s : State Runner) : Prop extends Inv s where
  stale : ∀ {r lock}, lock ∈ toMark (s.pc r) → ∀ {l}, l ∈ s.db.locks.rows → l.taskID = lock.taskID → l.lockedUntil < s.now

theorem sweepInv_start : SweepInv (start : State Runner) := ⟨inv_start, fun h => by cases h⟩

/-- What a runner at a place that declares leases expired can still meet: a task that ended, or no live lock. -/
theorem marks_stale (hinv : SweepInv s) {r : Runner} (h : marks (s.pc r) = some id)
    (hrun : s.db.isRunning id = true) (hmem : lock ∈ s.db.locks.rows)
    (hid : lock.taskID = id) : lock.lockedUntil < s.now := by
  cases hpc : s.pc r with
  | mark c expired =>
    -- the claim's own mark never meets a running task
    rw [hpc] at h
    obtain rfl := some.inj h
    have hfound : foundOf (s.pc r) = some expired := by rw [hpc]; rfl
    obtain ⟨t, hget, hended⟩ := hinv.found hfound
    obtain ⟨t', hget', hstatus⟩ := isRunning_iff.mp hrun
    rw [hget] at hget'
    obtain rfl := some.inj hget'
    rw [hstatus] at hended
    cases hended
  | sweep now locks =>
    rw [hpc] at h
    cases locks with
    | nil => cases h
    | cons l rest =>
      obtain rfl := some.inj h
      have hmark : l ∈ toMark (s.pc r) := by rw [hpc]; exact List.mem_cons_self
      exact hinv.stale hmark hmem hid
  | idle | acquire | look | takeOver | start | release | sweepDelete => rw [hpc] at h; cases h

section Runs
variable [DecidableEq Runner] {s : State Runner} {a : Action Runner} {s' : State Runner} {runner : Runner}

theorem inv_step (h : Stepped s a s') (hinv : Inv s) : Inv s' := by
  obtain ⟨hlater, htasks⟩ := step_tasks h hinv.tasks
  refine ⟨htasks, fun {lock} hmem => ?_, fun {r c} hc => ?_, fun {r id} hid => ?_⟩
  · obtain hold | ⟨old, hold, -, rfl⟩ | ⟨r, c, hacq, rfl⟩ := lock_step h hmem
    · exact lockOk_later hlater rfl rfl le_rfl (hinv.locks hold)
    · -- a renewed lease does not end before the time of the renewal, so not before the task was created
      obtain ⟨t, hget, htype, -⟩ := hinv.locks hold
      have hcreated := hinv.tasks.created hget
      obtain ⟨t', hget', htype', hcreated', -⟩ := hlater.kept hget
      refine ⟨t', hget', htype'.trans htype, ?_⟩
      change t'.createdAt ≤ s.now + systemTaskLockTTL
      unfold systemTaskLockTTL
      omega
    · exact lockOk_later hlater rfl rfl le_rfl (lockOk_claim (hinv.claims (acquires_claim hacq)) r)
  · obtain hold | ⟨hdb, hnow, hcnow, hlease, t, hget, htype, hstatus⟩ := claim_step h hc
    · exact claimOk_later hlater (step_now h) (hinv.claims hold)
    · have hactive : t.status.active := by rw [hstatus]; rfl
      rw [hdb, hnow]
      exact {
        task := ⟨t, hget, htype, hcnow ▸ hinv.tasks.created hget⟩
        past := hcnow.le
        lease := by rw [hlease, hcnow]
        alone := fun hget' htype' _ hactive' =>
          hinv.tasks.one hget' hget hactive' hactive (htype'.trans htype.symm) }
  · obtain hold | ⟨-, c, lock, hc, hget, hlt, rfl, hne⟩ := found_step h hid
    · exact ended_later hlater (hinv.found hold)
    · exact ended_later hlater (ended_of_expired hinv hc hget hlt hne)

/-! ## Sweeps -/

/-- No claim acquires the lock of a task that a sweep has read as expired and not yet marked. -/
def Unswept (s : State Runner) (a : Action Runner) : Prop :=
  ∀ x ∈ acquires s a, ∀ r, ∀ lock ∈ toMark (s.pc r), lock.taskID ≠ x.2.taskID

instance [Fintype Runner] (s : State Runner) (a : Action Runner) : Decidable (Unswept s a) :=
  inferInstanceAs (Decidable (∀ x ∈ acquires s a, ∀ r, ∀ lock ∈ toMark (s.pc r), lock.taskID ≠ x.2.taskID))

theorem sweepInv_step (a : Action Runner) (hinv : SweepInv s) (hok : Unswept s a) : SweepInv (step s a) := by
  have h := step_stepped s a
  refine ⟨inv_step h hinv.toInv, fun {r lock} hmark {l} hl hid => ?_⟩
  obtain hmark | ⟨hdb, hnow, hlock, hlt⟩ := toMark_step h hmark
  · obtain hold | ⟨old, hold, hlive, rfl⟩ | ⟨runner, c, hacq, rfl⟩ := lock_step h hl
    · exact (hinv.stale hmark hold hid).trans_le (step_now h)
    · -- only a live lock is renewed
      exact absurd (hinv.stale hmark hold hid) (not_lt.mpr hlive)
    · exact absurd hid.symm (hok (runner, c) hacq r lock hmark)
  · rw [hdb] at hl
    rw [hnow, lock_unique hinv.toInv hl hlock hid]
    exact hlt

/-! ## Ends and writes -/

/-- The runner and task of a successful `UpdateSystemTaskState` or `FinishSystemTask`. -/
def succeeds (s : State Runner) : Action Runner → Option (Runner × String)
  | .update runner taskID state =>
      if (s.db.updateSystemTaskState s.now taskID runner state).2 then some (runner, taskID) else none
  | .finish runner taskID outcome result error =>
      if (s.db.finishSystemTask s.now taskID runner outcome result error).2 then some (runner, taskID) else none
  | _ => none

theorem ownedBy_holds {t : SystemTask Runner}
    (h : db.ownedBy now runner t = true) : db.holdsLock now t.taskID runner = true := by
  simp only [Store.ownedBy, Bool.and_eq_true] at h
  exact h.2

variable {id : String} {r : Runner}

theorem advance_running {pc pc' : Pc Runner} (h : Advance s runner pc db' pc') (hrun : s.db.isRunning id = true)
    (hend : db'.isRunning id ≠ true) : marks pc = some id := by
  cases h with
  | mark => exact congrArg some (mark_running hrun hend)
  | sweepMark => exact congrArg some (mark_running hrun hend)
  | @start c =>
    obtain ⟨t, -, -, -, hstatus⟩ := updateTask_running hrun hend fun _ => rfl
    exact absurd rfl hstatus
  | idle | insert | conflict | giveUp | expired | lost | takeOver | release | swept | sweepDelete =>
    exact absurd hrun hend

theorem leaves_running (h : Stepped s a s') (hrun : s.db.isRunning id = true) (hend : s'.db.isRunning id ≠ true) :
    (∃ r outcome result error, a = .finish r id outcome result error ∧ s.db.holdsLock s.now id r = true) ∨
      ∃ r, a = .next r ∧ marks (s.pc r) = some id := by
  cases h with
  | create => exact absurd (createTask_running hrun) hend
  | next hpc hadv => exact .inr ⟨_, rfl, hpc ▸ advance_running hadv hrun hend⟩
  | @update runner taskID state =>
    obtain ⟨t, rfl, -, hcond, hstatus⟩ := updateTask_running hrun hend fun _ => rfl
    simp only [Store.ownedBy, Bool.and_eq_true, decide_eq_true_eq] at hcond
    exact absurd hcond.1.1 hstatus
  | @finish runner taskID outcome result error =>
    obtain ⟨t, rfl, hget, hcond, -⟩ := updateTask_running hrun hend fun _ => rfl
    exact .inl ⟨runner, outcome, result, error, rfl, key_of_get hget ▸ ownedBy_holds hcond⟩
  | refused | tick | claim | sweeping | renew | released => exact absurd hrun hend

theorem holdsLock_iff : db.holdsLock now id r = true ↔
      ∃ lock ∈ db.locks.rows, lock.taskID = id ∧ lock.lockedBy = r ∧ now ≤ lock.lockedUntil := by
  simp [Store.holdsLock, and_assoc]

theorem holder_unique (hinv : Inv s) {r' : Runner}
    (h : s.db.holdsLock s.now id r = true) (h' : s.db.holdsLock s.now id r' = true) : r' = r := by
  obtain ⟨lock, hmem, hid, rfl, -⟩ := holdsLock_iff.mp h
  obtain ⟨lock', hmem', hid', rfl, -⟩ := holdsLock_iff.mp h'
  rw [lock_unique hinv hmem hmem' (hid.trans hid'.symm)]

theorem updateTask_succeeds
    {set : SystemTask Runner → SystemTask Runner} (h : (db.updateTask id (db.ownedBy now r) set).2 = true) :
    db.holdsLock now id r = true := by
  obtain heq | ⟨t, hget, hcond, -⟩ := updateTask_cases db id (db.ownedBy now r) set
  · rw [heq] at h
    cases h
  · exact key_of_get hget ▸ ownedBy_holds hcond

theorem succeeds_holds (h : succeeds s a = some (r, id)) : s.db.holdsLock s.now id r = true := by
  cases a with
  | update runner taskID state =>
    simp only [succeeds] at h
    split at h
    · rename_i hok
      cases h
      exact updateTask_succeeds hok
    · cases h
  | finish runner taskID outcome result error =>
    simp only [succeeds] at h
    split at h
    · rename_i hok
      cases h
      exact updateTask_succeeds hok
    · cases h
  | tick | create | claim | expireStale | next | renew | releaseFinished => cases h

structure LeaseKept (s : State Runner) (a : Action Runner) : Prop where
  oneActive : ∀ t ∈ s.db.tasks.rows, ∀ t' ∈ s.db.tasks.rows, t.status.active → t'.status.active →
    t.type = t'.type → t = t'
  ends : ∀ id, s.db.isRunning id = true → (step s a).db.isRunning id ≠ true →
    (∃ r outcome result error, a = .finish r id outcome result error ∧ s.db.holdsLock s.now id r = true) ∨
      (∃ r, a = .next r ∧ marks (s.pc r) = some id) ∧
        ∀ lock ∈ s.db.locks.rows, lock.taskID = id → lock.lockedUntil < s.now
  writes : ∀ r id, succeeds s a = some (r, id) → s.db.holdsLock s.now id r = true ∧
    ∀ r', s.db.holdsLock s.now id r' = true → r' = r

theorem leaseKept_of_sweepInv (hinv : SweepInv s) (a : Action Runner) : LeaseKept s a where
  oneActive t ht t' ht' hactive hactive' htype :=
    eq_of_key ht ht'
      (hinv.tasks.one (get_of_mem ht) (get_of_mem ht') hactive hactive' htype)
  ends id hrun hend := by
    obtain hfinish | ⟨r, ha, hmarks⟩ := leaves_running (step_stepped s a) hrun hend
    · exact .inl hfinish
    · exact .inr ⟨⟨r, ha, hmarks⟩, fun lock hmem hid => marks_stale hinv hmarks hrun hmem hid⟩
  writes r id h := ⟨succeeds_holds h, fun _ h' => holder_unique hinv.toInv (succeeds_holds h) h'⟩

/-- While no task's lock is acquired under a sweep that is about to mark it, live leases are respected. -/
theorem lease_kept_of_unswept (as : List (Action Runner)) (a : Action Runner)
    (h : Along step Unswept (start : State Runner) as) : LeaseKept (run step start as) a :=
  leaseKept_of_sweepInv (run_invariant (fun _ a hs hok => sweepInv_step a hs hok) sweepInv_start h) a

end Runs

/-- A runner dies with the lock, a sweep reads it expired, another runner sets the task running, and the sweep goes on. -/
def sweptRun : List (Action (Fin 3)) :=
  [.create "t" "log_cleanup" "" "", .claim 0 "t" "log_cleanup", .next 0, .tick 61, .expireStale 1,
    .claim 2 "t" "log_cleanup", .next 2, .next 2, .next 2, .next 2]

theorem live_lease_swept : ¬ LeaseKept (run step start sweptRun) (.next 1) ∧
      (run step start sweptRun).db.isRunning "t" = true ∧
      (run step start sweptRun).db.holdsLock (run step start sweptRun).now "t" 2 = true ∧
      (step (run step start sweptRun) (.next 1)).db.isRunning "t" = false := by
  have hrun : (run step start sweptRun).db.isRunning "t" = true := by decide +kernel
  have hlock : (run step start sweptRun).db.holdsLock (run step start sweptRun).now "t" 2 = true := by decide +kernel
  have hend : (step (run step start sweptRun) (.next 1)).db.isRunning "t" = false := by decide +kernel
  refine ⟨fun hkept => ?_, hrun, hlock, hend⟩
  obtain ⟨r, outcome, result, error, ha, -⟩ | ⟨-, hstale⟩ := hkept.ends "t" hrun (by rw [hend]; exact Bool.false_ne_true)
  · cases ha
  · obtain ⟨lock, hmem, hid, -, hlive⟩ := holdsLock_iff.mp hlock
    exact absurd (hstale lock hmem hid) (not_lt.mpr hlive)

/-- The same start without the take-over: the sweep ends the task of a runner that died while it ran. -/
theorem lease_kept_dead_runner :
    LeaseKept (run step start [.create "t" "log_cleanup" "" "", .claim (0 : Fin 2) "t" "log_cleanup", .next 0, .next 0,
      .tick 61, .expireStale 1]) (.next 1) ∧
    (run step start [.create "t" "log_cleanup" "" "", .claim (0 : Fin 2) "t" "log_cleanup", .next 0, .next 0,
      .tick 61, .expireStale 1]).db.isRunning "t" = true :=
  ⟨lease_kept_of_unswept _ _ (by decide +kernel), by decide +kernel⟩

end HotAI.SystemTasks
