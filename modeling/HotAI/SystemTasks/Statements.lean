import HotAI.SystemTasks.Store

/-! # What one statement can do

To the tasks (`step_tasks`), to the locks (`lock_step`) and to the place a runner is at (`claim_step`, `found_step`,
`toMark_step`). The invariants of runs use only these. -/
namespace HotAI.SystemTasks
open HotAI.Lib Option Function Table

variable {Runner : Type}

/-! ## Tasks -/

def SystemTask.keyed (t : SystemTask Runner) : Prop := t.activeKey = if t.status.active then some t.type else none

/-- An update of a task row that keeps what the row is and never brings an ended task back. -/
structure Tame (t t' : SystemTask Runner) : Prop where
  taskID : t'.taskID = t.taskID
  type : t'.type = t.type
  createdAt : t'.createdAt = t.createdAt
  active : t'.status.active → t.status.active
  keyed : t.keyed → t'.keyed

structure TasksOk (now : ℤ) (db : Store Runner) : Prop where
  keyed : ∀ {id t}, db.tasks.get id = some t → t.keyed
  created : ∀ {id t}, db.tasks.get id = some t → t.createdAt ≤ now
  one : ∀ {id id' t t'}, db.tasks.get id = some t → db.tasks.get id' = some t' → t.status.active → t'.status.active →
    t.type = t'.type → id = id'

/-- What holds between the tasks before and after a statement executed at `now`. -/
structure Later (now : ℤ) (db db' : Store Runner) : Prop where
  kept : ∀ {id t}, db.tasks.get id = some t → ∃ t', db'.tasks.get id = some t' ∧ t'.type = t.type ∧
    t'.createdAt = t.createdAt ∧ (t'.status.active → t.status.active)
  fresh : ∀ {id t'}, db'.tasks.get id = some t' → db.tasks.get id = none → t'.createdAt = now

variable {now : ℤ} {db : Store Runner} {id : String} {db' : Store Runner} {t t' : SystemTask Runner}

theorem later_of_tasks (h : db'.tasks = db.tasks) : Later now db db' where
  kept hget := ⟨_, h ▸ hget, rfl, rfl, id⟩
  fresh hget hnone := by
    rw [h, hnone] at hget
    cases hget

theorem tasksOk_of_tasks {now' : ℤ} (h : db'.tasks = db.tasks) (hnow : now ≤ now')
    (hok : TasksOk now db) : TasksOk now' db' where
  keyed hget := hok.keyed (h ▸ hget)
  created hget := (hok.created (h ▸ hget)).trans hnow
  one hget hget' := hok.one (h ▸ hget) (h ▸ hget')

theorem unchanged_ok (h : db'.tasks = db.tasks) (hok : TasksOk now db) : Later now db db' ∧ TasksOk now db' :=
  ⟨later_of_tasks h, tasksOk_of_tasks h le_rfl hok⟩

theorem get_put_cases {id' : String} {t t' x : SystemTask Runner}
    (hget : db.tasks.get id = some t) (ht : Tame t t') (hx : (db.tasks.put t').get id' = some x) :
    id' = id ∧ x = t' ∨ id' ≠ id ∧ db.tasks.get id' = some x := by
  have hkey : t'.taskID = id := ht.taskID.trans (key_of_get hget)
  by_cases h : id' = id
  · refine .inl ⟨h, ?_⟩
    have hold : db.tasks.get t'.taskID = some t := hkey ▸ hget
    have hself := get_put_self hold
    rw [hkey, ← h, hx] at hself
    exact some.inj hself
  · refine .inr ⟨h, ?_⟩
    rwa [get_put_of_ne (hkey.symm ▸ h)] at hx

theorem later_put
    (hget : db.tasks.get id = some t) (ht : Tame t t') : Later now db { db with tasks := db.tasks.put t' } where
  kept {id' x} hx := by
    have hkey : t'.taskID = id := ht.taskID.trans (key_of_get hget)
    by_cases h : id' = id
    · subst h
      rw [hget] at hx
      obtain rfl := some.inj hx
      have hold : db.tasks.get t'.taskID = some t := hkey ▸ hget
      exact ⟨t', hkey ▸ get_put_self hold, ht.type, ht.createdAt, ht.active⟩
    · exact ⟨x, (get_put_of_ne (hkey.symm ▸ h)).trans hx, rfl, rfl, fun h => h⟩
  fresh {id' x} hx hnone := by
    obtain ⟨rfl, -⟩ | ⟨-, hold⟩ := get_put_cases hget ht hx
    · rw [hget] at hnone
      cases hnone
    · rw [hold] at hnone
      cases hnone

theorem tasksOk_put (hget : db.tasks.get id = some t) (ht : Tame t t') (hok : TasksOk now db) :
    TasksOk now { db with tasks := db.tasks.put t' } where
  keyed hx := by
    obtain ⟨-, rfl⟩ | ⟨-, hold⟩ := get_put_cases hget ht hx
    · exact ht.keyed (hok.keyed hget)
    · exact hok.keyed hold
  created hx := by
    obtain ⟨-, rfl⟩ | ⟨-, hold⟩ := get_put_cases hget ht hx
    · exact ht.createdAt ▸ hok.created hget
    · exact hok.created hold
  one hx hy hxa hya htype := by
    obtain ⟨rfl, rfl⟩ | ⟨-, hx'⟩ := get_put_cases hget ht hx <;>
      obtain ⟨rfl, rfl⟩ | ⟨-, hy'⟩ := get_put_cases hget ht hy
    · rfl
    · exact hok.one hget hy' (ht.active hxa) hya (ht.type ▸ htype)
    · exact hok.one hx' hget hxa (ht.active hya) (htype.trans ht.type)
    · exact hok.one hx' hy' hxa hya htype

theorem updateTask_cases (db : Store Runner) (id : String) (cond : SystemTask Runner → Bool)
    (set : SystemTask Runner → SystemTask Runner) :
    db.updateTask id cond set = (db, false) ∨ ∃ t, db.tasks.get id = some t ∧ cond t = true ∧
        db.updateTask id cond set = ({ db with tasks := db.tasks.put (set t) }, true) := by
  unfold Store.updateTask
  cases hget : db.tasks.get id with
  | none => exact .inl rfl
  | some t =>
    cases hcond : cond t with
    | false => exact .inl (by simp [hcond])
    | true => exact .inr ⟨t, rfl, hcond, by simp [hcond]⟩

theorem updateTask_ok {cond : SystemTask Runner → Bool}
    {set : SystemTask Runner → SystemTask Runner} (htame : ∀ t, cond t = true → Tame t (set t)) (hok : TasksOk now db) :
    Later now db (db.updateTask id cond set).1 ∧ TasksOk now (db.updateTask id cond set).1 := by
  obtain h | ⟨t, hget, hcond, h⟩ := updateTask_cases db id cond set <;> rw [h]
  · exact ⟨later_of_tasks rfl, hok⟩
  · exact ⟨later_put hget (htame t hcond), tasksOk_put hget (htame t hcond) hok⟩

theorem updateTask_locks (db : Store Runner) (id : String) (cond : SystemTask Runner → Bool)
    (set : SystemTask Runner → SystemTask Runner) : (db.updateTask id cond set).1.locks = db.locks := by
  obtain h | ⟨t, -, -, h⟩ := updateTask_cases db id cond set <;> rw [h]

theorem tame_start {type : String} {runner : Runner} (t : SystemTask Runner)
    (h : (decide (t.type = type) && decide (t.status = .pending)) = true) : Tame t (t.start runner now) := by
  have hstatus : t.status = .pending := by simp_all
  refine ⟨rfl, rfl, rfl, fun _ => (by rw [hstatus]; rfl), fun hkeyed => ?_⟩
  rw [SystemTask.keyed, hstatus] at hkeyed
  exact hkeyed

theorem tame_expire (t : SystemTask Runner) : Tame t (t.expire now) :=
  ⟨rfl, rfl, rfl, fun h => (by cases h), fun _ => rfl⟩

theorem tame_finish {outcome : Outcome} {result error : String} (t : SystemTask Runner) :
    Tame t (t.finish now outcome result error) := by
  cases outcome <;> exact ⟨rfl, rfl, rfl, fun h => (by cases h), fun _ => rfl⟩

theorem tame_state {state : String} (t : SystemTask Runner) :
    Tame t { t with state := state, updatedAt := now } := ⟨rfl, rfl, rfl, id, id⟩

theorem createTask_ok {taskID type payload state : String} (hok : TasksOk now db) :
    Later now db (db.createTask now taskID type payload state) ∧
      TasksOk now (db.createTask now taskID type payload state) := by
  unfold Store.createTask
  split
  · exact ⟨later_of_tasks rfl, hok⟩
  rename_i hfree
  generalize hnew : (⟨taskID, type, .pending, some type, payload, state, "", "", none, now, now⟩ : SystemTask Runner) = new
  have htype : new.type = type := by rw [← hnew]
  have hcreated : new.createdAt = now := by rw [← hnew]
  have hkeyed : new.keyed := by rw [← hnew]; rfl
  cases hget : db.tasks.get new.taskID with
  | some old =>
    have hsame : db.tasks.add new = db.tasks := by
      unfold add
      rw [dif_neg (by rw [hget]; exact some_ne_none old)]
    rw [hsame]
    exact ⟨later_of_tasks rfl, hok⟩
  | none =>
    have hcases : ∀ {id x}, (db.tasks.add new).get id = some x →
        id = new.taskID ∧ x = new ∨ db.tasks.get id = some x := by
      intro id x hx
      by_cases h : id = new.taskID
      · rw [h, get_add_self hget] at hx
        exact .inl ⟨h, (some.inj hx).symm⟩
      · exact .inr ((get_add_of_ne h).symm.trans hx)
    -- the unique index on the active key: an active task of this type would have stopped the insert
    have hnone : ∀ {id x}, db.tasks.get id = some x → x.status.active → x.type ≠ new.type := by
      intro id x hx hactive heq
      apply hfree
      have hkey := hok.keyed hx
      rw [SystemTask.keyed, if_pos hactive, heq, htype] at hkey
      exact List.any_eq_true.mpr ⟨x, ((get_eq_some_iff _ _ _).mp hx).1, decide_eq_true hkey⟩
    refine ⟨⟨fun hx => ⟨_, get_add_of_get hx, rfl, rfl, fun h => h⟩, fun hx hold => ?_⟩,
      ⟨fun hx => ?_, fun hx => ?_, fun hx hy hxa hya heq => ?_⟩⟩
    · obtain ⟨-, rfl⟩ | hx := hcases hx
      · exact hcreated
      · rw [hold] at hx
        cases hx
    · obtain ⟨-, rfl⟩ | hx := hcases hx
      · exact hkeyed
      · exact hok.keyed hx
    · obtain ⟨-, rfl⟩ | hx := hcases hx
      · exact hcreated.le
      · exact hok.created hx
    · obtain ⟨rfl, rfl⟩ | hx' := hcases hx <;> obtain ⟨rfl, rfl⟩ | hy' := hcases hy
      · rfl
      · exact absurd heq.symm (hnone hy' hya)
      · exact absurd heq (hnone hx' hxa)
      · exact hok.one hx' hy' hxa hya heq

/-! ## Statements and steps -/

theorem markSystemTaskLeaseExpired_ok (id : String) (hok : TasksOk now db) :
    Later now db (db.markSystemTaskLeaseExpired now id) ∧ TasksOk now (db.markSystemTaskLeaseExpired now id) :=
  updateTask_ok (fun t _ => tame_expire t) hok

theorem mem_deleteLocks {cond : SystemTaskLock Runner → Bool} {lock : SystemTaskLock Runner} :
    lock ∈ (db.deleteLocks cond).locks.rows ↔ lock ∈ db.locks.rows ∧ cond lock = false := by
  simp [Store.deleteLocks, List.mem_filter]

theorem createTask_locks (db : Store Runner) (now : ℤ) (taskID type payload state : String) :
    (db.createTask now taskID type payload state).locks = db.locks := by
  unfold Store.createTask
  split <;> rfl

section Steps
variable [DecidableEq Runner]

/-- The statements of `ClaimSystemTask` and `ExpireStaleSystemTaskLocks`: place before, database and place after. -/
inductive Advance (s : State Runner) (runner : Runner) : Pc Runner → Store Runner → Pc Runner → Prop where
  | idle : Advance s runner .idle s.db .idle
  | insert {c} (h : s.db.locks.get c.type = none) :
      Advance s runner (.acquire c) { s.db with locks := s.db.locks.add (c.lock runner) } (.start c)
  | conflict {c} : Advance s runner (.acquire c) s.db (.look c)
  | giveUp {c} : Advance s runner (.look c) s.db .idle
  | expired {c lock} (h : s.db.locks.get c.type = some lock) (hlt : lock.lockedUntil < c.now) :
      Advance s runner (.look c) s.db (.takeOver c lock.taskID)
  | lost {c existing} : Advance s runner (.takeOver c existing) s.db .idle
  | takeOver {c existing lock} (h : s.db.locks.get c.type = some lock) (hlt : lock.lockedUntil < c.now) :
      Advance s runner (.takeOver c existing) { s.db with locks := s.db.locks.put (c.lock runner) }
        (if existing ≠ "" ∧ existing ≠ c.taskID then .mark c existing else .start c)
  | mark {c expired} :
      Advance s runner (.mark c expired) (s.db.markSystemTaskLeaseExpired s.now expired) (.start c)
  | start {c} : Advance s runner (.start c) (s.db.startTask c.now c.taskID c.type runner).1
      (if (s.db.startTask c.now c.taskID c.type runner).2 then .idle else .release c)
  | release {c} : Advance s runner (.release c) (s.db.releaseSystemTaskLock c.taskID runner) .idle
  | swept {now : ℤ} : Advance s runner (.sweep now []) s.db .idle
  | sweepMark {now : ℤ} {lock rest} : Advance s runner (.sweep now (lock :: rest))
      (s.db.markSystemTaskLeaseExpired s.now lock.taskID) (.sweepDelete now lock rest)
  | sweepDelete {now : ℤ} {lock rest} : Advance s runner (.sweepDelete now lock rest)
      (s.db.deleteLocks fun l => l.type = lock.type && l.taskID = lock.taskID && l.lockedBy = lock.lockedBy &&
        l.lockedUntil < now) (.sweep now rest)

theorem advance_cases (s : State Runner) (runner : Runner) {pc : Pc Runner} (hpc : s.pc runner = pc) :
    ∃ db' pc', Advance s runner pc db' pc' ∧ advance s runner pc = s.go runner db' pc' := by
  cases pc with
  | idle =>
    refine ⟨_, _, .idle, ?_⟩
    have hsame : update s.pc runner .idle = s.pc := hpc ▸ update_eq_self runner s.pc
    rw [State.go, hsame]
    rfl
  | acquire c =>
    cases h : s.db.locks.get c.type with
    | none => exact ⟨_, _, .insert h, by simp only [advance, h]⟩
    | some lock => exact ⟨_, _, .conflict, by simp only [advance, h]⟩
  | look c =>
    cases h : s.db.locks.get c.type with
    | none => exact ⟨_, _, .giveUp, by simp only [advance, h]⟩
    | some lock =>
      by_cases hlive : c.now ≤ lock.lockedUntil
      · exact ⟨_, _, .giveUp, by simp only [advance, h, if_pos hlive]⟩
      · exact ⟨_, _, .expired h (not_le.mp hlive), by simp only [advance, h, if_neg hlive]⟩
  | takeOver c existing =>
    cases h : s.db.locks.get c.type with
    | none => exact ⟨_, _, .lost, by simp only [advance, h]⟩
    | some lock =>
      by_cases hlt : lock.lockedUntil < c.now
      · exact ⟨_, _, .takeOver h hlt, by simp only [advance, h, if_pos hlt]⟩
      · exact ⟨_, _, .lost, by simp only [advance, h, if_neg hlt]⟩
  | mark c expired => exact ⟨_, _, .mark, rfl⟩
  | start c => exact ⟨_, _, .start, rfl⟩
  | release c => exact ⟨_, _, .release, rfl⟩
  | sweep now locks =>
    cases locks with
    | nil => exact ⟨_, _, .swept, rfl⟩
    | cons lock rest => exact ⟨_, _, .sweepMark, rfl⟩
  | sweepDelete now lock rest => exact ⟨_, _, .sweepDelete, rfl⟩

inductive Stepped (s : State Runner) : Action Runner → State Runner → Prop where
  | refused {a} (h : ∀ r, a ≠ .next r) : Stepped s a s
  | tick {seconds} : Stepped s (.tick seconds) { s with now := s.now + (seconds : ℕ) }
  | create {taskID type payload state} : Stepped s (.create taskID type payload state)
      { s with db := s.db.createTask s.now taskID type payload state }
  | claim {runner taskID type t} (hget : s.db.tasks.get taskID = some t) (htype : t.type = type)
      (hstatus : t.status = .pending) : Stepped s (.claim runner taskID type)
      (s.go runner s.db (.acquire ⟨taskID, type, s.now, s.now + systemTaskLockTTL⟩))
  | sweeping {runner} : Stepped s (.expireStale runner)
      (s.go runner s.db (.sweep s.now (s.db.locks.rows.filter fun lock => lock.lockedUntil < s.now)))
  | next {runner pc db' pc'} (hpc : s.pc runner = pc) (h : Advance s runner pc db' pc') :
      Stepped s (.next runner) (s.go runner db' pc')
  | update {runner taskID state} : Stepped s (.update runner taskID state)
      { s with db := (s.db.updateSystemTaskState s.now taskID runner state).1 }
  | renew {runner taskID} : Stepped s (.renew runner taskID)
      { s with db := s.db.renewSystemTaskLock s.now taskID runner (s.now + systemTaskLockTTL) }
  | finish {runner taskID outcome result error} : Stepped s (.finish runner taskID outcome result error)
      { s with
        db := (s.db.finishSystemTask s.now taskID runner outcome result error).1
        finishing := if (s.db.finishSystemTask s.now taskID runner outcome result error).2
          then (taskID, runner) :: s.finishing else s.finishing }
  | released {runner taskID} (h : (taskID, runner) ∈ s.finishing) : Stepped s (.releaseFinished runner taskID)
      { s with
        db := s.db.releaseSystemTaskLock taskID runner
        finishing := s.finishing.erase (taskID, runner) }

theorem step_stepped (s : State Runner) (a : Action Runner) : Stepped s a (step s a) := by
  cases a with
  | tick seconds => exact .tick
  | create taskID type payload state => exact .create
  | claim runner taskID type =>
    simp only [step]
    split
    · rename_i t _ hget
      split
      · rename_i hcond
        exact .claim hget hcond.1 hcond.2
      · exact .refused fun _ h => by cases h
    · exact .refused fun _ h => by cases h
  | expireStale runner =>
    simp only [step]
    split
    · exact .sweeping
    · exact .refused fun _ h => by cases h
  | next runner =>
    obtain ⟨db', pc', hadv, heq⟩ := advance_cases s runner rfl
    change Stepped s (.next runner) (advance s runner (s.pc runner))
    rw [heq]
    exact .next rfl hadv
  | update runner taskID state => exact .update
  | renew runner taskID => exact .renew
  | finish runner taskID outcome result error => exact .finish
  | releaseFinished runner taskID =>
    simp only [step]
    split
    · rename_i h
      exact .released h
    · exact .refused fun _ h => by cases h

variable {s : State Runner} {lock : SystemTaskLock Runner} {runner : Runner} {pc pc' : Pc Runner} {db' : Store Runner}

theorem advance_tasks
    (h : Advance s runner pc db' pc') (hok : TasksOk s.now s.db) : Later s.now s.db db' ∧ TasksOk s.now db' := by
  cases h with
  | mark => exact markSystemTaskLeaseExpired_ok _ hok
  | sweepMark => exact markSystemTaskLeaseExpired_ok _ hok
  | start => exact updateTask_ok tame_start hok
  | idle | insert | conflict | giveUp | expired | lost | takeOver | release | swept | sweepDelete => exact unchanged_ok rfl hok

theorem step_tasks {s' : State Runner} {a : Action Runner} (h : Stepped s a s') (hok : TasksOk s.now s.db) :
    Later s.now s.db s'.db ∧ TasksOk s'.now s'.db := by
  cases h with
  | tick => exact ⟨later_of_tasks rfl, tasksOk_of_tasks rfl (Int.le_add_of_nonneg_right (Int.natCast_nonneg _)) hok⟩
  | create => exact createTask_ok hok
  | next hpc hadv => exact advance_tasks hadv hok
  | update => exact updateTask_ok (fun t _ => tame_state t) hok
  | finish => exact updateTask_ok (fun t _ => tame_finish t) hok
  | refused | claim | sweeping | renew | released => exact unchanged_ok rfl hok

def acquires (s : State Runner) : Action Runner → Option (Runner × Claim)
  | .next runner => match s.pc runner with
      | .acquire c => if s.db.locks.get c.type = none then some (runner, c) else none
      | .takeOver c _ => match s.db.locks.get c.type with
          | none => none
          | some lock => if lock.lockedUntil < c.now then some (runner, c) else none
      | _ => none
  | _ => none

theorem mem_renew {now lockUntil : ℤ} {taskID : String} :
    lock ∈ (db.renewSystemTaskLock now taskID runner lockUntil).locks.rows ↔
      ∃ old ∈ db.locks.rows, old.renewed taskID runner now lockUntil = lock := List.mem_map

theorem advance_lock (hpc : s.pc runner = pc) (h : Advance s runner pc db' pc') (hmem : lock ∈ db'.locks.rows) :
    lock ∈ s.db.locks.rows ∨ ∃ c, acquires s (.next runner) = some (runner, c) ∧ lock = c.lock runner := by
  cases h with
  | @insert c hfree =>
    have hfree' : s.db.locks.get (c.lock runner).type = none := hfree
    obtain hold | hnew := (mem_add hfree' lock).mp hmem
    · exact .inl hold
    · exact .inr ⟨c, by simp only [acquires, hpc, if_pos hfree], hnew⟩
  | @takeOver c existing old hget hlt =>
    have hget' : s.db.locks.get (c.lock runner).type = some old := hget
    obtain hnew | ⟨hold, -⟩ := (mem_put hget' lock).mp hmem
    · exact .inr ⟨c, by simp only [acquires, hpc, hget, if_pos hlt], hnew⟩
    · exact .inl hold
  | mark | start | sweepMark => exact .inl (updateTask_locks s.db _ _ _ ▸ hmem)
  | release | sweepDelete => exact .inl (mem_deleteLocks.mp hmem).1
  | idle | conflict | giveUp | expired | lost | swept => exact .inl hmem

theorem lock_step {s' : State Runner} {a : Action Runner} (h : Stepped s a s') (hmem : lock ∈ s'.db.locks.rows) :
    lock ∈ s.db.locks.rows ∨ (∃ old ∈ s.db.locks.rows, s.now ≤ old.lockedUntil ∧
        lock = { old with lockedUntil := s.now + systemTaskLockTTL, updatedAt := s.now }) ∨
      ∃ runner c, acquires s a = some (runner, c) ∧ lock = c.lock runner := by
  cases h with
  | create => exact .inl (createTask_locks s.db _ _ _ _ _ ▸ hmem)
  | next hpc hadv => exact (advance_lock hpc hadv hmem).imp id fun ⟨c, hc⟩ => .inr ⟨_, c, hc⟩
  | update | finish => exact .inl (updateTask_locks s.db _ _ _ ▸ hmem)
  | renew =>
    obtain ⟨old, hold, hlock⟩ := mem_renew.mp hmem
    unfold SystemTaskLock.renewed at hlock
    split at hlock
    · rename_i hcond
      exact .inr (.inl ⟨old, hold, hcond.2.2, hlock.symm⟩)
    · exact .inl (hlock ▸ hold)
  | released => exact .inl (mem_deleteLocks.mp hmem).1
  | refused | tick | claim | sweeping => exact .inl hmem

end Steps

/-! ## Where a runner is -/

def claimOf : Pc Runner → Option Claim
  | .acquire c | .look c | .takeOver c _ | .mark c _ | .start c | .release c => some c
  | .idle | .sweep _ _ | .sweepDelete _ _ _ => none

def foundOf : Pc Runner → Option String
  | .takeOver c existing => if existing = c.taskID then none else some existing
  | .mark _ expired => some expired
  | _ => none

def toMark : Pc Runner → List (SystemTaskLock Runner)
  | .sweep _ locks => locks
  | .sweepDelete _ _ rest => rest
  | _ => []

def marks : Pc Runner → Option String
  | .mark _ expired => some expired
  | .sweep _ (lock :: _) => some lock.taskID
  | _ => none

section Places
variable [DecidableEq Runner]

theorem go_pc (s : State Runner) (runner r : Runner) (db : Store Runner) (pc : Pc Runner) :
    (s.go runner db pc).pc r = if r = runner then pc else s.pc r := update_apply s.pc runner pc r

theorem go_pc_self (s : State Runner) (runner : Runner) (db : Store Runner) (pc : Pc Runner) :
    (s.go runner db pc).pc runner = pc := update_self ..

/-- For one runner: it stays, begins a claim or a sweep, or executes its next statement. -/
inductive Moved (s : State Runner) (r : Runner) : Action Runner → State Runner → Prop where
  | stayed {a s'} (hpc : s'.pc r = s.pc r) (ha : a ≠ .next r) : Moved s r a s'
  | claim {taskID type t} (hget : s.db.tasks.get taskID = some t) (htype : t.type = type)
      (hstatus : t.status = .pending) : Moved s r (.claim r taskID type)
      (s.go r s.db (.acquire ⟨taskID, type, s.now, s.now + systemTaskLockTTL⟩))
  | sweeping : Moved s r (.expireStale r)
      (s.go r s.db (.sweep s.now (s.db.locks.rows.filter fun lock => lock.lockedUntil < s.now)))
  | next {pc db' pc'} (hpc : s.pc r = pc) (h : Advance s r pc db' pc') : Moved s r (.next r) (s.go r db' pc')

variable {s s' : State Runner} {a : Action Runner}

theorem moved_of_stepped (h : Stepped s a s') (r : Runner) : Moved s r a s' := by
  cases h with
  | refused ha => exact .stayed rfl (ha r)
  | @claim runner taskID type t hget htype hstatus =>
    by_cases hr : r = runner
    · subst hr
      exact .claim hget htype hstatus
    · exact .stayed (by rw [go_pc, if_neg hr]) (fun h => by cases h)
  | @sweeping runner =>
    by_cases hr : r = runner
    · subst hr
      exact .sweeping
    · exact .stayed (by rw [go_pc, if_neg hr]) (fun h => by cases h)
  | @next runner pc db' pc' hpc hadv =>
    by_cases hr : r = runner
    · subst hr
      exact .next hpc hadv
    · exact .stayed (by rw [go_pc, if_neg hr]) (fun h => hr (Action.next.inj h).symm)
  | tick | create | update | renew | finish | released => exact .stayed rfl (fun h => by cases h)

variable {r : Runner}

theorem claim_step (h : Stepped s a s') {c : Claim} (hc : claimOf (s'.pc r) = some c) :
    claimOf (s.pc r) = some c ∨ s'.db = s.db ∧ s'.now = s.now ∧ c.now = s.now ∧ c.lockUntil = s.now + systemTaskLockTTL ∧
      ∃ t, s.db.tasks.get c.taskID = some t ∧ t.type = c.type ∧ t.status = .pending := by
  cases moved_of_stepped h r with
  | stayed hpc => exact .inl (hpc ▸ hc)
  | @claim taskID type t hget htype hstatus =>
    rw [go_pc_self] at hc
    obtain rfl := some.inj hc
    exact .inr ⟨rfl, rfl, rfl, rfl, t, hget, htype, hstatus⟩
  | sweeping =>
    rw [go_pc_self] at hc
    cases hc
  | next hpc hadv =>
    rw [go_pc_self] at hc
    left
    rw [hpc]
    cases hadv with
    | takeOver => split at hc <;> exact hc
    | start =>
      split at hc
      · cases hc
      · exact hc
    | insert | conflict | expired | mark => exact hc
    | idle | giveUp | lost | release | swept | sweepMark | sweepDelete => cases hc

theorem found_step (h : Stepped s a s') (hid : foundOf (s'.pc r) = some id) :
    foundOf (s.pc r) = some id ∨ s'.db = s.db ∧ ∃ c lock, claimOf (s.pc r) = some c ∧
      s.db.locks.get c.type = some lock ∧ lock.lockedUntil < c.now ∧ lock.taskID = id ∧ id ≠ c.taskID := by
  cases moved_of_stepped h r with
  | stayed hpc => exact .inl (hpc ▸ hid)
  | claim | sweeping =>
    rw [go_pc_self] at hid
    cases hid
  | next hpc hadv =>
    rw [go_pc_self] at hid
    rw [hpc]
    cases hadv with
    | @expired c lock hget hlt =>
      simp only [foundOf] at hid
      split at hid
      · cases hid
      · rename_i hne
        obtain rfl := some.inj hid
        exact .inr ⟨rfl, c, lock, rfl, hget, hlt, rfl, hne⟩
    | @takeOver c existing =>
      split at hid
      · rename_i hcond
        exact .inl ((if_neg hcond.2).trans hid)
      · cases hid
    | start => split at hid <;> cases hid
    | idle | insert | conflict | giveUp | lost | mark | release | swept | sweepMark | sweepDelete => cases hid

theorem toMark_step (h : Stepped s a s')
    {lock : SystemTaskLock Runner} (hmem : lock ∈ toMark (s'.pc r)) :
    lock ∈ toMark (s.pc r) ∨ s'.db = s.db ∧ s'.now = s.now ∧ lock ∈ s.db.locks.rows ∧ lock.lockedUntil < s.now := by
  cases moved_of_stepped h r with
  | stayed hpc => exact .inl (hpc ▸ hmem)
  | claim =>
    rw [go_pc_self] at hmem
    cases hmem
  | sweeping =>
    rw [go_pc_self] at hmem
    obtain ⟨hlock, hlt⟩ := List.mem_filter.mp hmem
    exact .inr ⟨rfl, rfl, hlock, of_decide_eq_true hlt⟩
  | next hpc hadv =>
    rw [go_pc_self] at hmem
    left
    rw [hpc]
    cases hadv with
    | takeOver => split at hmem <;> cases hmem
    | start => split at hmem <;> cases hmem
    | sweepMark => exact List.mem_cons_of_mem _ hmem
    | sweepDelete => exact hmem
    | idle | insert | conflict | giveUp | expired | lost | mark | release | swept => cases hmem

theorem step_now (h : Stepped s a s') : s.now ≤ s'.now := by
  cases h with
  | tick => exact Int.le_add_of_nonneg_right (Int.natCast_nonneg _)
  | refused | create | claim | sweeping | next | update | renew | finish | released => exact le_rfl

end Places

end HotAI.SystemTasks
