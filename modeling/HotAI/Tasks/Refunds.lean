import HotAI.Tasks.Polling

/-! # Exactly-once refunds

For one refund `v` three numbers are compared: what the stored row owes, what is booked (in the ledger, or by a worker that
has won its update), and what a Suno poller has booked ahead of its `Save`. Every step keeps them in balance while the
unguarded writers (bulk update and Suno poller) meet no one else on the row. -/
namespace HotAI.Tasks
open HotAI.Lib List Table

/-! ## When a step is sound -/

def Worker.ahead (id : ℤ) : Worker → Bool
  | .sunoSave _ task true => task.id = id
  | _ => false

/-- No other worker is between a Suno refund and its `Save` of this task. -/
def alone (s : System) (i : ℕ) (id : ℤ) : Bool := (s.workers.eraseIdx i).all fun w => !w.ahead id

def unmoved (s : System) (id : ℤ) (fromStatus : TaskStatus) : Bool :=
  match s.rows.get id with
  | some row => row.status = fromStatus
  | none => false

def nothingToRefund (row : Task) : Bool := row.status = .failure || row.quota = 0 || row.isLegacy

/-- When a step is sound: no answer for a failed copy; a Suno failure reason with quota comes with `FAILURE`; a Suno poller
finds its copy's status in the table and is alone from refund to `Save`; a bulk failure hits only rows with nothing to refund.
-/
def sound (s : System) : Label → Bool
  | .video i _ _ _ =>
      match s.workers[i]? with
      | some (.copy task) => task.status ≠ .failure
      | _ => true
  | .suno i item =>
      match s.workers[i]? with
      | some (.copy task) => task.status ≠ .failure &&
          (item.failReason = "" || task.quota = 0 || (applySunoItem task item).status = .failure)
      | _ => true
  | .exec i _ =>
      match s.workers[i]? with
      | some (.update _ task _ _ _ _) => alone s i task.id
      | some (.sunoRefund fromStatus task) => alone s i task.id && unmoved s task.id fromStatus
      | some (.sunoSave fromStatus task _) => alone s i task.id && unmoved s task.id fromStatus
      | _ => true
  | .bulk is _ =>
      (copiedIds s.workers is).all fun id =>
        (s.workers.all fun w => !w.ahead id) && (s.rows.get id).all nothingToRefund
  | _ => true

/-! ## The three numbers -/

/-- 1 if a task with quota would be refunded as `v`. -/
def unit (v : Refund) (task : Task) : ℤ := if task.quota ≠ 0 ∧ refundOf task = v then 1 else 0

def owed (v : Refund) : Option Task → ℤ
  | some row => if row.status = .failure ∧ row.isLegacy = false then unit v row else 0
  | none => 0

def cap (v : Refund) : Option Task → ℤ
  | some row => if row.status = .failure then unit v row else 0
  | none => 0

def Worker.pending (v : Refund) : Worker → ℤ
  | .refund task _ => unit v task
  | _ => 0

def Worker.advance (v : Refund) : Worker → ℤ
  | .sunoSave _ task true => unit v task
  | _ => 0

def booked (s : System) (v : Refund) : ℤ := (s.ledger.count v : ℤ) + total (Worker.pending v) s.workers

def advanced (s : System) (v : Refund) : ℤ := total (Worker.advance v) s.workers

def failed (row : Option Task) : Prop := ∃ task, row = some task ∧ task.status = .failure

structure Balanced (row : Option Task) (v : Refund) (booked advanced : ℤ) : Prop where
  low : owed v row + advanced ≤ booked
  high : booked ≤ cap v row + advanced
  once : advanced ≤ 1
  stored : failed row → advanced = 0

theorem unit_nonneg (v : Refund) (task : Task) : 0 ≤ unit v task := by
  unfold unit
  split <;> omega

theorem unit_le_one (v : Refund) (task : Task) : unit v task ≤ 1 := by
  unfold unit
  split <;> omega

variable {v : Refund} {task : Task}

theorem unit_of_ne (h : v.taskId ≠ task.id) : unit v task = 0 := by
  refine if_neg ?_
  rintro ⟨-, rfl⟩
  exact h rfl

theorem unit_of_quota_zero (h : task.quota = 0) : unit v task = 0 :=
  if_neg fun hv => hv.1 h

theorem owed_of_not_failure (h : task.status ≠ .failure) : owed v (some task) = 0 := if_neg fun hv => h hv.1

theorem cap_of_not_failure (h : task.status ≠ .failure) : cap v (some task) = 0 := if_neg h

theorem cap_of_failure (h : task.status = .failure) : cap v (some task) = unit v task := if_pos h

theorem owed_le_unit (v : Refund) (task : Task) : owed v (some task) ≤ unit v task := by
  have := unit_nonneg v task
  unfold owed
  dsimp only
  split <;> omega

theorem count_refundTaskQuota (ledger : List Refund) (task : Task) (v : Refund) :
    ((refundTaskQuota ledger task).count v : ℤ) = ledger.count v + unit v task := by
  unfold refundTaskQuota unit
  by_cases hq : task.quota = 0
  · simp [hq]
  · by_cases hv : refundOf task = v
    · simp [hq, hv]
    · simp [hq, hv, count_append]

/-! ## What a worker knows -/

/-- A worker that can write knows that its copy had not failed, and that a failure to be stored comes with a due refund. -/
def WorkerOk : Worker → Prop
  | .swept task => task.status ≠ .failure
  | .update fromStatus task guarded shouldSettle shouldRefund _ =>
      fromStatus ≠ .failure ∧
        (shouldRefund = true → task.status = .failure ∧ task.quota ≠ 0) ∧
        (task.status = .failure → guarded = true ∧ shouldSettle = false ∧
          (shouldRefund = true ∨ task.quota = 0 ∨ task.isLegacy = true))
  | .refund task _ => task.quota ≠ 0
  | .sunoRefund fromStatus task =>
      fromStatus ≠ .failure ∧ (task.quota ≠ 0 → task.status = .failure)
  | .sunoSave fromStatus task refunded =>
      fromStatus ≠ .failure ∧ (refunded = true → task.quota ≠ 0 → task.status = .failure) ∧
        (refunded = false → task.status ≠ .failure)
  | _ => True

def Worker.Quiet (w : Worker) : Prop := ∀ v, w.pending v = 0 ∧ w.advance v = 0

theorem quiet_afterwards (task : Task) (poller : Bool) : (afterwards task poller).Quiet := by
  intro v
  cases poller <;> exact ⟨rfl, rfl⟩

theorem ok_afterwards (task : Task) (poller : Bool) : WorkerOk (afterwards task poller) := by
  cases poller <;> trivial

theorem sweepNext_ok (now minutes : ℤ) (h : task.status ≠ .failure) :
    WorkerOk (sweepNext now minutes task) ∧ (sweepNext now minutes task).Quiet := by
  refine ⟨⟨h, ?_, ?_⟩, fun v => ⟨rfl, rfl⟩⟩
  · intro hrefund
    simp only [Bool.and_eq_true, Bool.not_eq_true', decide_eq_true_eq] at hrefund
    exact ⟨rfl, hrefund.2⟩
  · intro _
    refine ⟨rfl, rfl, ?_⟩
    by_cases hlegacy : task.isLegacy = true
    · exact .inr (.inr hlegacy)
    · by_cases hq : task.quota = 0
      · exact .inr (.inl hq)
      · exact .inl (by simp [hlegacy, hq])

variable {id : ℤ} {serverAddress : String} {settles refunds : Bool} {task' : Task} {ids : List ℤ}

theorem applyResult_write {now : ℤ} {result : TaskInfo}
    (h : applyResult serverAddress now task result = .write task' settles refunds) :
    (refunds = true → task'.status = .failure ∧ task'.quota ≠ 0) ∧
      (task'.status = .failure → settles = false ∧ (refunds = true ∨ task'.quota = 0)) := by
  unfold applyResult at h
  cases hs : result.status with
  | failure =>
    rw [hs] at h
    cases h
    refine ⟨fun hq => ⟨rfl, by simpa using hq⟩, fun _ => ⟨rfl, ?_⟩⟩
    by_cases hq : task.quota = 0
    · exact .inr hq
    · exact .inl (by simp [hq])
  | submitted | queued | inProgress | success =>
    rw [hs] at h
    cases h
    exact ⟨nofun, nofun⟩
  | notStart | unknown | other =>
    rw [hs] at h
    cases h

theorem applyAnswer_write {now : ℤ} {answer : VideoAnswer}
    (h : applyAnswer serverAddress now task answer = .write task' settles refunds) :
    (refunds = true → task'.status = .failure ∧ task'.quota ≠ 0) ∧
      (task'.status = .failure → settles = false ∧ (refunds = true ∨ task'.quota = 0)) := by
  cases answer with
  | failed => cases h
  | parsed result data error =>
    unfold applyAnswer at h
    dsimp only at h
    split at h
    · cases h
    · exact applyResult_write h

theorem billing_quiet (task : Task) (settles poller : Bool) :
    WorkerOk (billing task settles false poller) ∧ (billing task settles false poller).Quiet := by
  cases settles with
  | true => exact ⟨trivial, fun v => ⟨rfl, rfl⟩⟩
  | false => exact ⟨ok_afterwards task poller, quiet_afterwards task poller⟩

theorem videoNext_ok (serverAddress : String) (now : ℤ) (answer : VideoAnswer) (h : task.status ≠ .failure) :
    WorkerOk (videoNext task (applyAnswer serverAddress now task answer)) ∧
      (videoNext task (applyAnswer serverAddress now task answer)).Quiet := by
  cases hout : applyAnswer serverAddress now task answer with
  | stop task' => exact ⟨trivial, fun v => ⟨rfl, rfl⟩⟩
  | write task' settles refunds =>
    obtain ⟨hrefund, hfail⟩ := applyAnswer_write hout
    unfold videoNext
    dsimp only
    split
    · refine ⟨⟨h, hrefund, fun hf => ⟨rfl, (hfail hf).1, ?_⟩⟩, fun v => ⟨rfl, rfl⟩⟩
      exact (hfail hf).2.imp_right .inl
    · next hguard =>
      -- the copy had not failed, so an unguarded write does not store a failure
      have hstatus : task'.status ≠ .failure := by
        intro hf
        exact hguard ⟨.inr hf, by rw [hf]; exact h⟩
      have hnone : refunds = false := by
        by_contra hr
        exact hstatus (hrefund (by simpa using hr)).1
      subst hnone
      split
      · exact ⟨⟨h, by simp, fun hf => absurd hf hstatus⟩, fun v => ⟨rfl, rfl⟩⟩
      · exact billing_quiet task' settles true

theorem sunoNext_ok {item : SunoItem} (h : task.status ≠ .failure)
    (hreason : item.failReason = "" ∨ task.quota = 0 ∨ (applySunoItem task item).status = .failure) :
    WorkerOk (sunoNext task item) ∧ (sunoNext task item).Quiet := by
  have hquota : (applySunoItem task item).quota = task.quota := by
    simp only [applySunoItem, apply_ite Task.quota, ite_self]
  unfold sunoNext
  split
  · exact ⟨trivial, fun v => ⟨rfl, rfl⟩⟩
  dsimp only
  split
  · next hfails =>
    refine ⟨⟨h, fun hq => ?_⟩, fun v => ⟨rfl, rfl⟩⟩
    rw [hquota] at hq
    simp only [sunoFails, Bool.or_eq_true, decide_eq_true_eq] at hfails
    rcases hfails with hne | hf
    · exact (hreason.resolve_left hne).resolve_left hq
    · exact hf
  · next hfails =>
    refine ⟨⟨h, by simp, fun _ hf => ?_⟩, fun v => ⟨rfl, rfl⟩⟩
    simp [sunoFails, hf] at hfails

/-! ## The invariant -/

/-- The row was not stored as a failure when the run began. -/
def Fresh (rows₀ : TaskTable) (id : ℤ) : Prop := ¬ failed (rows₀.get id)

structure Inv (rows₀ : TaskTable) (s : System) : Prop where
  workers : ∀ w ∈ s.workers, WorkerOk w
  balanced : ∀ v, Fresh rows₀ v.taskId →
    Balanced (s.rows.get v.taskId) v (booked s v) (advanced s v)

variable {w w' : Worker} {s : System} {i : ℕ} {rows₀ : TaskTable} {row : Task} {fromStatus : TaskStatus}

theorem advance_of_not_ahead (h : w.ahead v.taskId = false) : w.advance v = 0 := by
  unfold Worker.ahead at h
  unfold Worker.advance
  split
  · next task =>
    exact unit_of_ne fun he => by simp [he] at h
  · rfl

theorem advanced_of_alone (hi : s.workers[i]? = some w) (h : alone s i v.taskId = true) : advanced s v = w.advance v := by
  have hothers : total (Worker.advance v) (s.workers.eraseIdx i) = 0 := by
    refine total_eq_zero _ _ fun u hu => advance_of_not_ahead ?_
    have := all_eq_true.mp h u hu
    simpa using this
  rw [advanced, total_eraseIdx _ _ _ _ hi, hothers, add_zero]

theorem workers_set (h : ∀ w ∈ s.workers, WorkerOk w) (hok : WorkerOk w') : ∀ w ∈ s.workers.set i w', WorkerOk w := by
  intro w hw
  rcases mem_or_eq_of_mem_set hw with hmem | rfl
  · exact h w hmem
  · exact hok

theorem workerOk_of_get (h : ∀ w ∈ s.workers, WorkerOk w)
    (hi : s.workers[i]? = some w) : WorkerOk w := h w (mem_of_getElem? hi)

theorem inv_move (h : Inv rows₀ s) (hi : s.workers[i]? = some w) (hw : w.Quiet) (hok : WorkerOk w') (hw' : w'.Quiet) :
    Inv rows₀ { s with workers := s.workers.set i w' } := by
  refine ⟨workers_set h.workers hok, fun v hv => ?_⟩
  have hb := h.balanced v hv
  unfold booked advanced at hb ⊢
  rw [total_set _ _ _ _ _ hi, total_set _ _ _ _ _ hi, (hw v).1, (hw v).2, (hw' v).1, (hw' v).2,
    sub_zero, sub_zero, add_zero, add_zero]
  exact hb

/-! ## Writes -/

theorem inv_put_live (h : Inv rows₀ s) (hi : s.workers[i]? = some w) (hw : w.Quiet) (hok : WorkerOk w') (hw' : w'.Quiet)
    (hrow : s.rows.get task.id = some row) (hold : row.status ≠ .failure)
    (hnew : task.status ≠ .failure) :
    Inv rows₀ { s with rows := s.rows.put task, workers := s.workers.set i w' } := by
  have hmoved := inv_move h hi hw hok hw'
  refine ⟨hmoved.workers, fun v hv => ?_⟩
  have hb := hmoved.balanced v hv
  by_cases hid : v.taskId = task.id
  · rw [hid, hrow] at hb
    rw [hid, get_put_self hrow]
    obtain ⟨hlow, hhigh, honce, -⟩ := hb
    rw [owed_of_not_failure hold] at hlow
    rw [cap_of_not_failure hold] at hhigh
    refine ⟨?_, ?_, honce, ?_⟩
    · rw [owed_of_not_failure hnew]
      exact hlow
    · rw [cap_of_not_failure hnew]
      exact hhigh
    · rintro ⟨t, ht, hf⟩
      cases ht
      exact absurd hf hnew
  · rw [get_put_of_ne hid]
    exact hb

theorem inv_put_failure (h : Inv rows₀ s) (hi : s.workers[i]? = some w) (hw : w.Quiet) (hok : WorkerOk w')
    (halone : alone s i task.id = true) (hrow : s.rows.get task.id = some row)
    (hold : row.status ≠ .failure) (hnew : task.status = .failure)
    (hadvance : ∀ v, w'.advance v = 0)
    (hpending : (∀ v, w'.pending v = unit v task) ∨ (∀ v, w'.pending v = 0) ∧ (task.quota = 0 ∨ task.isLegacy = true)) :
    Inv rows₀ { s with rows := s.rows.put task, workers := s.workers.set i w' } := by
  refine ⟨workers_set h.workers hok, fun v hv => ?_⟩
  have hb := h.balanced v hv
  have hbooked : booked { s with rows := s.rows.put task, workers := s.workers.set i w' } v =
      booked s v + w'.pending v := by
    simp only [booked, total_set _ _ _ _ _ hi, (hw v).1]
    omega
  have hadvanced : advanced { s with rows := s.rows.put task, workers := s.workers.set i w' } v =
      advanced s v := by
    simp only [advanced, total_set _ _ _ _ _ hi, (hw v).2, hadvance v]
    omega
  rw [hbooked, hadvanced]
  by_cases hid : v.taskId = task.id
  · have hzero : advanced s v = 0 := by
      rw [advanced_of_alone hi (hid ▸ halone), (hw v).2]
    rw [hid, hrow] at hb
    obtain ⟨hlow, hhigh, -, -⟩ := hb
    rw [owed_of_not_failure hold] at hlow
    rw [cap_of_not_failure hold] at hhigh
    rw [hid, get_put_self hrow]
    have howed := owed_le_unit v task
    have hunit := unit_nonneg v task
    refine ⟨?_, ?_, by omega, fun _ => hzero⟩
    · rcases hpending with hp | ⟨hp, hnone⟩
      · rw [hp v]
        omega
      · have : owed v (some task) = 0 := by
          rcases hnone with hq | hlegacy
          · simp [owed, unit_of_quota_zero hq]
          · simp [owed, hlegacy]
        rw [hp v]
        omega
    · rw [cap_of_failure hnew]
      rcases hpending with hp | ⟨hp, -⟩
      · rw [hp v]
        omega
      · rw [hp v]
        omega
  · have hother : w'.pending v = 0 := by
      rcases hpending with hp | ⟨hp, -⟩
      · rw [hp v, unit_of_ne hid]
      · exact hp v
    rw [get_put_of_ne hid, hother, add_zero]
    exact hb

theorem updateWithStatus_cases (rows : TaskTable) (fromStatus : TaskStatus) (task : Task) :
    updateWithStatus rows fromStatus task = (false, rows) ∨ ∃ row, rows.get task.id = some row ∧ row.status = fromStatus ∧
        updateWithStatus rows fromStatus task = (true, rows.put task) := by
  unfold updateWithStatus
  split
  · next row hrow =>
    by_cases hs : row.status = fromStatus
    · exact .inr ⟨row, hrow, hs, if_pos hs⟩
    · exact .inl (if_neg hs)
  · exact .inl rfl

variable (actual : Option ℤ)

theorem inv_update {guarded settles refunds poller : Bool} (h : Inv rows₀ s)
    (hi : s.workers[i]? = some (.update fromStatus task guarded settles refunds poller))
    (halone : alone s i task.id = true) :
    Inv rows₀ (exec s i actual (.update fromStatus task guarded settles refunds poller)) := by
  have hquiet : (Worker.update fromStatus task guarded settles refunds poller).Quiet :=
    fun v => ⟨rfl, rfl⟩
  obtain ⟨hfrom, hrefund, hfail⟩ := workerOk_of_get h.workers hi
  rcases updateWithStatus_cases s.rows fromStatus task with hlost | ⟨row, hrow, hstatus, hwon⟩
  · -- lost: a refund is only decided by a guarded update, and that is cancelled
    have hnone : (refunds && (false || !guarded)) = false := by
      cases hr : refunds with
      | false => rfl
      | true => simp [(hfail (hrefund hr).1).1]
    obtain ⟨hok, hq⟩ := billing_quiet task (settles && (false || !guarded)) poller
    simp only [exec, hlost, hnone]
    exact inv_move h hi hquiet hok hq
  · have hold : row.status ≠ .failure := hstatus ▸ hfrom
    simp only [exec, hwon, Bool.true_or, Bool.and_true]
    by_cases hnew : task.status = .failure
    · obtain ⟨-, hsettle, hbill⟩ := hfail hnew
      subst hsettle
      cases hr : refunds with
      | true =>
        refine inv_put_failure h hi hquiet ?_ halone hrow hold hnew (fun v => rfl) (.inl fun v => rfl)
        exact (hrefund hr).2
      | false =>
        obtain ⟨hok, hq⟩ := billing_quiet task false poller
        refine inv_put_failure h hi hquiet hok halone hrow hold hnew (fun v => (hq v).2)
          (.inr ⟨fun v => (hq v).1, ?_⟩)
        rw [hr] at hbill
        exact hbill.resolve_left (by simp)
    · have hnone : refunds = false := by
        by_contra hr
        exact hnew (hrefund (by simpa using hr)).1
      subst hnone
      obtain ⟨hok, hq⟩ := billing_quiet task settles poller
      exact inv_put_live h hi hquiet hok hq hrow hold hnew

/-! ## Refunds -/

theorem inv_refund {poller : Bool} (h : Inv rows₀ s) (hi : s.workers[i]? = some (.refund task poller)) :
    Inv rows₀ (exec s i actual (.refund task poller)) := by
  refine ⟨workers_set h.workers (ok_afterwards task poller), fun v hv => ?_⟩
  have hb := h.balanced v hv
  obtain ⟨hp, ha⟩ := quiet_afterwards task poller v
  have hpending : (Worker.refund task poller).pending v = unit v task := rfl
  have hadvance : (Worker.refund task poller).advance v = 0 := rfl
  have hbooked : booked (exec s i actual (.refund task poller)) v = booked s v := by
    simp only [booked, exec, count_refundTaskQuota, total_set _ _ _ _ _ hi, hp, hpending]
    omega
  have hadvanced : advanced (exec s i actual (.refund task poller)) v = advanced s v := by
    simp only [advanced, exec, total_set _ _ _ _ _ hi, ha, hadvance]
    omega
  rw [hbooked, hadvanced]
  exact hb

theorem not_failed_of_unmoved (h : unmoved s id fromStatus = true) :
    ∃ row, s.rows.get id = some row ∧ row.status = fromStatus := by
  unfold unmoved at h
  split at h
  · next row hrow => exact ⟨row, hrow, by simpa using h⟩
  · cases h

theorem inv_sunoRefund (h : Inv rows₀ s) (hi : s.workers[i]? = some (.sunoRefund fromStatus task))
    (halone : alone s i task.id = true) (hunmoved : unmoved s task.id fromStatus = true) :
    Inv rows₀ (exec s i actual (.sunoRefund fromStatus task)) := by
  obtain ⟨hfrom, hfail⟩ := workerOk_of_get h.workers hi
  obtain ⟨row, hrow, hstatus⟩ := not_failed_of_unmoved hunmoved
  refine ⟨workers_set h.workers ⟨hfrom, fun _ => hfail, by simp⟩, fun v hv => ?_⟩
  obtain ⟨hlow, hhigh, honce, hstored⟩ := h.balanced v hv
  have hbooked : booked (exec s i actual (.sunoRefund fromStatus task)) v =
      booked s v + unit v task := by
    simp only [booked, exec, count_refundTaskQuota, total_set _ _ _ _ _ hi, Worker.pending]
    omega
  have hadvanced : advanced (exec s i actual (.sunoRefund fromStatus task)) v =
      advanced s v + unit v task := by
    simp only [advanced, exec, total_set _ _ _ _ _ hi, Worker.advance]
    omega
  rw [hbooked, hadvanced]
  by_cases hid : v.taskId = task.id
  · have hzero : advanced s v = 0 := advanced_of_alone hi (hid ▸ halone)
    have hunit := unit_le_one v task
    refine ⟨by dsimp only [exec]; omega, by dsimp only [exec]; omega, by omega, ?_⟩
    rintro ⟨t, ht, hf⟩
    change s.rows.get v.taskId = some t at ht
    rw [hid, hrow] at ht
    cases ht
    exact absurd (hstatus.symm.trans hf) hfrom
  · rw [unit_of_ne hid, add_zero, add_zero]
    exact ⟨hlow, hhigh, honce, hstored⟩

theorem inv_sunoSave {refunded : Bool} (h : Inv rows₀ s) (hi : s.workers[i]? = some (.sunoSave fromStatus task refunded))
    (halone : alone s i task.id = true) (hunmoved : unmoved s task.id fromStatus = true) :
    Inv rows₀ (exec s i actual (.sunoSave fromStatus task refunded)) := by
  obtain ⟨hfrom, hfail, hlive⟩ := workerOk_of_get h.workers hi
  obtain ⟨row, hrow, hstatus⟩ := not_failed_of_unmoved hunmoved
  have hold : row.status ≠ .failure := hstatus ▸ hfrom
  cases refunded with
  | false =>
    exact inv_put_live h hi (fun v => ⟨rfl, rfl⟩) trivial (fun v => ⟨rfl, rfl⟩) hrow hold (hlive rfl)
  | true =>
    refine ⟨workers_set h.workers trivial, fun v hv => ?_⟩
    have hb := h.balanced v hv
    have hbooked : booked (exec s i actual (.sunoSave fromStatus task true)) v = booked s v := by
      simp only [booked, exec, total_set _ _ _ _ _ hi, Worker.pending]
      omega
    have hadvanced : advanced (exec s i actual (.sunoSave fromStatus task true)) v =
        advanced s v - unit v task := by
      simp only [advanced, exec, total_set _ _ _ _ _ hi, Worker.advance]
      omega
    rw [hbooked, hadvanced]
    dsimp only [exec]
    by_cases hid : v.taskId = task.id
    · have hown : advanced s v = unit v task := advanced_of_alone hi (hid ▸ halone)
      rw [hid, hrow] at hb
      obtain ⟨hlow, hhigh, -, -⟩ := hb
      rw [owed_of_not_failure hold] at hlow
      rw [cap_of_not_failure hold] at hhigh
      rw [hid, get_put_self hrow]
      have howed := owed_le_unit v task
      refine ⟨by omega, ?_, by omega, fun _ => by omega⟩
      by_cases hq : task.quota = 0
      · have hunit := unit_of_quota_zero (v := v) hq
        have hcap : 0 ≤ cap v (some task) := by
          simp only [cap, hunit, ite_self, le_refl]
        omega
      · rw [cap_of_failure (hfail rfl hq)]
        omega
    · rw [get_put_of_ne hid, unit_of_ne hid, sub_zero]
      exact hb

/-! ## Bulk failures -/

theorem owed_cap_bulkFail_of_failure {reason : Option String} (v : Refund) (h : row.status = .failure) :
    owed v (some (bulkFail ids reason row)) = owed v (some row) ∧ cap v (some (bulkFail ids reason row)) = cap v (some row) ∧
      (bulkFail ids reason row).status = .failure := by
  unfold bulkFail
  split
  · refine ⟨?_, ?_, rfl⟩
    · simp only [owed, h]
      rfl
    · simp only [cap, h]
      rfl
  · exact ⟨rfl, rfl, h⟩

theorem inv_bulk (reason : Option String) (h : Inv rows₀ s) (hids : ∀ id ∈ ids, (∀ w ∈ s.workers, w.ahead id = false) ∧
      ∀ row, s.rows.get id = some row → nothingToRefund row = true) :
    Inv rows₀ { s with rows := s.rows.update (bulkFail ids reason) (bulkFail_id _ _) } := by
  refine ⟨h.workers, fun v hv => ?_⟩
  obtain ⟨hlow, hhigh, honce, hstored⟩ := h.balanced v hv
  change Balanced _ v (booked s v) (advanced s v)
  rw [get_update]
  cases hrow : s.rows.get v.taskId with
  | none =>
    rw [hrow] at hlow hhigh hstored
    exact ⟨hlow, hhigh, honce, hstored⟩
  | some row =>
    rw [hrow] at hlow hhigh hstored
    rw [Option.map_some]
    by_cases hf : row.status = .failure
    · obtain ⟨howed, hcap, -⟩ := owed_cap_bulkFail_of_failure v hf
      exact ⟨howed ▸ hlow, hcap ▸ hhigh, honce, fun _ => hstored ⟨row, rfl, hf⟩⟩
    by_cases hmem : row.id ∈ ids
    · -- the row is failed without a refund, which it does not need
      have hid : row.id = v.taskId := key_of_get hrow
      obtain ⟨hahead, hnothing⟩ := hids v.taskId (hid ▸ hmem)
      have hzero : advanced s v = 0 :=
        total_eq_zero _ _ fun w hw => advance_of_not_ahead (hahead w hw)
      rw [owed_of_not_failure hf] at hlow
      rw [cap_of_not_failure hf] at hhigh
      have hn := hnothing row hrow
      simp only [nothingToRefund, hf, decide_false, Bool.false_or, Bool.or_eq_true,
        decide_eq_true_eq] at hn
      have howed : owed v (some (bulkFail ids reason row)) = 0 := by
        simp only [bulkFail, hmem, if_true, owed]
        rcases hn with hq | hlegacy
        · exact ite_eq_right_iff.mpr fun _ => unit_of_quota_zero hq
        · exact if_neg fun hv => Bool.false_ne_true (hv.2.symm.trans hlegacy)
      have hcap : 0 ≤ cap v (some (bulkFail ids reason row)) := by
        unfold cap
        dsimp only
        split
        · exact unit_nonneg _ _
        · exact le_refl 0
      exact ⟨by omega, by omega, honce, fun _ => hzero⟩
    · have hsame : bulkFail ids reason row = row := if_neg hmem
      rw [hsame]
      exact ⟨hlow, hhigh, honce, hstored⟩

/-! ## Every step -/

theorem step_inv (rows₀ : TaskTable) (s : System) (l : Label) (h : Inv rows₀ s)
    (hsound : sound s l = true) : Inv rows₀ (step s l) := by
  cases l with
  | read i id =>
    simp only [step]
    split
    · next row hi hrow =>
      split
      · exact inv_move h hi (fun v => ⟨rfl, rfl⟩) trivial (fun v => ⟨rfl, rfl⟩)
      · exact h
    · exact h
  | sweepRead i id cutoff =>
    simp only [step]
    split
    · next row hi hrow =>
      split
      · next hread =>
        refine inv_move h hi (fun v => ⟨rfl, rfl⟩) ?_ (fun v => ⟨rfl, rfl⟩)
        intro hf
        simp [Task.unfinished, hf] at hread
      · exact h
    · exact h
  | drop i =>
    simp only [step]
    split
    · next task hi => exact inv_move h hi (fun v => ⟨rfl, rfl⟩) trivial (fun v => ⟨rfl, rfl⟩)
    · exact h
  | sweep i now minutes =>
    simp only [step]
    split
    · next task hi =>
      obtain ⟨hok, hq⟩ := sweepNext_ok now minutes (workerOk_of_get h.workers hi)
      exact inv_move h hi (fun v => ⟨rfl, rfl⟩) hok hq
    · exact h
  | video i serverAddress now answer =>
    simp only [step]
    split
    · next task hi =>
      simp only [sound, hi, decide_eq_true_eq] at hsound
      obtain ⟨hok, hq⟩ := videoNext_ok serverAddress now answer hsound
      exact inv_move h hi (fun v => ⟨rfl, rfl⟩) hok hq
    · exact h
  | suno i item =>
    simp only [step]
    split
    · next task hi =>
      simp only [sound, hi, Bool.and_eq_true, Bool.or_eq_true, decide_eq_true_eq, or_assoc] at hsound
      obtain ⟨hok, hq⟩ := sunoNext_ok hsound.1 hsound.2
      exact inv_move h hi (fun v => ⟨rfl, rfl⟩) hok hq
    · exact h
  | exec i actual =>
    simp only [step]
    split
    · next worker hi =>
      cases worker with
      | idle | copy | swept => exact h
      | update fromStatus task guarded settles refunds poller =>
        simp only [sound, hi] at hsound
        exact inv_update actual h hi hsound
      | settle task => exact inv_move h hi (fun v => ⟨rfl, rfl⟩) trivial (fun v => ⟨rfl, rfl⟩)
      | refund task poller => exact inv_refund actual h hi
      | sunoRefund fromStatus task =>
        simp only [sound, hi, Bool.and_eq_true] at hsound
        exact inv_sunoRefund actual h hi hsound.1 hsound.2
      | sunoSave fromStatus task refunded =>
        simp only [sound, hi, Bool.and_eq_true] at hsound
        exact inv_sunoSave actual h hi hsound.1 hsound.2
    · exact h
  | bulk is reason =>
    refine inv_bulk reason h fun id hid => ?_
    have hboth := all_eq_true.mp hsound id hid
    simp only [Bool.and_eq_true, all_eq_true, Bool.not_eq_true'] at hboth
    refine ⟨hboth.1, fun row hrow => ?_⟩
    simpa [hrow] using hboth.2

/-! ## A stored failure stays -/

theorem failed_put (hrow : s.rows.get task.id = some row) (hold : row.status ≠ .failure) (hf : failed (s.rows.get id)) :
    failed ((s.rows.put task).get id) := by
  by_cases hid : id = task.id
  · obtain ⟨old, hget, hfail⟩ := hf
    rw [hid, hrow] at hget
    cases hget
    exact absurd hfail hold
  · rw [get_put_of_ne hid]
    exact hf

theorem failed_exec (hok : ∀ w ∈ s.workers, WorkerOk w) (hi : s.workers[i]? = some w)
    (hsound : sound s (.exec i actual) = true) (hf : failed (s.rows.get id)) :
    failed ((exec s i actual w).rows.get id) := by
  cases w with
  | idle | copy | swept | settle | refund | sunoRefund => exact hf
  | update fromStatus task guarded settles refunds poller =>
    obtain ⟨hfrom, -, -⟩ := workerOk_of_get hok hi
    rcases updateWithStatus_cases s.rows fromStatus task with hlost | ⟨row, hrow, hstatus, hwon⟩
    · simp only [exec, hlost]
      exact hf
    · simp only [exec, hwon]
      exact failed_put hrow (hstatus ▸ hfrom) hf
  | sunoSave fromStatus task refunded =>
    obtain ⟨hfrom, -, -⟩ := workerOk_of_get hok hi
    simp only [sound, hi, Bool.and_eq_true] at hsound
    obtain ⟨row, hrow, hstatus⟩ := not_failed_of_unmoved hsound.2
    exact failed_put hrow (hstatus ▸ hfrom) hf

theorem failed_step {l : Label} (hok : ∀ w ∈ s.workers, WorkerOk w)
    (hsound : sound s l = true) (hf : failed (s.rows.get id)) : failed ((step s l).rows.get id) := by
  cases l with
  | read | sweepRead =>
    simp only [step]
    split
    · split <;> exact hf
    · exact hf
  | drop | sweep | video | suno =>
    simp only [step]
    split <;> exact hf
  | exec i actual =>
    simp only [step]
    split
    · next w hi => exact failed_exec actual hok hi hsound hf
    · exact hf
  | bulk is reason =>
    obtain ⟨row, hrow, hfail⟩ := hf
    simp only [step]
    rw [get_update, hrow]
    exact ⟨_, rfl, (owed_cap_bulkFail_of_failure (refundOf row) hfail).2.2⟩

theorem failed_run {ls : List Label} (h : Inv rows₀ s)
    (hsound : Along step (fun s l => sound s l = true) s ls) (hf : failed (s.rows.get id)) :
    failed ((run step s ls).rows.get id) := by
  have hboth : Inv rows₀ (run step s ls) ∧ failed ((run step s ls).rows.get id) :=
    run_invariant
      (fun s l (hs : Inv rows₀ s ∧ failed (s.rows.get id)) hl => ⟨step_inv rows₀ s l hs.1 hl, failed_step hs.1.workers hl hs.2⟩) ⟨h, hf⟩ hsound
  exact hboth.2

/-! ## Exactly once -/

/-- The worker owes the ledger a refund of the task, or the table the failure it has refunded. -/
def Worker.busy (id : ℤ) : Worker → Bool
  | .refund task _ => task.id = id
  | .sunoSave _ task true => task.id = id
  | _ => false

def refundsOf (s : System) (id : ℤ) : List Refund := s.ledger.filter fun v => v.taskId = id

theorem quiet_of_not_busy (h : w.busy v.taskId = false) : w.pending v = 0 ∧ w.advance v = 0 := by
  cases w with
  | refund task poller =>
    refine ⟨unit_of_ne fun he => ?_, rfl⟩
    simp [Worker.busy, he] at h
  | sunoSave fromStatus task refunded =>
    cases refunded with
    | false => exact ⟨rfl, rfl⟩
    | true =>
      refine ⟨rfl, unit_of_ne fun he => ?_⟩
      simp [Worker.busy, he] at h
  | idle | copy | swept | update | settle | sunoRefund => exact ⟨rfl, rfl⟩

theorem count_of_idle (h : Inv rows₀ s) (hfresh : Fresh rows₀ v.taskId) (hidle : ∀ w ∈ s.workers, w.busy v.taskId = false) :
    owed v (s.rows.get v.taskId) ≤ s.ledger.count v ∧ (s.ledger.count v : ℤ) ≤ cap v (s.rows.get v.taskId) := by
  obtain ⟨hlow, hhigh, -, -⟩ := h.balanced v hfresh
  have hp := total_eq_zero (Worker.pending v) s.workers fun w hw => (quiet_of_not_busy (hidle w hw)).1
  have ha := total_eq_zero (Worker.advance v) s.workers fun w hw => (quiet_of_not_busy (hidle w hw)).2
  unfold booked advanced at hlow hhigh
  constructor <;> omega

theorem count_refundsOf (s : System) (id : ℤ) (v : Refund) :
    (refundsOf s id).count v = if v.taskId = id then s.ledger.count v else 0 := by
  unfold refundsOf
  by_cases hid : v.taskId = id
  · rw [if_pos hid, count_filter (by simpa using hid)]
  · rw [if_neg hid, count_eq_zero]
    intro hmem
    exact hid (by simpa using (mem_filter.mp hmem).2)

def StoredAsFailure (s : System) (ls : List Label) (id : ℤ) : Prop :=
  ∃ before after, ls = before ++ after ∧ failed ((run step s before).rows.get id)

theorem inv_start (rows : TaskTable) (n : ℕ) : Inv rows ⟨rows, List.replicate n .idle, []⟩ := by
  have hidle : ∀ w ∈ replicate n Worker.idle, w = .idle := fun w hw => eq_of_mem_replicate hw
  refine ⟨fun w hw => by rw [hidle w hw]; trivial, fun v hv => ?_⟩
  have hbooked : booked ⟨rows, replicate n .idle, []⟩ v = 0 := by
    have := total_eq_zero (Worker.pending v) (replicate n .idle) fun w hw => by rw [hidle w hw]; rfl
    simp only [booked, this, count_nil]
    rfl
  have hadvanced : advanced ⟨rows, replicate n .idle, []⟩ v = 0 :=
    total_eq_zero (Worker.advance v) (replicate n .idle) fun w hw => by rw [hidle w hw]; rfl
  rw [hbooked, hadvanced]
  cases hrow : rows.get v.taskId with
  | none => exact ⟨le_refl 0, le_refl 0, zero_le_one, fun _ => rfl⟩
  | some row =>
    have hf : row.status ≠ .failure := fun hf => hv ⟨row, hrow, hf⟩
    refine ⟨?_, ?_, zero_le_one, fun _ => rfl⟩
    · rw [owed_of_not_failure hf, add_zero]
    · rw [cap_of_not_failure hf, add_zero]

theorem refundsOf_of_idle (h : Inv rows₀ s) (hrow : s.rows.get row.id = some row) (hfresh : Fresh rows₀ row.id)
    (hidle : ∀ w ∈ s.workers, w.busy row.id = false) :
    (row.status = .failure → row.isLegacy = false → row.quota ≠ 0 → refundsOf s row.id = [refundOf row]) ∧
      (row.status ≠ .failure → refundsOf s row.id = []) := by
  have hcount : ∀ v : Refund, v.taskId = row.id →
      owed v (some row) ≤ s.ledger.count v ∧ (s.ledger.count v : ℤ) ≤ cap v (some row) := by
    intro v hv
    have := count_of_idle h (hv ▸ hfresh) (by rw [hv]; exact hidle)
    rwa [hv, hrow] at this
  constructor
  · intro hf hlegacy hq
    refine perm_singleton.mp (perm_iff_count.mpr fun v => ?_)
    rw [count_refundsOf, count_singleton]
    by_cases hv : refundOf row = v
    · subst hv
      obtain ⟨hlow, hhigh⟩ := hcount (refundOf row) rfl
      have hunit : unit (refundOf row) row = 1 := if_pos ⟨hq, rfl⟩
      have howed : owed (refundOf row) (some row) = 1 := (if_pos ⟨hf, hlegacy⟩).trans hunit
      rw [cap_of_failure hf] at hhigh
      rw [if_pos (by rfl), if_pos (by simp)]
      omega
    · have hne : ¬ (refundOf row == v) = true := by simpa using hv
      split
      · next hid =>
        have hhigh := (hcount v hid).2
        have hunit : unit v row = 0 := if_neg fun hu => hv hu.2
        rw [cap_of_failure hf] at hhigh
        omega
      · rfl
  · intro hf
    refine perm_nil.mp (perm_iff_count.mpr fun v => ?_)
    rw [count_refundsOf, count_nil]
    split
    · next hv =>
      have := (hcount v hv).2
      rw [cap_of_not_failure hf] at this
      omega
    · rfl

/-- **Exactly-once refunds.** In a run of sound steps, from any table with any workers, take a task not failed before, once
none is billing it. Stored as a failure, not legacy and with quota, it was refunded exactly once, by that quota to its
source; never stored so, not at all. -/
theorem failed_tasks_refunded_once (rows₀ : TaskTable) (n : ℕ) (ls : List Label) (row : Task)
    (hsound : Along step (fun s l => sound s l = true) ⟨rows₀, List.replicate n .idle, []⟩ ls)
    (hrow : (run step ⟨rows₀, List.replicate n .idle, []⟩ ls).rows.get row.id = some row)
    (hfresh : Fresh rows₀ row.id)
    (hidle : ∀ w ∈ (run step ⟨rows₀, List.replicate n .idle, []⟩ ls).workers, w.busy row.id = false) :
    (StoredAsFailure ⟨rows₀, List.replicate n .idle, []⟩ ls row.id → row.isLegacy = false → row.quota ≠ 0 →
        refundsOf (run step ⟨rows₀, List.replicate n .idle, []⟩ ls) row.id = [refundOf row]) ∧
      (¬ StoredAsFailure ⟨rows₀, List.replicate n .idle, []⟩ ls row.id →
        refundsOf (run step ⟨rows₀, List.replicate n .idle, []⟩ ls) row.id = []) := by
  have hinit := inv_start rows₀ n
  have hledger := refundsOf_of_idle (run_invariant (step_inv rows₀) hinit hsound) hrow hfresh hidle
  constructor
  · rintro ⟨before, after, rfl, hf⟩ hlegacy hq
    refine hledger.1 ?_ hlegacy hq
    obtain ⟨hbefore, hafter⟩ := (along_append _ _ _ _ _).mp hsound
    have hfinal := failed_run (run_invariant (step_inv rows₀) hinit hbefore) hafter hf
    rw [← run_append, hrow] at hfinal
    obtain ⟨task, htask, hfail⟩ := hfinal
    cases htask
    exact hfail
  · intro hnever
    refine hledger.2 fun hf => hnever ⟨ls, [], (append_nil ls).symm, row, hrow, hf⟩

/-! One task with 100 units of quota from the wallet of user 7. -/

def sampleTask : Task where
  id := 1
  taskID := "task_a"
  userId := 7
  quota := 100
  status := .inProgress
  failReason := ""
  submitTime := 1750000000
  startTime := 1750000001
  finishTime := 0
  progress := "30%"
  data := ""
  resultURL := ""
  fromSubscription := false
  subscriptionId := 0
  tokenId := 3

def sampleRows : TaskTable := ⟨[sampleTask], by decide⟩

/-- A poller and a sweep fail the task at the same time; the poller's update wins. -/
def sampleRun : List Label :=
  [.read 0 1, .sweepRead 1 1 1760000000,
    .video 0 "" 1760000000 (.parsed (failTaskInfo "bad prompt") "" .notJson), .sweep 1 1760000000 60,
    .exec 0 none, .exec 1 none, .exec 0 none]

theorem failed_tasks_refunded_once_race :
    refundsOf (run step ⟨sampleRows, [.idle, .idle], []⟩ sampleRun) 1 = [⟨1, .wallet 7, 3, 100⟩] := by
  refine (failed_tasks_refunded_once sampleRows 2 sampleRun
    { sampleTask with status := .failure, failReason := "bad prompt", progress := "100%"
                      finishTime := 1760000000 } (by decide) (by decide) ?_ (by decide)).1 ?_ (by decide) (by decide)
  · rintro ⟨task, htask, hf⟩
    cases htask
    cases hf
  · exact ⟨sampleRun, [], rfl, _, rfl, rfl⟩

/-- The channel of the task cannot be loaded: the bulk update fails it and no one refunds it. -/
theorem bulk_failure_not_refunded : (∃ row, (run step ⟨sampleRows, [.idle], []⟩
        [.read 0 1, .bulk [0] (some "Failed to get channel info, channel ID: 5")]).rows.get 1 = some row ∧
          row.status = .failure ∧ row.isLegacy = false ∧ row.quota = 100) ∧
      (∀ w ∈ (run step ⟨sampleRows, [.idle], []⟩
        [.read 0 1, .bulk [0] (some "Failed to get channel info, channel ID: 5")]).workers, w.busy 1 = false) ∧
      refundsOf (run step ⟨sampleRows, [.idle], []⟩
        [.read 0 1, .bulk [0] (some "Failed to get channel info, channel ID: 5")]) 1 = [] :=
  ⟨⟨_, rfl, rfl, rfl, rfl⟩, by decide, by decide⟩

end HotAI.Tasks
