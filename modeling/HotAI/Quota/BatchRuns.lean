import HotAI.Quota.Batch

/-! # Batched and direct accounting agree

Every step of the batched mode does to the columns with what is pending what the direct mode does to the
columns. A flush that runs to its end while no caller interferes leaves nothing pending. -/
namespace HotAI.Quota
open HotAI.Lib List

/-! ## What a step does -/

theorem batchUpdateStep_plus (b : Batched) (pick : ℕ) :
    (batchUpdateStep b pick).db.plus (batchUpdateStep b pick).pending = b.db.plus b.pending := by
  obtain ⟨-, -, flusher⟩ := b
  rcases flusher with _ | ⟨_ | ⟨-, -⟩⟩ | ⟨⟨_ | ⟨t, -⟩, -, -, fresh⟩⟩ | ⟨_ | ⟨-, -⟩⟩
  · rfl
  · rfl
  · simp only [batchUpdateStep]
    split
    · rfl
    · rfl
  · simp only [batchUpdateStep]
    congr 1
    funext t id
    simp only [Batched.pending, Flusher.pending, total_updatesOf]
  · simp only [batchUpdateStep]
    congr 1
    funext u id
    simp only [Batched.pending, Flusher.pending]
    by_cases hu : u = t
    · subst hu
      simp only [Function.update_self, fresh u (mem_cons_self ..), amount_empty]
      ring
    · simp only [Function.update_of_ne hu]
  · rfl
  · simp only [batchUpdateStep]
    split
    · rfl
    · next update hpick =>
      simp only [Update.apply_eq, Columns.plus_plus]
      congr 1
      funext t id
      simp only [Batched.pending, Flusher.pending, Pi.add_apply, total_eraseIdx _ _ _ _ hpick]
      ring

theorem pending_addNewRecord (b : Batched) (t : BatchType) (id value : ℤ) :
    (b.addNewRecord t id value).pending = b.pending + single t id value := by
  funext u i
  simp only [Batched.pending, Batched.addNewRecord, Pi.add_apply, single]
  by_cases hu : u = t
  · subst hu
    simp only [Function.update_self, amount_record, true_and]
    ring
  · simp only [Function.update_of_ne hu, hu, false_and, if_false, add_zero]

theorem addNewRecord_plus (b : Batched) (t : BatchType) (id value : ℤ) :
    (b.addNewRecord t id value).db.plus (b.addNewRecord t id value).pending =
      (b.db.plus b.pending).plus (single t id value) := by
  rw [pending_addNewRecord, Columns.plus_plus]
  rfl

variable (db : Columns) (stores : BatchType → BatchStore)

theorem plus_now (pending now : BatchType → ℤ → ℤ) : (db.plus now).plus pending = (db.plus pending).plus now := by
  rw [Columns.plus_plus, Columns.plus_plus, add_comm]

theorem single_zero (t : BatchType) (id : ℤ) : single t id 0 = 0 := by
  funext u i
  simp [single]

theorem batchedStep_plus (b : Batched) (l : QuotaStep) :
    (batchedStep b l).db.plus (batchedStep b l).pending = directStep (b.db.plus b.pending) l := by
  cases l with
  | increaseUserQuota id quota db =>
    simp only [batchedStep, directStep, Columns.increaseUserQuota_eq]
    split
    · rfl
    · cases db
      · exact addNewRecord_plus ..
      · exact plus_now ..
  | decreaseUserQuota id quota db =>
    simp only [batchedStep, directStep, Columns.decreaseUserQuota_eq]
    split
    · rfl
    · cases db
      · exact addNewRecord_plus ..
      · exact plus_now ..
  | increaseTokenQuota id quota =>
    simp only [batchedStep, directStep, Columns.increaseTokenQuota_eq]
    split
    · rfl
    · exact addNewRecord_plus ..
  | decreaseTokenQuota id quota =>
    simp only [batchedStep, directStep, Columns.decreaseTokenQuota_eq]
    split
    · rfl
    · exact addNewRecord_plus ..
  | addUsedQuota id quota =>
    simp only [batchedStep, directStep, Columns.updateUserUsedQuotaAndRequestCount_eq, single_zero, add_zero]
    exact addNewRecord_plus ..
  | addRequestCount id =>
    simp only [batchedStep, directStep, Columns.updateUserUsedQuotaAndRequestCount_eq, single_zero, zero_add]
    exact addNewRecord_plus ..
  | updateChannelUsedQuota id quota =>
    simp only [batchedStep, directStep, Columns.updateChannelUsedQuota_eq]
    exact addNewRecord_plus ..
  | flush pick => exact batchUpdateStep_plus b pick

theorem batched_run_plus (b : Batched) (ls : List QuotaStep) :
    (run batchedStep b ls).db.plus (run batchedStep b ls).pending = run directStep (b.db.plus b.pending) ls :=
  (foldl_hom (fun b : Batched => b.db.plus b.pending) fun b l => (batchedStep_plus b l).symm).symm

/-! ## A flush that no caller interferes with -/

def QuotaStep.isFlush : QuotaStep → Bool
  | .flush _ => true
  | _ => false

def Swept (b : Batched) : Prop :=
  match b.flusher with
  | .idle => ∀ t, b.stores t = Table.empty
  | .checking left => ∀ t, t ∉ left → b.stores t = Table.empty
  | .swapping swap => ∀ t, t ∉ swap.left → b.stores t = Table.empty
  | .applying _ => ∀ t, b.stores t = Table.empty

theorem mem_batchTypes (t : BatchType) : t ∈ batchTypes := by cases t <;> decide

theorem eq_empty_of_rows {store : BatchStore} (h : store.rows = []) : store = Table.empty := by
  obtain ⟨rows, unique⟩ := store
  subst h
  rfl

variable {b : Batched} {fs : List QuotaStep}

theorem batchUpdateStep_swept (h : Swept b) (pick : ℕ) : Swept (batchUpdateStep b pick) := by
  obtain ⟨db, stores, flusher⟩ := b
  rcases flusher with _ | ⟨_ | ⟨t, left⟩⟩ | ⟨⟨_ | ⟨t, left⟩, taken, nodup, fresh⟩⟩ | ⟨_ | ⟨first, rest⟩⟩
  · exact fun t ht => absurd (mem_batchTypes t) ht
  · exact fun t => h t not_mem_nil
  · simp only [batchUpdateStep]
    split
    · next hrows =>
      intro u hu
      by_cases hut : u = t
      · exact hut ▸ eq_empty_of_rows hrows
      · exact h u (fun hmem => (mem_cons.mp hmem).elim hut hu)
    · exact fun u hu => absurd (mem_batchTypes u) hu
  · exact fun t => h t not_mem_nil
  · intro u hu
    change Function.update stores t Table.empty u = Table.empty
    by_cases hut : u = t
    · rw [hut, Function.update_self]
    · rw [Function.update_of_ne hut]
      exact h u (fun hmem => (mem_cons.mp hmem).elim hut hu)
  · exact h
  · simp only [batchUpdateStep]
    split
    · exact h
    · exact h

theorem flush_run_swept (h : Swept b) (hfs : ∀ f ∈ fs, f.isFlush) : Swept (run batchedStep b fs) := by
  induction fs generalizing b with
  | nil => exact h
  | cons f fs ih =>
    have hf := hfs f (mem_cons_self ..)
    cases f with
    | flush pick => exact ih (batchUpdateStep_swept h pick) (fun g hg => hfs g (mem_cons_of_mem _ hg))
    | _ => cases hf

theorem settled_of_swept (h : Swept b) (hidle : b.flusher = .idle) : b.db.plus b.pending = b.db := by
  have hzero : b.pending = 0 := by
    funext t id
    unfold Swept at h
    rw [hidle] at h
    simp [Batched.pending, hidle, h t, amount_empty, Flusher.pending]
  rw [hzero, Columns.plus_zero]

theorem direct_flushes (hfs : ∀ f ∈ fs, f.isFlush) : run directStep db fs = db := by
  induction fs with
  | nil => rfl
  | cons f fs ih =>
    have hf := hfs f (mem_cons_self ..)
    cases f with
    | flush pick => exact ih (fun g hg => hfs g (mem_cons_of_mem _ hg))
    | _ => cases hf

/-- Steps of the flush from an idle loop until it is idle again. -/
structure FlushFrom (b : Batched) (fs : List QuotaStep) : Prop where
  begun : fs ≠ []
  alone : ∀ f ∈ fs, f.isFlush
  ended : (run batchedStep b fs).flusher = .idle

theorem flush_settles (hidle : b.flusher = .idle) (h : FlushFrom b fs) :
    (run batchedStep b fs).db = b.db.plus b.pending := by
  have hswept : Swept (run batchedStep b fs) := by
    cases fs with
    | nil => exact absurd rfl h.begun
    | cons f fs =>
      have hf := h.alone f (mem_cons_self ..)
      cases f with
      | flush pick =>
        rw [run_cons]
        refine flush_run_swept ?_ (fun g hg => h.alone g (mem_cons_of_mem _ hg))
        -- the first step only starts the check of all types
        simp only [batchedStep, batchUpdateStep, hidle]
        exact fun t ht => absurd (mem_batchTypes t) ht
      | _ => cases hf
  rw [← settled_of_swept hswept h.ended, batched_run_plus, direct_flushes _ h.alone]

/-! ### Every flush ends -/

def Ends (b : Batched) : Prop := ∃ n, (run batchedStep b (List.replicate n (.flush 0))).flusher = .idle

theorem Ends.of_step (h : Ends (batchUpdateStep b 0)) : Ends b := by
  obtain ⟨n, hn⟩ := h
  exact ⟨n + 1, hn⟩

theorem ends_applying (updates : List Update) : Ends ⟨db, stores, .applying updates⟩ := by
  induction updates generalizing db with
  | nil => exact ⟨1, rfl⟩
  | cons first rest ih => exact .of_step (ih _)

theorem ends_swapping (left : List BatchType)
    (taken : BatchType → BatchStore) (nodup : left.Nodup) (fresh : ∀ t ∈ left, taken t = Table.empty) :
    Ends ⟨db, stores, .swapping ⟨left, taken, nodup, fresh⟩⟩ := by
  induction left generalizing stores taken with
  | nil => exact .of_step (ends_applying ..)
  | cons t left ih => exact .of_step (ih _ _ _ _)

theorem ends_checking (left : List BatchType) : Ends ⟨db, stores, .checking left⟩ := by
  induction left with
  | nil => exact ⟨1, rfl⟩
  | cons t left ih =>
    refine .of_step ?_
    simp only [batchUpdateStep]
    split
    · exact ih
    · exact ends_swapping ..

theorem exists_flush (hidle : b.flusher = .idle) : ∃ fs, FlushFrom b fs := by
  obtain ⟨db, stores, flusher⟩ := b
  subst hidle
  obtain ⟨n, hn⟩ := ends_checking db stores batchTypes
  refine ⟨replicate (n + 1) (.flush 0), by simp, ?_, hn⟩
  intro f hf
  rw [eq_of_mem_replicate hf]
  rfl

/-- In every interleaving columns plus pending are the direct mode's columns, and a flush after the last call, which exists,
brings the columns there. -/
theorem batched_quota_matches_direct (db : Columns) (ls : List QuotaStep) :
    (run batchedStep (.start db) ls).db.plus (run batchedStep (.start db) ls).pending = run directStep db ls ∧
      ((run batchedStep (.start db) ls).flusher = .idle → (∃ fs, FlushFrom (run batchedStep (.start db) ls) fs) ∧
        ∀ fs, FlushFrom (run batchedStep (.start db) ls) fs →
          (run batchedStep (.start db) (ls ++ fs)).db = run directStep db ls) := by
  have hplus : (run batchedStep (.start db) ls).db.plus (run batchedStep (.start db) ls).pending =
      run directStep db ls := by
    have hstart : (Batched.start db).db.plus (Batched.start db).pending = db := db.plus_zero
    rw [batched_run_plus, hstart]
  refine ⟨hplus, fun hidle => ⟨exists_flush hidle, fun fs hfs => ?_⟩⟩
  rw [run_append, flush_settles hidle hfs, hplus]

def sampleColumns : Columns where
  users id := if id = 1 then some ⟨100, 0, 0⟩ else none
  tokens id := if id = 7 then some ⟨50, 0⟩ else none
  channels _ := none

/-- A token is charged again while a flush is about to write its first charge. -/
def sampleCalls : List QuotaStep :=
  [.decreaseUserQuota 1 10 false, .decreaseTokenQuota 7 10, .addUsedQuota 1 10] ++
    List.replicate 8 (.flush 0) ++ [.addRequestCount 1, .decreaseTokenQuota 7 5] ++ List.replicate 3 (.flush 0)

def sampleFlush : List QuotaStep := List.replicate 12 (.flush 0)

theorem batched_quota_matches_direct_two_flushes : (run batchedStep (.start sampleColumns) (sampleCalls ++ sampleFlush)).db =
        run directStep sampleColumns sampleCalls ∧
      (run directStep sampleColumns sampleCalls).users 1 = some ⟨90, 10, 1⟩ ∧
      (run directStep sampleColumns sampleCalls).tokens 7 = some ⟨35, 15⟩ :=
  ⟨((batched_quota_matches_direct sampleColumns sampleCalls).2 rfl).2 sampleFlush
    ⟨by decide, by decide, rfl⟩, by decide, by decide⟩

end HotAI.Quota
