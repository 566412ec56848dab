import HotAI.Lib.Threads

/-! # Files of the disk cache (`common/body_storage.go`, `common/disk_cache.go`)

A request body that is kept on disk has a file of its own, which goes when the storage is closed or a clean-up pass finds
it too old. Both count it out. -/
namespace HotAI.DiskCache
open HotAI.Lib List

/-- The part of `DiskCacheStats` that is about files. -/
structure Stats where
  activeDiskFiles : ℤ
  currentDiskUsageBytes : ℤ
deriving DecidableEq

def incrementDiskFiles (stats : Stats) (size : ℤ) : Stats := ⟨stats.activeDiskFiles + 1, stats.currentDiskUsageBytes + size⟩

def decrementDiskFiles (stats : Stats) (size : ℤ) : Stats where
  activeDiskFiles := if stats.activeDiskFiles - 1 < 0 then 0 else stats.activeDiskFiles - 1
  currentDiskUsageBytes := if stats.currentDiskUsageBytes - size < 0 then 0 else stats.currentDiskUsageBytes - size

/-- A `diskStorage` with its file, whose name no other storage has. -/
structure DiskStorage where
  size : ℕ
  modTime : ℤ
  fileExists : Bool
  closed : Bool
deriving DecidableEq

structure Cache where
  storages : List DiskStorage
  stats : Stats

def newDiskStorage (c : Cache) (size : ℕ) (now : ℤ) : Cache :=
  ⟨c.storages ++ [⟨size, now, true, false⟩], incrementDiskFiles c.stats size⟩

/-- `size` is what the reader has; the file of a body that is too large is removed again. -/
def newDiskStorageFromReader (c : Cache) (size : ℕ) (maxBytes now : ℤ) : Cache :=
  if size > maxBytes then c else newDiskStorage c size now

/-- `diskStorage.Close`; that there may be no file left to remove goes unnoticed. -/
def close (c : Cache) (i : ℕ) : Cache :=
  match c.storages[i]? with
  | some d =>
      if d.closed then c
      else ⟨c.storages.set i { d with fileExists := false, closed := true }, decrementDiskFiles c.stats d.size⟩
  | none => c

def cleanupFiles (expired : DiskStorage → Bool) : List DiskStorage → Stats → List DiskStorage × Stats
  | [], stats => ([], stats)
  | d :: rest, stats =>
      if d.fileExists && expired d then
        let (others, stats) := cleanupFiles expired rest (decrementDiskFiles stats d.size)
        ({ d with fileExists := false } :: others, stats)
      else
        let (others, stats) := cleanupFiles expired rest stats
        (d :: others, stats)

def cleanupOldDiskCacheFiles (c : Cache) (maxAge now : ℤ) : Cache :=
  let (storages, stats) := cleanupFiles (fun d => maxAge < now - d.modTime) c.storages c.stats
  ⟨storages, stats⟩

/-- A body that is kept in memory is no concern of the disk's counters. -/
inductive Op where
  | newMemoryStorage (size : ℕ)
  | newDiskStorage (size : ℕ) (now : ℤ)
  | newDiskStorageFromReader (size : ℕ) (maxBytes now : ℤ)
  | close (i : ℕ)
  | cleanup (maxAge now : ℤ)

def step (c : Cache) : Op → Cache
  | .newMemoryStorage _ => c
  | .newDiskStorage size now => newDiskStorage c size now
  | .newDiskStorageFromReader size maxBytes now => newDiskStorageFromReader c size maxBytes now
  | .close i => close c i
  | .cleanup maxAge now => cleanupOldDiskCacheFiles c maxAge now

/-! ## What is counted -/

def counted (d : DiskStorage) : ℤ := if d.fileExists then 1 else 0

def bytes (d : DiskStorage) : ℤ := if d.fileExists then d.size else 0

/-- The counters are the number and the total size of the files that exist. -/
def Accounted (c : Cache) : Prop := c.stats = ⟨total counted c.storages, total bytes c.storages⟩

instance (c : Cache) : Decidable (Accounted c) := inferInstanceAs (Decidable (_ = _))

/-- A storage whose file a clean-up pass has removed is closed only when no file is left. -/
def Harmless (c : Cache) : Op → Prop
  | .close i => ∀ d ∈ c.storages[i]?, d.closed = false → d.fileExists = true ∨ ∀ e ∈ c.storages, e.fileExists = false
  | _ => True

theorem counted_nonneg (d : DiskStorage) : 0 ≤ counted d := by
  unfold counted
  split <;> simp

theorem bytes_nonneg (d : DiskStorage) : 0 ≤ bytes d := by
  unfold bytes
  split <;> simp

theorem total_counted_eq_zero {ds : List DiskStorage} : total counted ds = 0 ↔ ∀ d ∈ ds, d.fileExists = false := by
  constructor
  · intro h d hd
    have hle := weight_le_total counted ds d hd fun d _ => counted_nonneg d
    cases hfile : d.fileExists with
    | false => rfl
    | true =>
      rw [counted, hfile, if_pos rfl] at hle
      omega
  · intro h
    exact total_eq_zero counted ds fun d hd => by simp [counted, h d hd]

theorem accounted_new {c : Cache} (h : Accounted c) (size : ℕ) (now : ℤ) : Accounted (newDiskStorage c size now) := by
  simp [Accounted, newDiskStorage, incrementDiskFiles, total_append, show c.stats = _ from h, counted, bytes]

theorem accounted_close_iff {c : Cache} (h : Accounted c) (i : ℕ) : Accounted (close c i) ↔ Harmless c (.close i) := by
  simp only [close, Harmless]
  cases hget : c.storages[i]? with
  | none => simp [h]
  | some d =>
    have hmem := mem_of_getElem? hget
    have hcount := weight_le_total counted c.storages d hmem fun d _ => counted_nonneg d
    have hbytes := weight_le_total bytes c.storages d hmem fun d _ => bytes_nonneg d
    cases hclosed : d.closed with
    | true => simp [h, hclosed]
    | false =>
      simp only [Accounted, Bool.false_eq_true, if_false, total_set _ _ _ _ _ hget, show c.stats = _ from h,
        decrementDiskFiles, Stats.mk.injEq, Option.mem_some, forall_eq', hclosed, forall_const, ← total_counted_eq_zero]
      cases hfile : d.fileExists with
      | true =>
        simp only [counted, bytes, hfile, if_true, Bool.false_eq_true, if_false, true_or, iff_true] at hcount hbytes ⊢
        constructor <;> split <;> omega
      | false =>
        -- the file was counted out before, so the counters go down for nothing
        have hnonneg := total_nonneg counted c.storages fun d _ => counted_nonneg d
        have hempty : total counted c.storages = 0 → total bytes c.storages = 0 := fun hzero =>
          total_eq_zero bytes _ fun e he => by simp [bytes, total_counted_eq_zero.mp hzero e he]
        simp only [counted, bytes, hfile, Bool.false_eq_true, if_false, false_or]
        constructor
        · rintro ⟨hactive, -⟩
          split at hactive <;> omega
        · intro hzero
          rw [hempty hzero, hzero]
          constructor <;> split <;> omega

theorem cleanupFiles_stats (expired : DiskStorage → Bool) (ds : List DiskStorage) {a b : ℤ} (ha : 0 ≤ a) (hb : 0 ≤ b) :
    (cleanupFiles expired ds ⟨a + total counted ds, b + total bytes ds⟩).2 =
      ⟨a + total counted (cleanupFiles expired ds ⟨a + total counted ds, b + total bytes ds⟩).1,
        b + total bytes (cleanupFiles expired ds ⟨a + total counted ds, b + total bytes ds⟩).1⟩ := by
  induction ds generalizing a b with
  | nil => rfl
  | cons d rest ih =>
    have hcount := total_nonneg counted rest fun d _ => counted_nonneg d
    have hbytes := total_nonneg bytes rest fun d _ => bytes_nonneg d
    rw [cleanupFiles, total_cons, total_cons]
    split
    · next hfile =>
      have hd : d.fileExists = true := (Bool.and_eq_true_iff.mp hfile).1
      have hstats : decrementDiskFiles ⟨a + (counted d + total counted rest), b + (bytes d + total bytes rest)⟩ d.size =
          ⟨a + total counted rest, b + total bytes rest⟩ := by
        simp only [decrementDiskFiles, counted, bytes, hd, if_true, Stats.mk.injEq]
        constructor <;> split <;> omega
      simp only [hstats, ih ha hb, total_cons]
      simp [counted, bytes]
    · have hih := ih (Int.add_nonneg ha (counted_nonneg d)) (Int.add_nonneg hb (bytes_nonneg d))
      simp only [Int.add_assoc] at hih
      simp only [hih, total_cons]

theorem accounted_step_iff {c : Cache} (h : Accounted c) (op : Op) : Accounted (step c op) ↔ Harmless c op := by
  cases op with
  | newMemoryStorage => exact iff_of_true h trivial
  | newDiskStorage size now => exact iff_of_true (accounted_new h size now) trivial
  | newDiskStorageFromReader size maxBytes now =>
    refine iff_of_true ?_ trivial
    rw [step, newDiskStorageFromReader]
    split
    · exact h
    · exact accounted_new h size now
  | close i => exact accounted_close_iff h i
  | cleanup maxAge now =>
    have hstats := cleanupFiles_stats (fun d => maxAge < now - d.modTime) c.storages (Int.le_refl 0) (Int.le_refl 0)
    simp only [Int.zero_add] at hstats
    refine iff_of_true ?_ trivial
    rw [step, cleanupOldDiskCacheFiles, show c.stats = _ from h]
    exact hstats

def Stats.Nonneg (stats : Stats) : Prop := 0 ≤ stats.activeDiskFiles ∧ 0 ≤ stats.currentDiskUsageBytes

theorem decrement_nonneg (stats : Stats) (size : ℤ) : (decrementDiskFiles stats size).Nonneg := by
  unfold decrementDiskFiles Stats.Nonneg
  constructor <;> dsimp only <;> split <;> omega

theorem cleanupFiles_nonneg (expired : DiskStorage → Bool) (ds : List DiskStorage) {stats : Stats} (h : stats.Nonneg) :
    (cleanupFiles expired ds stats).2.Nonneg := by
  induction ds generalizing stats with
  | nil => exact h
  | cons d rest ih =>
    rw [cleanupFiles]
    split
    · exact ih (decrement_nonneg stats d.size)
    · exact ih h

theorem step_nonneg {c : Cache} (h : c.stats.Nonneg) (op : Op) : (step c op).stats.Nonneg := by
  have hnew : ∀ size now, (newDiskStorage c size now).stats.Nonneg := fun size now =>
    ⟨Int.add_nonneg h.1 Int.one_nonneg, Int.add_nonneg h.2 (Int.natCast_nonneg size)⟩
  cases op with
  | newMemoryStorage => exact h
  | newDiskStorage size now => exact hnew size now
  | newDiskStorageFromReader size maxBytes now =>
    rw [step, newDiskStorageFromReader]
    split
    · exact h
    · exact hnew size now
  | close i =>
    rw [step, close]
    split
    · split
      · exact h
      · exact decrement_nonneg ..
    · exact h
  | cleanup => exact cleanupFiles_nonneg _ c.storages h

theorem run_nonneg {c : Cache} (h : c.stats.Nonneg) (ops : List Op) : (run step c ops).stats.Nonneg := by
  induction ops generalizing c with
  | nil => exact h
  | cons op rest ih => exact ih (step_nonneg h op)

theorem accounted_run_iff {c : Cache} (h : Accounted c) (ops : List Op) :
    (∀ before, before <+: ops → Accounted (run step c before)) ↔ Along step Harmless c ops := by
  induction ops generalizing c with
  | nil => simp [Along, h]
  | cons op rest ih =>
    rw [Along, ← accounted_step_iff h op]
    constructor
    · intro hall
      have hstep := hall [op] (by simp)
      exact ⟨hstep, (ih hstep).mp fun before hbefore => hall (op :: before) (by simpa using hbefore)⟩
    · rintro ⟨hstep, hrest⟩ before hbefore
      cases before with
      | nil => exact h
      | cons first before =>
        obtain ⟨rfl, hprefix⟩ := cons_prefix_cons.mp hbefore
        exact (ih hstep).mpr hrest before hprefix

/-- The counters match the files after every step exactly if no storage is closed after a clean-up pass has removed its
file while others are left; they are never negative. -/
theorem disk_files_accounted_iff (ops : List Op) :
    ((∀ before, before <+: ops → Accounted (run step ⟨[], ⟨0, 0⟩⟩ before)) ↔ Along step Harmless ⟨[], ⟨0, 0⟩⟩ ops) ∧
      (run step ⟨[], ⟨0, 0⟩⟩ ops).stats.Nonneg :=
  ⟨accounted_run_iff (show Accounted ⟨[], ⟨0, 0⟩⟩ from rfl) ops, run_nonneg ⟨Int.le_refl 0, Int.le_refl 0⟩ ops⟩

/-- The first file is removed as too old and its storage closed later: the second file is not counted any more. -/
theorem closed_after_cleanup : ¬ Accounted (run step ⟨[], ⟨0, 0⟩⟩
    [.newDiskStorage 10 0, .newDiskStorage 10 500, .cleanup 300 600, .close 0]) := by
  decide

end HotAI.DiskCache
