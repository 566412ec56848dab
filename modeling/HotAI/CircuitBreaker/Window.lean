import HotAI.CircuitBreaker.Breaker
import HotAI.Lib.BucketRing

/-! # The window of the circuit breaker

While the breaker is closed its buckets count the results since it became closed, and a result opens it when the buckets not
older than the window say so. -/
namespace HotAI.CircuitBreaker
open HotAI.Lib List BucketRing

/-! ## Runs with the results since the breaker became closed -/

structure Sample where
  time : Time
  failed : Bool
deriving DecidableEq, Repr

inductive BreakerEvent where
  | record (now : Time) (failed : Bool)
  | refresh (now : Time)
deriving DecidableEq, Repr

def BreakerEvent.now : BreakerEvent → Time
  | .record now _ => now
  | .refresh now => now

structure Tracked where
  breaker : Breaker
  since : List Sample
  clock : Time

def Tracked.step (setting : Setting) (t : Tracked) : BreakerEvent → Tracked
  | .record now failed =>
      let after := t.breaker.record setting now failed
      { breaker := after
        since := if (t.breaker.refreshState setting now).state = .closed then t.since ++ [⟨now, failed⟩]
          else if after.state = .closed then [] else t.since
        clock := now }
  | .refresh now => { t with breaker := t.breaker.refreshState setting now, clock := now }

def Tracked.start (setting : Setting) : Tracked := ⟨newBreaker setting, [], setting.bucketSeconds * second⟩

def Tracked.ordered (t : Tracked) (e : BreakerEvent) : Prop := t.clock ≤ e.now

/-! ## What the window says -/

def bucketNumber (setting : Setting) (time : Time) : ℤ := unix time / setting.bucketSeconds

/-- `max(1, WindowSeconds / BucketSeconds)`. -/
def windowBuckets (setting : Setting) : ℤ := max 1 (setting.windowSeconds / setting.bucketSeconds)

def recent (setting : Setting) (now : Time) (samples : List Sample) : List Sample :=
  samples.filter fun sample => bucketNumber setting now - windowBuckets setting < bucketNumber setting sample.time

def Trips (setting : Setting) (now : Time) (samples : List Sample) : Prop :=
  setting.minRequestCount ≤ (recent setting now samples).length ∧
    setting.errorThreshold * (recent setting now samples).length ≤ ((recent setting now samples).filter Sample.failed).length

/-! ## The ring -/

theorem bucketCount_eq (setting : Setting) : (bucketCount setting : ℤ) = windowBuckets setting := by
  unfold bucketCount windowBuckets
  dsimp only
  split <;> omega

theorem bucketCount_pos (setting : Setting) : 0 < bucketCount setting := by
  have h := bucketCount_eq setting
  unfold windowBuckets at h
  omega

def Sample.number (setting : Setting) (sample : Sample) : ℤ := bucketNumber setting sample.time

/-- What slot `k` of the ring holds after the samples. -/
def bucketOf (setting : Setting) (samples : List Sample) (k : ℕ) : Bucket :=
  match BucketRing.held (bucketCount setting) (Sample.number setting) samples k with
  | none => Bucket.zero
  | some q => ⟨q * setting.bucketSeconds, samples.countP fun sample => sample.number setting = q,
      samples.countP fun sample => sample.number setting = q && sample.failed⟩

def ringOf (setting : Setting) (samples : List Sample) : List Bucket := (List.range (bucketCount setting)).map (bucketOf setting samples)

theorem ringOf_nil (setting : Setting) : ringOf setting [] = List.replicate (bucketCount setting) Bucket.zero := by
  have heach : bucketOf setting [] = fun _ => Bucket.zero := rfl
  rw [ringOf, heach, map_const', length_range]

/-- Samples in the order of their times, none in the first bucket after the epoch or after `clock`. -/
structure Timed (setting : Setting) (clock : Time) (samples : List Sample) : Prop where
  sorted : samples.Pairwise fun a b => a.number setting ≤ b.number setting
  positive : ∀ sample ∈ samples, 0 < sample.number setting
  past : ∀ sample ∈ samples, sample.number setting ≤ bucketNumber setting clock

theorem bucketNumber_mono (setting : Setting) {a b : Time} (h : a ≤ b) : bucketNumber setting a ≤ bucketNumber setting b :=
  Int.ediv_le_ediv setting.bucket_pos (Int.ediv_le_ediv (by decide) h)

variable {setting : Setting} {clock now : Time} {samples : List Sample} {b : Breaker}

theorem Timed.mono (h : Timed setting clock samples) (hnow : clock ≤ now) : Timed setting now samples :=
  ⟨h.sorted, h.positive, fun sample hsample => (h.past sample hsample).trans (bucketNumber_mono setting hnow)⟩

theorem Timed.append {setting : Setting} {clock now : Time} {samples : List Sample} (h : Timed setting clock samples) (hnow : clock ≤ now)
    (hpositive : 0 < bucketNumber setting now) (failed : Bool) : Timed setting now (samples ++ [⟨now, failed⟩]) := by
  have hlater := h.mono hnow
  refine ⟨pairwise_append.mpr ⟨h.sorted, pairwise_singleton _ _, fun a ha b hb => ?_⟩, fun sample hsample => ?_,
    fun sample hsample => ?_⟩
  · rw [mem_singleton.mp hb]
    exact hlater.past a ha
  · rcases mem_append.mp hsample with hold | hnew
    · exact h.positive sample hold
    · rw [mem_singleton.mp hnew]
      exact hpositive
  · rcases mem_append.mp hsample with hold | hnew
    · exact hlater.past sample hold
    · rw [mem_singleton.mp hnew]
      exact le_rfl

theorem bucketStart_eq (setting : Setting) (now : Time) :
    unix now - unix now % setting.bucketSeconds = bucketNumber setting now * setting.bucketSeconds := by
  have h := Int.emod_add_mul_ediv (unix now) setting.bucketSeconds
  unfold bucketNumber
  rw [Int.mul_comm]
  omega

/-- The slot of the current bucket holds that bucket, or one that is over and the current bucket has no sample yet. -/
theorem bucketOf_current (h : Timed setting now samples) (hpositive : 0 < bucketNumber setting now) (failed : Bool) :
    if (bucketOf setting samples (slot (bucketCount setting) (Sample.number setting) ⟨now, failed⟩)).start ≠
        bucketNumber setting now * setting.bucketSeconds then
      ∀ p : Sample → Bool, (samples.countP fun sample => sample.number setting = bucketNumber setting now && p sample) = 0
    else bucketOf setting samples (slot (bucketCount setting) (Sample.number setting) ⟨now, failed⟩) =
      ⟨bucketNumber setting now * setting.bucketSeconds, samples.countP fun sample => sample.number setting = bucketNumber setting now,
        samples.countP fun sample => sample.number setting = bucketNumber setting now && sample.failed⟩ := by
  have hheld : ∀ sample ∈ samples, sample.number setting = bucketNumber setting now → ∃ q,
      held (bucketCount setting) (Sample.number setting) samples
        (slot (bucketCount setting) (Sample.number setting) ⟨now, failed⟩) = some q ∧ bucketNumber setting now ≤ q := by
    intro sample hsample hnumber
    obtain ⟨q, hq, hle⟩ := le_held h.sorted hsample
    refine ⟨q, ?_, hnumber ▸ hle⟩
    rw [← hq, slot, slot, hnumber]
    rfl
  have hbucket := setting.bucket_pos
  unfold bucketOf
  cases hslot : held (bucketCount setting) (Sample.number setting) samples
      (slot (bucketCount setting) (Sample.number setting) ⟨now, failed⟩) with
  | none =>
    rw [if_pos (show Bucket.zero.start ≠ _ from (mul_pos hpositive hbucket).ne)]
    intro p
    rw [countP_eq_zero]
    intro sample hsample hcounted
    obtain ⟨q, hq, -⟩ := hheld sample hsample (of_decide_eq_true (Bool.and_eq_true_iff.mp hcounted).1)
    rw [hslot] at hq
    cases hq
  | some q =>
    by_cases hcurrent : q = bucketNumber setting now
    · subst hcurrent
      rw [if_neg (not_not_intro rfl)]
    · rw [if_pos fun heq => hcurrent (mul_right_cancel₀ hbucket.ne' heq)]
      intro p
      rw [countP_eq_zero]
      intro sample hsample hcounted
      obtain ⟨q', hq, hle⟩ := hheld sample hsample (of_decide_eq_true (Bool.and_eq_true_iff.mp hcounted).1)
      rw [hslot] at hq
      cases hq
      obtain ⟨y, hy, hnumber, -⟩ := mem_of_held hslot
      exact hcurrent (le_antisymm (hnumber ▸ h.past y hy) hle)

theorem countP_append_sample (samples : List Sample) (sample : Sample) (p : Sample → Bool) :
    (samples ++ [sample]).countP p = samples.countP p + if p sample then 1 else 0 := by
  rw [countP_append, countP_singleton]

theorem bucketOf_append_of_ne (setting : Setting) (samples : List Sample) (sample : Sample) {k : ℕ}
    (hk : slot (bucketCount setting) (Sample.number setting) sample ≠ k) :
    bucketOf setting (samples ++ [sample]) k = bucketOf setting samples k := by
  unfold bucketOf
  rw [held_append, if_neg hk]
  cases hheld : held (bucketCount setting) (Sample.number setting) samples k with
  | none => rfl
  | some q =>
    obtain ⟨y, -, hnumber, hslot⟩ := mem_of_held hheld
    have hne : sample.number setting ≠ q := by
      rintro heq
      refine hk ?_
      rw [← hslot, slot, slot, heq, hnumber]
    dsimp only
    rw [countP_append_sample, countP_append_sample, decide_eq_false hne]
    rfl

theorem buckets_addSample (h : Timed setting clock samples)
    (hnow : clock ≤ now) (hpositive : 0 < bucketNumber setting now) (hb : b.buckets = ringOf setting samples) (failed : Bool) :
    (b.addSample setting now failed).buckets = ringOf setting (samples ++ [⟨now, failed⟩]) := by
  have hlength : b.buckets.length = bucketCount setting := by rw [hb, ringOf, length_map, length_range]
  have hbucket := setting.bucket_pos
  unfold Breaker.addSample
  dsimp only
  rw [if_neg (not_not_intro hlength), bucketStart_eq, Int.mul_ediv_cancel _ hbucket.ne', hlength]
  have hindex : (bucketNumber setting now % (bucketCount setting : ℤ)).toNat =
      slot (bucketCount setting) (Sample.number setting) ⟨now, failed⟩ := rfl
  have hbound : slot (bucketCount setting) (Sample.number setting) ⟨now, failed⟩ < bucketCount setting := by
    have hcount := bucketCount_pos setting
    have hlt := Int.emod_lt_of_pos (bucketNumber setting now) (by omega : (0 : ℤ) < bucketCount setting)
    omega
  have hcurrent := bucketOf_current (h.mono hnow) hpositive failed
  rw [hindex, hb, ringOf, ringOf]
  generalize hslot : slot (bucketCount setting) (Sample.number setting) ⟨now, failed⟩ = k at hbound hcurrent ⊢
  have hold : ((range (bucketCount setting)).map (bucketOf setting samples)).getD k Bucket.zero = bucketOf setting samples k := by
    rw [getD_eq_getElem?_getD, getElem?_map, getElem?_range hbound]
    rfl
  rw [hold]
  refine ext_getElem (by simp) fun i hi hi' => ?_
  rw [getElem_set, getElem_map, getElem_map, getElem_range]
  by_cases hik : k = i
  · subst hik
    have hnew : bucketOf setting (samples ++ [⟨now, failed⟩]) k = ⟨bucketNumber setting now * setting.bucketSeconds,
        (samples.countP fun sample => sample.number setting = bucketNumber setting now) + 1,
        ((samples.countP fun sample => sample.number setting = bucketNumber setting now && sample.failed) + if failed then 1 else 0 : ℕ)⟩ := by
      rw [bucketOf, held_append, if_pos hslot]
      dsimp only
      rw [countP_append_sample, countP_append_sample, decide_eq_true rfl]
      rfl
    rw [if_pos rfl, hnew]
    split at hcurrent
    · next hstale =>
      have htotal := hcurrent fun _ => true
      have hfailed := hcurrent Sample.failed
      simp only [Bool.and_true] at htotal
      rw [if_pos hstale, htotal, hfailed]
      cases failed <;> rfl
    · next hfresh =>
      rw [if_neg hfresh, hcurrent]
      cases failed <;> rfl
  · rw [if_neg hik, bucketOf_append_of_ne setting samples _ (by rw [hslot]; exact hik)]

/-! ## What is counted -/

/-- `windowCounts` skips a bucket that was never used and one that starts before the cutoff. -/
def live (setting : Setting) (now : Time) (q : ℤ) : Bool :=
  ¬(q * setting.bucketSeconds = 0 ∨ q * setting.bucketSeconds < unix now - setting.windowSeconds)

theorem windowCounts_ring (setting : Setting) (now : Time) (samples : List Sample) (hb : b.buckets = ringOf setting samples) :
    b.windowCounts setting now =
      (liveCount (bucketCount setting) (Sample.number setting) (live setting now) (fun _ => true) samples,
        liveCount (bucketCount setting) (Sample.number setting) (live setting now) Sample.failed samples) := by
  unfold Breaker.windowCounts liveCount
  dsimp only
  rw [hb, ringOf, sum_filter_map, sum_filter_map, map_map, map_map]
  refine Prod.ext (congrArg sum (map_congr_left fun k _ => ?_)) (congrArg sum (map_congr_left fun k _ => ?_))
  · rw [Function.comp_apply, bucketOf]
    cases held (bucketCount setting) (Sample.number setting) samples k with
    | none => exact ite_self _
    | some q =>
      simp only [Bool.and_true]
      rfl
  · rw [Function.comp_apply, bucketOf]
    cases held (bucketCount setting) (Sample.number setting) samples k with
    | none => exact ite_self _
    | some q => rfl

/-- A bucket is longer than the window by at most a second. -/
def Setting.Fits (setting : Setting) : Prop := setting.bucketSeconds ≤ setting.windowSeconds + 1

theorem unix_eq (setting : Setting) (now : Time) : bucketNumber setting now * setting.bucketSeconds ≤ unix now ∧
      unix now < bucketNumber setting now * setting.bucketSeconds + setting.bucketSeconds := by
  have hstart := bucketStart_eq setting now
  have hnonneg := Int.emod_nonneg (unix now) setting.bucket_pos.ne'
  have hlt := Int.emod_lt_of_pos (unix now) setting.bucket_pos
  omega

theorem bucketCount_mul (setting : Setting) : setting.windowSeconds < (bucketCount setting + 1) * setting.bucketSeconds ∧
      (setting.Fits → bucketCount setting * setting.bucketSeconds ≤ setting.windowSeconds + 1) := by
  have hbucket := setting.bucket_pos
  have hdiv := Int.mul_ediv_self_le (x := setting.windowSeconds) hbucket.ne'
  have hlt := Int.lt_ediv_add_one_mul_self setting.windowSeconds hbucket
  rw [bucketCount_eq]
  unfold windowBuckets Setting.Fits
  rw [Int.mul_comm] at hdiv
  rcases le_total 1 (setting.windowSeconds / setting.bucketSeconds) with hone | hnone
  · rw [max_eq_right hone]
    exact ⟨hlt, fun _ => by omega⟩
  · rw [max_eq_left hnone]
    refine ⟨?_, fun hfits => by omega⟩
    nlinarith

theorem live_of_recent (hfits : setting.Fits) (now : Time) {q : ℤ} (hpositive : 0 < q)
    (hrecent : bucketNumber setting now - bucketCount setting < q) : live setting now q = true := by
  obtain ⟨-, hwindow⟩ := bucketCount_mul setting
  obtain ⟨-, hupper⟩ := unix_eq setting now
  have hbucket := setting.bucket_pos
  have hfirst : (bucketNumber setting now - bucketCount setting + 1) * setting.bucketSeconds ≤ q * setting.bucketSeconds :=
    mul_le_mul_of_nonneg_right (by omega) hbucket.le
  have hpos := mul_pos hpositive hbucket
  have hw := hwindow hfits
  rw [live, decide_eq_true_eq]
  rw [add_mul, sub_mul] at hfirst
  omega

theorem not_live_of_old (setting : Setting) (now : Time) {q : ℤ} (hold : q < bucketNumber setting now - bucketCount setting) :
    live setting now q = false := by
  obtain ⟨hwindow, -⟩ := bucketCount_mul setting
  obtain ⟨hlower, -⟩ := unix_eq setting now
  have hlast : q * setting.bucketSeconds ≤ (bucketNumber setting now - (bucketCount setting + 1)) * setting.bucketSeconds :=
    mul_le_mul_of_nonneg_right (by omega) setting.bucket_pos.le
  rw [live, decide_eq_false_iff_not]
  rw [sub_mul] at hlast
  omega

theorem windowCounts_eq (hfits : setting.Fits)
    (h : Timed setting clock samples) (hnow : clock ≤ now) (hpositive : 0 < bucketNumber setting now) (failed : Bool)
    (hb : b.buckets = ringOf setting (samples ++ [⟨now, failed⟩])) :
    b.windowCounts setting now = (((recent setting now (samples ++ [⟨now, failed⟩])).length : ℤ),
      (((recent setting now (samples ++ [⟨now, failed⟩])).filter Sample.failed).length : ℤ)) := by
  have htimed := h.append hnow hpositive failed
  have hcount := @BucketRing.liveCount_eq Sample (bucketCount setting) (Sample.number setting) (samples ++ [⟨now, failed⟩])
    (bucketCount_pos setting) htimed.sorted ⟨now, failed⟩ (mem_append_right _ (mem_singleton_self _)) htimed.past
    (live setting now) (fun sample hsample hrecent => live_of_recent hfits now (htimed.positive sample hsample) hrecent)
    (fun _ _ hold => not_live_of_old setting now hold)
  have hnumber : Sample.number setting ⟨now, failed⟩ - bucketCount setting = bucketNumber setting now - windowBuckets setting := by
    rw [bucketCount_eq]
    rfl
  rw [windowCounts_ring setting now _ hb, hcount, hcount, hnumber]
  unfold recent
  rw [filter_filter, ← countP_eq_length_filter, ← countP_eq_length_filter]
  refine Prod.ext ?_ ?_
  · simp only [Bool.and_true]
    rfl
  · refine congrArg Nat.cast (countP_congr fun sample _ => ?_)
    rw [Bool.and_comm]
    rfl

theorem shouldOpen_iff (hfits : setting.Fits)
    (h : Timed setting clock samples) (hnow : clock ≤ now) (hpositive : 0 < bucketNumber setting now) (failed : Bool)
    (hb : b.buckets = ringOf setting (samples ++ [⟨now, failed⟩])) :
    b.shouldOpen setting now = true ↔ Trips setting now (samples ++ [⟨now, failed⟩]) := by
  have hmin := setting.minCount_pos
  unfold Breaker.shouldOpen Trips
  rw [windowCounts_eq hfits h hnow hpositive failed hb]
  dsimp only
  split
  · next hfew => exact iff_of_false Bool.false_ne_true fun hand => absurd hand.1 (not_le.mpr hfew)
  · next hmany =>
    have htotal : (0 : ℚ) < ((recent setting now (samples ++ [⟨now, failed⟩])).length : ℤ) := by
      exact_mod_cast hmin.trans_le (not_lt.mp hmany)
    rw [decide_eq_true_eq, le_div_iff₀ htotal]
    exact (and_iff_right (not_lt.mp hmany)).symm

/-! ## Runs -/

/-- The ring has its size, and while the breaker is closed it holds the results since it became closed. -/
structure Tracked.Inv (setting : Setting) (t : Tracked) : Prop where
  clock_le : setting.bucketSeconds * second ≤ t.clock
  length_eq : t.breaker.buckets.length = bucketCount setting
  ring : t.breaker.state = .closed → Timed setting t.clock t.since ∧ t.breaker.buckets = ringOf setting t.since

theorem bucketNumber_pos (h : setting.bucketSeconds * second ≤ now) : 0 < bucketNumber setting now := by
  have hunix : setting.bucketSeconds ≤ unix now := Int.le_ediv_of_mul_le (by decide) h
  exact Int.le_ediv_of_mul_le setting.bucket_pos (by omega)

theorem Tracked.inv_start (setting : Setting) : (Tracked.start setting).Inv setting := by
  refine ⟨le_rfl, length_replicate, fun _ => ⟨⟨List.Pairwise.nil, ?_, ?_⟩, (ringOf_nil setting).symm⟩⟩
  · exact fun sample hsample => absurd hsample not_mem_nil
  · exact fun sample hsample => absurd hsample not_mem_nil

theorem buckets_refreshState (b : Breaker) (setting : Setting) (now : Time) : (b.refreshState setting now).buckets = b.buckets := by
  unfold Breaker.refreshState
  split <;> rfl

theorem refreshState_of_closed (h : (b.refreshState setting now).state = .closed) : b.refreshState setting now = b := by
  unfold Breaker.refreshState at h ⊢
  split at h
  · cases h
  · next hnot => rw [if_neg hnot]

theorem length_addSample (b : Breaker) (setting : Setting) (now : Time) (failed : Bool) :
    (b.addSample setting now failed).buckets.length = bucketCount setting := by
  unfold Breaker.addSample
  rw [length_set]
  split
  · exact length_replicate
  · next h => exact not_not.mp h

theorem record_closed (h : (b.refreshState setting now).state = .closed) (failed : Bool) :
    b.record setting now failed = if (b.addSample setting now failed).shouldOpen setting now then
      (b.addSample setting now failed).open now else b.addSample setting now failed := by
  have hstate := h
  rw [refreshState_of_closed h] at hstate
  unfold Breaker.record
  rw [refreshState_of_closed h]
  dsimp only
  rw [hstate]

theorem state_addSample (b : Breaker) (setting : Setting) (now : Time) (failed : Bool) :
    (b.addSample setting now failed).state = b.state := rfl

theorem record_not_closed (h : (b.refreshState setting now).state ≠ .closed) (failed : Bool) :
    (b.record setting now failed).state ≠ .closed ∧ (b.record setting now failed).buckets = b.buckets ∨
      (b.record setting now failed).state = .closed ∧
        (b.record setting now failed).buckets = List.replicate b.buckets.length Bucket.zero := by
  have hbuckets := buckets_refreshState b setting now
  unfold Breaker.record
  generalize b.refreshState setting now = fresh at h hbuckets
  dsimp only
  cases hstate : fresh.state with
  | closed => exact absurd hstate h
  | «open» =>
    refine Or.inl ⟨?_, hbuckets⟩
    rw [hstate]
    decide
  | halfOpen =>
    dsimp only
    cases failed with
    | true => exact Or.inl ⟨(fun hclosed => by cases hclosed), hbuckets⟩
    | false =>
      rw [if_neg Bool.false_ne_true]
      split
      · exact Or.inr ⟨rfl, by rw [← hbuckets]; rfl⟩
      · exact Or.inl ⟨(fun hclosed => by cases hclosed), hbuckets⟩

theorem Tracked.Inv.step {t : Tracked} (h : t.Inv setting) {e : BreakerEvent} (hok : t.ordered e) :
    (t.step setting e).Inv setting := by
  cases e with
  | refresh now =>
    refine ⟨h.clock_le.trans hok, (congrArg length (buckets_refreshState ..)).trans h.length_eq, fun hclosed => ?_⟩
    have hsame : t.breaker.refreshState setting now = t.breaker := refreshState_of_closed hclosed
    change (t.breaker.refreshState setting now).state = .closed at hclosed
    rw [hsame] at hclosed
    obtain ⟨htimed, hring⟩ := h.ring hclosed
    refine ⟨htimed.mono hok, ?_⟩
    change (t.breaker.refreshState setting now).buckets = _
    rw [hsame, hring]
    rfl
  | record now failed =>
    have hclock := h.clock_le.trans hok
    unfold Tracked.step
    dsimp only
    by_cases hclosed : (t.breaker.refreshState setting now).state = .closed
    · have hstate : t.breaker.state = .closed := by rw [← refreshState_of_closed hclosed, hclosed]
      obtain ⟨htimed, hring⟩ := h.ring hstate
      have hbuckets := buckets_addSample htimed hok (bucketNumber_pos hclock) hring failed
      have hlength := length_addSample t.breaker setting now failed
      rw [record_closed hclosed]
      split
      · exact ⟨hclock, hlength, fun hopen => by cases hopen⟩
      · exact ⟨hclock, hlength, fun _ => ⟨htimed.append hok (bucketNumber_pos hclock) failed, hbuckets⟩⟩
    · rw [if_neg hclosed]
      rcases record_not_closed hclosed failed with ⟨hstate, hbuckets⟩ | ⟨hstate, hbuckets⟩
      · exact ⟨hclock, (congrArg length hbuckets).trans h.length_eq, fun hclosed => absurd hclosed hstate⟩
      · rw [if_pos hstate]
        refine ⟨hclock, (congrArg length hbuckets).trans (length_replicate.trans h.length_eq), fun _ => ⟨⟨List.Pairwise.nil, ?_, ?_⟩, ?_⟩⟩
        · exact fun sample hsample => absurd hsample not_mem_nil
        · exact fun sample hsample => absurd hsample not_mem_nil
        · rw [hbuckets, h.length_eq]
          exact (ringOf_nil setting).symm

theorem run_inv {events : List BreakerEvent}
    (h : Along (Tracked.step setting) Tracked.ordered (Tracked.start setting) events) :
    (run (Tracked.step setting) (Tracked.start setting) events).Inv setting :=
  @run_invariant _ _ (Tracked.step setting) Tracked.ordered (Tracked.Inv setting) (fun _ _ h hok => h.step hok) _ _
    (Tracked.inv_start setting) h

theorem refreshState_closed (h : b.state = .closed) (setting : Setting) (now : Time) :
    (b.refreshState setting now).state = .closed := by
  unfold Breaker.refreshState
  rw [if_neg (by rw [h]; exact fun hand => by cases hand.1)]
  exact h

/-- In every run, a result recorded in the closed state opens the breaker exactly when the window trips. -/
def Setting.TripsOnWindow (setting : Setting) : Prop :=
  ∀ events now failed, Along (Tracked.step setting) Tracked.ordered (Tracked.start setting) (events ++ [.record now failed]) →
    (run (Tracked.step setting) (Tracked.start setting) events).breaker.state = .closed →
    (((run (Tracked.step setting) (Tracked.start setting) events).breaker.record setting now failed).state = .open ↔
      Trips setting now ((run (Tracked.step setting) (Tracked.start setting) events).since ++ [⟨now, failed⟩]))

theorem tripsOnWindow_of_fits (hfits : setting.Fits) : setting.TripsOnWindow := by
  intro events now failed halong hclosed
  obtain ⟨hbefore, hlast, -⟩ := (along_append _ _ _ _ _).mp halong
  have hinv := run_inv hbefore
  generalize run (Tracked.step setting) (Tracked.start setting) events = t at hclosed hlast hinv
  have hfresh := refreshState_closed hclosed setting now
  have hclock : t.clock ≤ now := hlast
  obtain ⟨htimed, hring⟩ := hinv.ring hclosed
  have hpositive := bucketNumber_pos (hinv.clock_le.trans hclock)
  have hopens := shouldOpen_iff hfits htimed hclock hpositive failed (buckets_addSample htimed hclock hpositive hring failed)
  rw [record_closed hfresh, ← hopens]
  split
  · next hopen => exact iff_of_true rfl hopen
  · next hstay =>
    refine iff_of_false ?_ hstay
    rw [state_addSample, hclosed]
    decide

/-! ## Buckets that outlast the window -/

def lastSecond (setting : Setting) : Time := (2 * setting.bucketSeconds - 1) * second

theorem unix_lastSecond (setting : Setting) : unix (lastSecond setting) = 2 * setting.bucketSeconds - 1 :=
  Int.mul_ediv_cancel _ (by decide)

theorem bucketNumber_lastSecond (setting : Setting) : bucketNumber setting (lastSecond setting) = 1 := by
  have hbucket := setting.bucket_pos
  unfold bucketNumber
  rw [unix_lastSecond]
  refine le_antisymm (Int.lt_add_one_iff.mp (Int.ediv_lt_of_lt_mul hbucket ?_)) (Int.le_ediv_of_mul_le hbucket ?_) <;> omega

theorem not_live_lastSecond (h : ¬setting.Fits) : live setting (lastSecond setting) 1 = false := by
  unfold Setting.Fits at h
  rw [live, decide_eq_false_iff_not, unix_lastSecond]
  omega

theorem run_lastSecond (h : ¬setting.Fits) (k : ℕ) :
    Along (Tracked.step setting) Tracked.ordered (Tracked.start setting) (List.replicate k (.record (lastSecond setting) true)) ∧
      (run (Tracked.step setting) (Tracked.start setting) (List.replicate k (.record (lastSecond setting) true))).breaker.state = .closed ∧
      (run (Tracked.step setting) (Tracked.start setting) (List.replicate k (.record (lastSecond setting) true))).since =
        List.replicate k ⟨lastSecond setting, true⟩ ∧
      (run (Tracked.step setting) (Tracked.start setting) (List.replicate k (.record (lastSecond setting) true))).clock ≤
        lastSecond setting := by
  induction k with
  | zero =>
    have hbucket := setting.bucket_pos
    have hlater : setting.bucketSeconds ≤ 2 * setting.bucketSeconds - 1 := by omega
    exact ⟨trivial, rfl, rfl, mul_le_mul_of_nonneg_right hlater (by decide)⟩
  | succ k ih =>
    obtain ⟨halong, hclosed, hsince, hclock⟩ := ih
    have hinv := run_inv halong
    rw [replicate_succ', run_append, along_append]
    generalize run (Tracked.step setting) (Tracked.start setting) (replicate k (.record (lastSecond setting) true)) = t at *
    obtain ⟨htimed, hring⟩ := hinv.ring hclosed
    have hpositive : 0 < bucketNumber setting (lastSecond setting) := by
      rw [bucketNumber_lastSecond]
      decide
    have hbuckets := buckets_addSample htimed hclock hpositive hring true
    have hold : ∀ sample ∈ t.since ++ [⟨lastSecond setting, true⟩], live setting (lastSecond setting) (sample.number setting) = false := by
      intro sample hsample
      rw [hsince, ← replicate_succ'] at hsample
      rw [eq_of_mem_replicate hsample, Sample.number, bucketNumber_lastSecond]
      exact not_live_lastSecond h
    have hcounts := windowCounts_ring setting (lastSecond setting) _ hbuckets
    rw [liveCount_eq_zero hold] at hcounts
    have hstays : (t.breaker.addSample setting (lastSecond setting) true).shouldOpen setting (lastSecond setting) = false := by
      unfold Breaker.shouldOpen
      rw [hcounts]
      exact if_pos setting.minCount_pos
    have hfresh := refreshState_closed hclosed setting (lastSecond setting)
    have hrecord := record_closed hfresh true
    rw [hstays, if_neg Bool.false_ne_true] at hrecord
    refine ⟨⟨halong, hclock, trivial⟩, ?_, ?_, le_rfl⟩
    · change (t.breaker.record setting (lastSecond setting) true).state = .closed
      rw [hrecord, state_addSample, hclosed]
    · change (if (t.breaker.refreshState setting (lastSecond setting)).state = .closed then t.since ++ [⟨lastSecond setting, true⟩]
        else _) = _
      rw [if_pos hfresh, hsince, replicate_succ']

/-- The breaker trips on exactly the recent window if and only if its buckets fit into the window. -/
theorem tripsOnWindow_iff (setting : Setting) : setting.TripsOnWindow ↔ setting.Fits := by
  refine ⟨fun htrips => ?_, tripsOnWindow_of_fits⟩
  by_contra hfits
  have hmin := setting.minCount_pos
  obtain ⟨k, hk⟩ : ∃ k : ℕ, setting.minRequestCount = k + 1 := ⟨setting.minRequestCount.toNat - 1, by omega⟩
  obtain ⟨-, hclosed, hsince, -⟩ := run_lastSecond hfits k
  obtain ⟨hmore, hstill, -⟩ := run_lastSecond hfits (k + 1)
  rw [replicate_succ'] at hmore hstill
  have hiff := htrips _ _ _ hmore hclosed
  rw [run_append] at hstill
  have hall : recent setting (lastSecond setting) (replicate (k + 1) ⟨lastSecond setting, true⟩) =
      replicate (k + 1) ⟨lastSecond setting, true⟩ := by
    refine filter_eq_self.mpr fun sample hsample => ?_
    rw [eq_of_mem_replicate hsample, decide_eq_true_eq]
    have hone : 1 ≤ windowBuckets setting := le_max_left _ _
    dsimp only
    omega
  rw [hsince, ← replicate_succ'] at hiff
  have hopen := hiff.mpr (by
    unfold Trips
    rw [hall, filter_replicate, if_pos rfl, length_replicate]
    refine ⟨by omega, ?_⟩
    exact mul_le_of_le_one_left (Nat.cast_nonneg _) setting.threshold_le_one)
  change (Breaker.record _ setting (lastSecond setting) true).state = .closed at hstill
  rw [hopen] at hstill
  cases hstill

/-- A window of five seconds gets buckets of ten: in a bucket's last second one failure of one result goes unseen. -/
theorem fiveSeconds_unseen : (getCircuitBreakerSetting ⟨true, 5, 10, 1 / 2, 1, 30, 1, 1⟩).bucketSeconds = 10 ∧
      ((newBreaker (getCircuitBreakerSetting ⟨true, 5, 10, 1 / 2, 1, 30, 1, 1⟩)).record
        (getCircuitBreakerSetting ⟨true, 5, 10, 1 / 2, 1, 30, 1, 1⟩) (19 * second) true).state = .closed ∧
      Trips (getCircuitBreakerSetting ⟨true, 5, 10, 1 / 2, 1, 30, 1, 1⟩) (19 * second) [⟨19 * second, true⟩] := by
  unfold Trips
  decide +kernel

end HotAI.CircuitBreaker
