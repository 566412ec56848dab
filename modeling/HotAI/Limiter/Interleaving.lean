import HotAI.Limiter.Limiter

/-! # Interleavings of `Acquire` and `Release` on one channel

The shared memory is the channel's entry in the counter map and the counters. A request is a thread that acquires once and, if
it got a slot, releases once; a label lets one thread do its next atomic operation. -/
namespace HotAI.Limiter
open HotAI.Lib List Function

inductive Thread where
  | idle
  /-- `Acquire` has the counter and is about to add one. -/
  | acquiring (p : ℕ)
  /-- `Acquire` has passed the limit and is about to take its one back. -/
  | backing (p : ℕ)
  | holding
  /-- `Release` has the counter and is about to subtract one. -/
  | releasing (p : ℕ)
  /-- `Release` has seen zero and is about to delete the entry. -/
  | deleting
  | released
  | refused
deriving DecidableEq, Repr

structure Memory where
  entry : Option ℕ
  heap : ℕ → ℤ
  /-- The next counter that has not been allocated. -/
  fresh : ℕ
  threads : List Thread

inductive Label where
  | next (t : ℕ)
  /-- The `LoadOrStore` of a `CanAcquire` call. -/
  | look
deriving DecidableEq, Repr

/-- `counters.LoadOrStore(channelID, &counter{})`. -/
def loadOrStore (m : Memory) : ℕ × Memory :=
  match m.entry with
  | some p => (p, m)
  | none => (m.fresh, { m with entry := some m.fresh, fresh := m.fresh + 1 })

/-- `c.val.Add(delta)`: the new value is returned. -/
def addTo (m : Memory) (p : ℕ) (delta : ℤ) : ℤ × Memory :=
  (m.heap p + delta, { m with heap := Function.update m.heap p (m.heap p + delta) })

def Memory.put (m : Memory) (t : ℕ) (thread : Thread) : Memory :=
  { m with threads := m.threads.set t thread }

def advance (max : ℤ) (m : Memory) (t : ℕ) : Thread → Memory
  | .idle =>
      let (p, m) := loadOrStore m
      m.put t (.acquiring p)
  | .acquiring p =>
      let (cur, m) := addTo m p 1
      m.put t (if cur ≤ max then .holding else .backing p)
  | .backing p => (addTo m p (-1)).2.put t .refused
  | .holding =>
      match m.entry with
      | some p => m.put t (.releasing p)
      | none => m.put t .released
  | .releasing p =>
      let (cur, m) := addTo m p (-1)
      m.put t (if cur ≤ 0 then .deleting else .released)
  | .deleting => { m with entry := none }.put t .released
  | .released | .refused => m

def step (max : ℤ) (m : Memory) : Label → Memory
  | .next t =>
      match m.threads[t]? with
      | some thread => advance max m t thread
      | none => m
  | .look => (loadOrStore m).2

def start (n : ℕ) : Memory := ⟨none, fun _ => 0, 0, List.replicate n .idle⟩

def inFlightNow (m : Memory) : ℤ :=
  match m.entry with
  | some p => m.heap p
  | none => 0

/-! ## Calls one after another

The functions of `HotAI.Limiter.Limiter` are these operations run by one thread at a time. -/

/-- A whole call of thread `t`: `Acquire` if it has not begun, `Release` if it holds a slot. -/
def call (setting : ChannelLimiterSetting) (channelID : ℤ) (s : Counters × List Thread) (t : ℕ) : Counters × List Thread :=
  match s.2[t]? with
  | some .idle =>
      let (ok, counters) := acquire setting s.1 channelID
      (counters, s.2.set t (if ok then .holding else .refused))
  | some .holding => (release s.1 channelID, s.2.set t .released)
  | _ => s

/-- The memory between two calls. -/
structure Rests (channelID : ℤ) (s : Counters × List Thread) (m : Memory) : Prop where
  threads : m.threads = s.2
  entry : s.1 channelID = m.entry.map m.heap
  fresh : ∀ q ≥ m.fresh, m.heap q = 0
  below : ∀ p ∈ m.entry, p < m.fresh

theorem zero_beyond {heap : ℕ → ℤ} {fresh p : ℕ} (h : ∀ q ≥ fresh, heap q = 0) (hp : p < fresh) (v : ℤ) :
    ∀ q ≥ fresh, update heap p v q = 0 := by
  intro q hq
  rw [update_of_ne (by omega), h q hq]

section
variable {setting : ChannelLimiterSetting} {channelID : ℤ} {counters : Counters} {m : Memory} {t : ℕ}
attribute [local simp] step advance loadOrStore addTo Memory.put

theorem rests_acquire (hlimits : setting.limits channelID = true) (h : Rests channelID (counters, m.threads) m)
    (ht : m.threads[t]? = some .idle) : ∃ k, Rests channelID ((acquire setting counters channelID).2,
      m.threads.set t (if (acquire setting counters channelID).1 then .holding else .refused))
        (run (step setting.maxConcurrentRequests) m (replicate k (.next t))) := by
  obtain ⟨hlt, hidle⟩ := List.getElem?_eq_some_iff.mp ht
  obtain ⟨-, hentry, hfresh, hbelow⟩ := h
  dsimp only at hentry
  -- the counter is there, or `LoadOrStore` puts one at zero there
  cases hm : m.entry with
  | none =>
    have hzero := hfresh m.fresh le_rfl
    have hnext := zero_beyond (fun q hq => hfresh q (Nat.le_of_succ_le hq)) (Nat.lt_succ_self m.fresh)
    by_cases hroom : 1 ≤ setting.maxConcurrentRequests
    · refine ⟨2, ?_, ?_, ?_, ?_⟩ <;> simp [acquire, getCounter, hlimits, hentry, hlt, hidle, hm, hzero, hroom]
      exact hnext 1
    · refine ⟨3, ?_, ?_, ?_, ?_⟩ <;>
        simp [acquire, getCounter, hlimits, hentry, hlt, hidle, hm, hzero, hroom]
      exact hnext 0
  | some p =>
    have hp := hbelow p hm
    by_cases hroom : m.heap p < setting.maxConcurrentRequests
    · refine ⟨2, ?_, ?_, ?_, ?_⟩ <;> simp [acquire, getCounter, hlimits, hentry, hlt, hidle, hm, hroom, hp]
      exact zero_beyond hfresh hp _
    · refine ⟨3, ?_, ?_, ?_, ?_⟩ <;>
        simp [acquire, getCounter, hlimits, hentry, hlt, hidle, hm, hroom, hp]
      exact hfresh

theorem rests_release (hid : ¬channelID ≤ 0) (h : Rests channelID (counters, m.threads) m) (ht : m.threads[t]? = some .holding)
    (max : ℤ) : ∃ k, Rests channelID (release counters channelID, m.threads.set t .released)
      (run (step max) m (replicate k (.next t))) := by
  obtain ⟨hlt, hholding⟩ := List.getElem?_eq_some_iff.mp ht
  obtain ⟨-, hentry, hfresh, hbelow⟩ := h
  dsimp only at hentry
  cases hm : m.entry with
  | none =>
    refine ⟨1, ?_, ?_, ?_, ?_⟩ <;> simp [release, hid, hentry, hlt, hholding, hm]
    exact hfresh
  | some p =>
    have hp := hbelow p hm
    by_cases hzero : m.heap p ≤ 1
    · refine ⟨3, ?_, ?_, ?_, ?_⟩ <;> simp [release, hid, hentry, hlt, hholding, hm, hzero]
      exact zero_beyond hfresh hp _
    · refine ⟨2, ?_, ?_, ?_, ?_⟩ <;> simp [release, hid, hentry, hlt, hholding, hm, hzero, hp]
      · rfl
      · exact zero_beyond hfresh hp _

end

/-- The atomic operations of calls that are made one after another; `ks` says how many each of them has. -/
def operations (calls ks : List ℕ) : List Label := (zipWith (fun t k => replicate k (.next t)) calls ks).flatten

/-- Calls made one after another, in any order, are runs of the atomic operations that leave the requests with the answers of
`Acquire` and the counter with the count of `InFlight`. -/
theorem calls_refine (setting : ChannelLimiterSetting) (channelID : ℤ) (hlimits : setting.limits channelID = true) (n : ℕ)
    (calls : List ℕ) : ∃ ks, ks.length = calls.length ∧
      (run (step setting.maxConcurrentRequests) (start n) (operations calls ks)).threads =
        (run (call setting channelID) (fun _ => none, replicate n .idle) calls).2 ∧
      inFlightNow (run (step setting.maxConcurrentRequests) (start n) (operations calls ks)) =
        inFlight (run (call setting channelID) (fun _ => none, replicate n .idle) calls).1 channelID := by
  have hid : ¬channelID ≤ 0 := by
    simp [ChannelLimiterSetting.limits] at hlimits
    omega
  have hrun : ∀ s m, Rests channelID s m → ∃ ks, ks.length = calls.length ∧
      Rests channelID (run (call setting channelID) s calls)
        (run (step setting.maxConcurrentRequests) m (operations calls ks)) := by
    induction calls with
    | nil => exact fun s m h => ⟨[], rfl, h⟩
    | cons t calls ih =>
      intro s m h
      have hcall : ∃ k, Rests channelID (call setting channelID s t)
          (run (step setting.maxConcurrentRequests) m (replicate k (.next t))) := by
        obtain ⟨counters, threads⟩ := s
        obtain rfl : m.threads = threads := h.threads
        unfold call
        split
        · next ht => exact rests_acquire hlimits h ht
        · next ht => exact rests_release hid h ht _
        · exact ⟨0, h⟩
      obtain ⟨k, hfirst⟩ := hcall
      obtain ⟨ks, hlength, hrest⟩ := ih _ _ hfirst
      refine ⟨k :: ks, congrArg (· + 1) hlength, ?_⟩
      rw [operations, zipWith_cons_cons, flatten_cons, run_append]
      exact hrest
  obtain ⟨ks, hlength, hthreads, hentry, -⟩ := hrun (fun _ => none, replicate n .idle) (start n)
    ⟨rfl, rfl, fun _ _ => rfl, by simp [start]⟩
  refine ⟨ks, hlength, hthreads, ?_⟩
  rw [inFlight, if_neg hid, hentry, inFlightNow]
  cases (run (step setting.maxConcurrentRequests) (start n) (operations calls ks)).entry <;> rfl

theorem calls_refine_refused : ∃ ks, ks.length = 3 ∧
    (run (step 1) (start 2) (operations [0, 1, 0] ks)).threads = [.released, .refused] ∧
    inFlightNow (run (step 1) (start 2) (operations [0, 1, 0] ks)) = 0 :=
  calls_refine ⟨true, 1⟩ 1 rfl 2 [0, 1, 0]

/-! ## Counting -/

/-- A request holds its slot until `Release` has subtracted it. -/
def Thread.holds : Thread → ℤ
  | .holding => 1
  | .releasing _ => 1
  | _ => 0

def Thread.over : Thread → ℤ
  | .backing _ => 1
  | _ => 0

def Thread.pointer : Thread → Option ℕ
  | .acquiring p => some p
  | .backing p => some p
  | .releasing p => some p
  | _ => none

def holders (m : Memory) : ℤ := total Thread.holds m.threads

def overs (m : Memory) : ℤ := total Thread.over m.threads

def Thread.resting : Thread → Bool
  | .idle => true
  | .holding => true
  | .released => true
  | .refused => true
  | _ => false

/-- A deletion is sound if the counter it removes is zero and no `Acquire` has loaded it. -/
def sound (m : Memory) : Label → Bool
  | .next t =>
      match m.threads[t]? with
      | some .deleting =>
          match m.entry with
          | some p => m.heap p = 0 && m.threads.all fun thread => thread ≠ .acquiring p
          | none => true
      | _ => true
  | .look => true

structure Inv (max : ℤ) (m : Memory) : Prop where
  bounded : holders m ≤ max
  unallocated : ∀ p, m.fresh ≤ p → m.heap p = 0
  allocated : ∀ p, m.entry = some p → p < m.fresh
  counted : ∀ p, m.entry = some p → m.heap p = holders m + overs m
  pointers : ∀ thread ∈ m.threads, ∀ q, thread.pointer = some q → m.entry = some q
  unmapped : m.entry = none → holders m = 0 ∧ overs m = 0

theorem holds_nonneg (thread : Thread) : 0 ≤ thread.holds := by
  cases thread <;> simp [Thread.holds]

theorem over_nonneg (thread : Thread) : 0 ≤ thread.over := by
  cases thread <;> simp [Thread.over]

theorem overs_nonneg (m : Memory) : 0 ≤ overs m := total_nonneg _ _ fun thread _ => over_nonneg thread

theorem holders_put (m : Memory) {t : ℕ} {old new : Thread} (h : m.threads[t]? = some old) :
    holders (m.put t new) = holders m - old.holds + new.holds := total_set _ _ _ _ _ h

theorem overs_put (m : Memory) {t : ℕ} {old new : Thread} (h : m.threads[t]? = some old) :
    overs (m.put t new) = overs m - old.over + new.over := total_set _ _ _ _ _ h

theorem pointers_put {m : Memory} {t : ℕ} {new : Thread}
    (h : ∀ thread ∈ m.threads, ∀ q, thread.pointer = some q → m.entry = some q)
    (hnew : ∀ q, new.pointer = some q → m.entry = some q) :
    ∀ thread ∈ (m.put t new).threads, ∀ q, thread.pointer = some q → m.entry = some q := by
  intro thread hmem
  rcases mem_or_eq_of_mem_set hmem with hold | rfl
  · exact h thread hold
  · exact hnew

/-! ## One operation -/

section
variable {max : ℤ} {m : Memory} {t : ℕ}

theorem inv_loadOrStore (h : Inv max m) : Inv max (loadOrStore m).2 ∧ (loadOrStore m).2.entry = some (loadOrStore m).1 ∧
      (loadOrStore m).2.threads = m.threads := by
  unfold loadOrStore
  cases hentry : m.entry with
  | some p => exact ⟨h, hentry, rfl⟩
  | none =>
    obtain ⟨hholders, hovers⟩ := h.unmapped hentry
    refine ⟨⟨h.bounded, fun p hp => h.unallocated p (Nat.le_of_succ_le hp), ?_, ?_, ?_, nofun⟩, rfl, rfl⟩
    · intro p hp
      cases hp
      exact Nat.lt_succ_self _
    · intro p hp
      cases hp
      change m.heap m.fresh = holders m + overs m
      rw [h.unallocated m.fresh (le_refl _), hholders, hovers]
      rfl
    · intro thread hmem q hq
      have := h.pointers thread hmem q hq
      rw [hentry] at this
      cases this

variable {old new : Thread}

theorem inv_put (h : Inv max m) (ht : m.threads[t]? = some old)
    (hholds : new.holds = old.holds) (hover : new.over = old.over)
    (hpointer : ∀ q, new.pointer = some q → m.entry = some q) : Inv max (m.put t new) := by
  have hholders : holders (m.put t new) = holders m := by
    rw [holders_put m ht]
    omega
  have hovers : overs (m.put t new) = overs m := by
    rw [overs_put m ht]
    omega
  refine ⟨hholders ▸ h.bounded, h.unallocated, h.allocated, fun p hp => ?_, pointers_put h.pointers hpointer,
    fun hnone => ?_⟩
  · rw [hholders, hovers]
    exact h.counted p hp
  · rw [hholders, hovers]
    exact h.unmapped hnone

theorem inv_addTo {p : ℕ} {delta : ℤ} (h : Inv max m) (ht : m.threads[t]? = some old)
    (hold : old.pointer = some p) (hnew : ∀ q, new.pointer = some q → q = p)
    (hdelta : delta = new.holds - old.holds + (new.over - old.over))
    (hbounded : holders m - old.holds + new.holds ≤ max) : Inv max ((addTo m p delta).2.put t new) := by
  have hentry : m.entry = some p := h.pointers old (mem_of_getElem? ht) p hold
  have ht' : (addTo m p delta).2.threads[t]? = some old := ht
  have hholders := @holders_put (addTo m p delta).2 t old new ht'
  have hovers := @overs_put (addTo m p delta).2 t old new ht'
  change holders _ = holders m - _ + _ at hholders
  change overs _ = overs m - _ + _ at hovers
  have hcounted := h.counted p hentry
  refine ⟨by rw [hholders]; exact hbounded, ?_, h.allocated, ?_, ?_, ?_⟩
  · intro q hq
    change update m.heap p (m.heap p + delta) q = 0
    have hqp : q ≠ p := by
      have := h.allocated p hentry
      rintro rfl
      exact absurd hq (not_le.mpr this)
    rw [update_of_ne hqp]
    exact h.unallocated q hq
  · intro q hq
    change m.entry = some q at hq
    rw [hentry] at hq
    cases hq
    change update m.heap p (m.heap p + delta) p = _
    rw [update_self]
    omega
  · refine pointers_put h.pointers fun q hq => ?_
    rw [hnew q hq]
    exact hentry
  · intro hnone
    change m.entry = none at hnone
    rw [hentry] at hnone
    cases hnone

theorem inv_delete (h : Inv max m) (ht : m.threads[t]? = some .deleting)
    (hsound : sound m (.next t) = true) : Inv max ({ m with entry := none }.put t .released) := by
  have hholders : holders ({ m with entry := none }.put t .released) = holders m := by
    have hput := @holders_put { m with entry := none } t .deleting .released ht
    simp only [Thread.holds, sub_zero, add_zero] at hput
    exact hput
  have hovers : overs ({ m with entry := none }.put t .released) = overs m := by
    have hput := @overs_put { m with entry := none } t .deleting .released ht
    simp only [Thread.over, sub_zero, add_zero] at hput
    exact hput
  -- with the counter at zero no one holds a slot or has one to give back
  have hzero : holders m = 0 ∧ overs m = 0 := by
    cases hentry : m.entry with
    | none => exact h.unmapped hentry
    | some p =>
      simp only [sound, ht, hentry, Bool.and_eq_true, decide_eq_true_eq] at hsound
      have hcounted := h.counted p hentry
      have hnonneg : 0 ≤ holders m := total_nonneg _ _ fun thread _ => holds_nonneg thread
      have hover := overs_nonneg m
      constructor <;> omega
  have hfree : ∀ thread ∈ m.threads, thread.pointer = none := by
    intro thread hmem
    have hholds := weight_le_total Thread.holds m.threads thread hmem fun u _ => holds_nonneg u
    have hover := weight_le_total Thread.over m.threads thread hmem fun u _ => over_nonneg u
    change _ ≤ holders m at hholds
    change _ ≤ overs m at hover
    cases thread with
    | idle | holding | deleting | released | refused => rfl
    | acquiring p =>
      have hentry := h.pointers _ hmem p rfl
      simp only [sound, ht, hentry, Bool.and_eq_true, all_eq_true] at hsound
      exact absurd (hsound.2 _ hmem) (by simp)
    | backing p =>
      simp only [Thread.over] at hover
      omega
    | releasing p =>
      simp only [Thread.holds] at hholds
      omega
  refine ⟨hholders ▸ h.bounded, h.unallocated, nofun, nofun, ?_, ?_⟩
  · intro thread hmem q hq
    rcases mem_or_eq_of_mem_set hmem with hold | rfl
    · rw [hfree thread hold] at hq
      cases hq
    · cases hq
  · intro _
    rw [hholders, hovers]
    exact hzero

theorem inv_advance {thread : Thread} (h : Inv max m) (ht : m.threads[t]? = some thread)
    (hsound : sound m (.next t) = true) : Inv max (advance max m t thread) := by
  have hmem := mem_of_getElem? ht
  cases thread with
  | idle =>
    obtain ⟨hinv, hentry, hthreads⟩ := inv_loadOrStore h
    have ht' : (loadOrStore m).2.threads[t]? = some .idle := by
      rw [hthreads]
      exact ht
    refine inv_put hinv ht' rfl rfl fun q hq => ?_
    cases hq
    exact hentry
  | acquiring p =>
    have hcounted := h.counted p (h.pointers _ hmem p rfl)
    have hovers := overs_nonneg m
    have hbounded := h.bounded
    simp only [advance]
    by_cases hroom : (addTo m p 1).1 ≤ max
    · rw [if_pos hroom]
      refine inv_addTo h ht rfl nofun rfl ?_
      simp only [addTo, Thread.holds] at hroom ⊢
      omega
    · rw [if_neg hroom]
      refine inv_addTo h ht rfl (fun q hq => by cases hq; rfl) rfl ?_
      simp only [Thread.holds]
      omega
  | backing p =>
    refine inv_addTo h ht rfl nofun rfl ?_
    have := h.bounded
    simp only [Thread.holds]
    omega
  | holding =>
    simp only [advance]
    cases hentry : m.entry with
    | some p =>
      refine inv_put h ht rfl rfl fun q hq => ?_
      cases hq
      exact hentry
    | none =>
      have hholds := weight_le_total Thread.holds m.threads _ hmem fun u _ => holds_nonneg u
      have hzero := (h.unmapped hentry).1
      simp only [holders] at hzero
      simp only [Thread.holds] at hholds
      omega
  | releasing p =>
    have hbounded := h.bounded
    simp only [advance]
    split
    all_goals
      refine inv_addTo h ht rfl nofun rfl ?_
      simp only [Thread.holds]
      omega
  | deleting => exact inv_delete h ht hsound
  | released | refused => exact h

end

/-! ## Every interleaving -/

theorem step_inv (max : ℤ) (m : Memory) (l : Label) (h : Inv max m) (hsound : sound m l = true) :
    Inv max (step max m l) := by
  cases l with
  | next t =>
    cases ht : m.threads[t]? with
    | none =>
      simp only [step, ht]
      exact h
    | some thread =>
      simp only [step, ht]
      exact inv_advance h ht hsound
  | look => exact (inv_loadOrStore h).1

theorem inv_start {max : ℤ} (hmax : 0 < max) (n : ℕ) : Inv max (start n) := by
  have hidle : ∀ thread ∈ (start n).threads, thread = .idle := fun thread h => eq_of_mem_replicate h
  have hholders : holders (start n) = 0 :=
    total_eq_zero _ _ fun thread h => by rw [hidle thread h]; rfl
  have hovers : overs (start n) = 0 :=
    total_eq_zero _ _ fun thread h => by rw [hidle thread h]; rfl
  refine ⟨by omega, fun _ _ => rfl, nofun, nofun, fun thread h q hq => ?_, fun _ => ⟨hholders, hovers⟩⟩
  rw [hidle thread h] at hq
  cases hq

/-- **Accounting.** If a counter is only deleted at zero and while no `Acquire` has it, at most `max` requests hold a slot,
and `InFlight` is their number when no call is in progress. -/
theorem slots_accounted (max : ℤ) (hmax : 0 < max) (n : ℕ) (ls : List Label)
    (hsound : Along (step max) (fun m l => sound m l = true) (start n) ls) :
    holders (run (step max) (start n) ls) ≤ max ∧
      ((∀ thread ∈ (run (step max) (start n) ls).threads, thread.resting = true) →
        inFlightNow (run (step max) (start n) ls) = holders (run (step max) (start n) ls)) := by
  have hinv := run_invariant (step_inv max) (inv_start hmax n) hsound
  generalize run (step max) (start n) ls = m at *
  refine ⟨hinv.bounded, fun hrest => ?_⟩
  have hovers : overs m = 0 := total_eq_zero _ _ fun thread hmem => by
    have := hrest thread hmem
    cases thread <;> first | rfl | cases this
  unfold inFlightNow
  split
  · next p hp => rw [hinv.counted p hp, hovers, add_zero]
  · next hnone => rw [(hinv.unmapped hnone).1]

/-- Request 0 gives its slot back and deletes the counter, and request 1 holds a slot of a new one. -/
theorem slots_accounted_after_delete :
    inFlightNow (run (step 1) (start 2) (replicate 5 (.next 0) ++ replicate 2 (.next 1))) =
      holders (run (step 1) (start 2) (replicate 5 (.next 0) ++ replicate 2 (.next 1))) :=
  (slots_accounted 1 (by decide) 2 (replicate 5 (.next 0) ++ replicate 2 (.next 1)) (by decide)).2 (by decide)

/-- Request 1 loads the counter, request 0 gives its slot back and sees zero, request 1 takes the slot,
request 0 deletes the counter, and request 2 gets a new one: two requests hold the only slot. -/
theorem deleted_counter_overadmits : holders (run (step 1) (start 3)
      [.next 0, .next 0, .next 1, .next 0, .next 0, .next 1, .next 0, .next 2, .next 2]) = 2 := by
  decide

end HotAI.Limiter
