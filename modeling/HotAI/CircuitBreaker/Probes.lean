import HotAI.CircuitBreaker.Breaker

/-! # Requests on one breaker

Requests are selected, run, and leave through some exit; what an exit reports is a parameter. The state also keeps what the
breaker does not know: which half-open period it is in, each request's period, and how many successes the current one has
recorded. -/
namespace HotAI.CircuitBreaker
open HotAI.Lib List

/-- A running request: the half-open period it was selected in, if it was a probe. -/
structure Request where
  period : Option ℕ
deriving DecidableEq, Repr

structure System where
  breaker : Breaker
  clock : Time
  /-- The number of half-open periods entered so far. -/
  period : ℕ
  running : List Request
  /-- The successes recorded by requests of the current period. -/
  successes : ℤ
  /-- For every move from half open to closed, the successes its period had. -/
  recoveries : List ℤ
deriving DecidableEq

inductive Label (ε : Type) where
  | tick (nanoseconds : ℕ)
  | look
  | select
  | finish (i : ℕ) (exit : ε)

def start (setting : Setting) (clock : Time) : System := ⟨newBreaker setting, clock, 0, [], 0, []⟩

section
variable {ε : Type} (setting : Setting) (report : ε → Option Bool)

/-- The system as every method finds it: refreshed, in a new period once an open breaker's time-out has passed. -/
def sync (s : System) : System :=
  let b := s.breaker.refreshState setting s.clock
  if b.state = s.breaker.state then s
  else { s with breaker := b, period := s.period + 1, successes := 0 }

def isProbe (s : System) (r : Request) : Bool := r.period = some s.period

def afterSelect (s : System) (answer : Bool × Breaker) : System :=
  let tag : Option ℕ := if answer.2.state = .halfOpen then some s.period else none
  { s with
    breaker := answer.2
    running := if answer.1 then s.running ++ [⟨tag⟩] else s.running }

def afterRecord (s : System) (i : ℕ) (r : Request) (failed : Bool) (b : Breaker) : System :=
  let counts := s.breaker.state = .halfOpen ∧ isProbe s r ∧ failed = false
  let successes := if counts then s.successes + 1 else s.successes
  { s with
    breaker := b
    running := s.running.eraseIdx i
    successes := successes
    recoveries := if s.breaker.state = .halfOpen ∧ b.state = .closed then successes :: s.recoveries
      else s.recoveries }

def step (s : System) : Label ε → System
  | .tick nanoseconds => { s with clock := s.clock + nanoseconds }
  | .look => { sync setting s with breaker := (s.breaker.canSelect setting s.clock).2 }
  | .select => afterSelect (sync setting s) (s.breaker.markSelected setting s.clock)
  | .finish i exit =>
      match s.running[i]? with
      | none => s
      | some r =>
          match report exit with
          | none => { s with running := s.running.eraseIdx i }
          | some failed =>
              afterRecord (sync setting s) i r failed (s.breaker.record setting s.clock failed)

end

def probes (s : System) : ℤ := total (fun r => if isProbe s r then 1 else 0) s.running

/-! ## Refreshing -/

theorem refreshState_cases (b : Breaker) (setting : Setting) (now : Time) : b.refreshState setting now = b ∨
      b.state = .open ∧ b.refreshState setting now =
        { b with state := .halfOpen, halfOpenInUse := 0, halfOpenSuccess := 0 } := by
  by_cases h : b.state = .open ∧ setting.openTimeoutSeconds * second ≤ now - b.openedAt
  · exact .inr ⟨h.1, if_pos h⟩
  · exact .inl (if_neg h)

theorem sync_cases (setting : Setting) (s : System) :
    sync setting s = s ∧ s.breaker.refreshState setting s.clock = s.breaker ∨
      s.breaker.state = .open ∧ ∃ b : Breaker, b = s.breaker.refreshState setting s.clock ∧
        b.state = .halfOpen ∧ b.halfOpenInUse = 0 ∧ b.halfOpenSuccess = 0 ∧
        sync setting s = { s with breaker := b, period := s.period + 1, successes := 0 } := by
  unfold sync
  rcases refreshState_cases s.breaker setting s.clock with hsame | ⟨hopen, hnew⟩
  · exact .inl ⟨by simp [hsame], hsame⟩
  · refine .inr ⟨hopen, _, rfl, ?_, ?_, ?_, ?_⟩
    · rw [hnew]
    · rw [hnew]
    · rw [hnew]
    · rw [if_neg (by rw [hnew, hopen]; exact nofun)]

theorem sync_breaker (setting : Setting) (s : System) :
    (sync setting s).breaker = s.breaker.refreshState setting s.clock := by
  rcases sync_cases setting s with ⟨hs, hb⟩ | ⟨-, b, hb, -, -, -, hs⟩
  · rw [hs, hb]
  · rw [hs, hb]

theorem sync_running (setting : Setting) (s : System) : (sync setting s).running = s.running := by
  rcases sync_cases setting s with ⟨hs, -⟩ | ⟨-, b, -, -, -, -, hs⟩ <;> rw [hs]

/-! ## What a step does -/

section
variable {ε : Type} {setting : Setting} {report : ε → Option Bool} {s : System}

theorem step_look : step setting report s .look = sync setting s := by
  have hb : (s.breaker.canSelect setting s.clock).2 = (sync setting s).breaker := by
    rw [sync_breaker]
    unfold Breaker.canSelect
    dsimp only
    split <;> rfl
  simp only [step, hb]

theorem step_select_cases : step setting report s .select = sync setting s ∨
      (sync setting s).breaker.state = .closed ∧ step setting report s .select =
        { sync setting s with running := s.running ++ [⟨none⟩] } ∨
      (sync setting s).breaker.state = .halfOpen ∧
        (sync setting s).breaker.halfOpenInUse < setting.halfOpenMaxRequests ∧
        step setting report s .select = { sync setting s with
          breaker := { (sync setting s).breaker with
            halfOpenInUse := (sync setting s).breaker.halfOpenInUse + 1 }
          running := s.running ++ [⟨some (sync setting s).period⟩] } := by
  simp only [step, Breaker.markSelected, ← sync_breaker]
  have hrunning := sync_running setting s
  generalize sync setting s = t at *
  cases hstate : t.breaker.state with
  | «open» => exact .inl (by simp [afterSelect])
  | closed => exact .inr (.inl ⟨rfl, by simp [afterSelect, hstate, hrunning]⟩)
  | halfOpen =>
    by_cases hfull : setting.halfOpenMaxRequests ≤ t.breaker.halfOpenInUse
    · exact .inl (by simp [afterSelect, hfull])
    · refine .inr (.inr ⟨rfl, not_le.mp hfull, ?_⟩)
      simp [afterSelect, hfull, hrunning]

def lessOne (n : ℤ) : ℤ := if 0 < n then n - 1 else n

/-- Outside the half-open state a record keeps clear of it; within, it opens the breaker, closes it, or counts a success. -/
theorem step_record_cases {i : ℕ} {r : Request} {exit : ε} {failed : Bool}
    (hi : s.running[i]? = some r) (hreport : report exit = some failed) :
    ∃ b : Breaker, step setting report s (.finish i exit) = afterRecord (sync setting s) i r failed b ∧
      ((sync setting s).breaker.state ≠ .halfOpen ∧ b.state ≠ .halfOpen ∨
        (sync setting s).breaker.state = .halfOpen ∧ failed = true ∧ b.state = .open ∨
        (sync setting s).breaker.state = .halfOpen ∧ failed = false ∧
          setting.halfOpenSuccessThreshold ≤ (sync setting s).breaker.halfOpenSuccess + 1 ∧
          b.state = .closed ∨
        (sync setting s).breaker.state = .halfOpen ∧ failed = false ∧ b = { (sync setting s).breaker with
            halfOpenInUse := lessOne (sync setting s).breaker.halfOpenInUse
            halfOpenSuccess := (sync setting s).breaker.halfOpenSuccess + 1 }) := by
  refine ⟨_, by simp only [step, hi, hreport]; rfl, ?_⟩
  simp only [Breaker.record, ← sync_breaker]
  generalize (sync setting s).breaker = b
  cases hstate : b.state with
  | «open» => exact .inl ⟨nofun, by simp [hstate]⟩
  | closed =>
    refine .inl ⟨nofun, ?_⟩
    dsimp only
    split
    · exact nofun
    · simp [Breaker.addSample, hstate]
  | halfOpen =>
    cases failed with
    | true => exact .inr (.inl ⟨rfl, rfl, rfl⟩)
    | false =>
      by_cases hdone : setting.halfOpenSuccessThreshold ≤ b.halfOpenSuccess + 1
      · exact .inr (.inr (.inl ⟨rfl, rfl, hdone, by rw [if_pos hdone]; rfl⟩))
      · exact .inr (.inr (.inr ⟨rfl, rfl, by rw [if_neg hdone]; rfl⟩))

end

/-! ## Counting probes -/

def Tagged (s : System) : Prop := ∀ r ∈ s.running, ∀ p, r.period = some p → p ≤ s.period

theorem probes_next_period {s : System} (h : Tagged s) (b : Breaker) :
    probes { s with breaker := b, period := s.period + 1, successes := 0 } = 0 := by
  refine total_eq_zero _ _ fun r hr => ?_
  have hnot : isProbe { s with breaker := b, period := s.period + 1, successes := 0 } r = false := by
    rw [Bool.eq_false_iff]
    intro hp
    have := h r hr (s.period + 1) (by simpa [isProbe] using hp)
    omega
  simp [hnot]

variable {i : ℕ}

theorem probes_eraseIdx {s : System} {r : Request} (hi : s.running[i]? = some r) :
    total (fun r => if isProbe s r then 1 else 0) (s.running.eraseIdx i) =
      probes s - (if isProbe s r then 1 else 0) := by
  have := total_eraseIdx (fun r => if isProbe s r then 1 else 0) s.running i r hi
  unfold probes
  omega

theorem probes_concat (s : System) (b : Breaker) :
    probes { s with breaker := b, running := s.running ++ [⟨some s.period⟩] } = probes s + 1 := by
  simp only [probes, total, map_append, sum_append, isProbe]
  simp

theorem tagged_sync {setting : Setting} {s : System} (h : Tagged s) : Tagged (sync setting s) := by
  rcases sync_cases setting s with ⟨hs, -⟩ | ⟨-, b, -, -, -, -, hs⟩
  · rw [hs]
    exact h
  · rw [hs]
    exact fun r hr p hp => (h r hr p hp).trans (Nat.le_succ _)

theorem tagged_append {s : System} {tag : Option ℕ} (h : Tagged s) (htag : ∀ p, tag = some p → p ≤ s.period) (b : Breaker) :
    Tagged { s with breaker := b, running := s.running ++ [⟨tag⟩] } := by
  intro r hr p hp
  rcases mem_append.mp hr with hmem | hmem
  · exact h r hmem p hp
  · rw [mem_singleton.mp hmem] at hp
    exact htag p hp

theorem tagged_eraseIdx {s t : System} (h : Tagged s) (hperiod : t.period = s.period)
    (hrunning : t.running = s.running.eraseIdx i) : Tagged t := by
  intro r hr p hp
  rw [hrunning] at hr
  rw [hperiod]
  exact h r (mem_of_mem_eraseIdx hr) p hp

/-! ## Every request is recorded -/

/-- The breaker's half-open counters are those of the current period's requests. -/
structure Exact (setting : Setting) (s : System) : Prop where
  tagged : Tagged s
  inUse : s.breaker.state = .halfOpen → s.breaker.halfOpenInUse = probes s
  success : s.breaker.state = .halfOpen → s.breaker.halfOpenSuccess = s.successes
  admitted : s.breaker.state = .halfOpen → probes s ≤ setting.halfOpenMaxRequests
  recovered : ∀ n ∈ s.recoveries, setting.halfOpenSuccessThreshold ≤ n

/-- A record is sound if a half-open breaker gets it from a request of the current period. -/
def soundRecord (setting : Setting) (s : System) : Label Bool → Bool
  | .finish i _ =>
      match s.running[i]? with
      | some r => (sync setting s).breaker.state ≠ .halfOpen || isProbe (sync setting s) r
      | none => true
  | _ => true

theorem exact_sync {setting : Setting} {s : System} (h : Exact setting s) : Exact setting (sync setting s) := by
  have htagged := @tagged_sync setting s h.tagged
  rcases sync_cases setting s with ⟨hs, -⟩ | ⟨-, b, -, -, hinUse, hsuccess, hs⟩
  · rw [hs]
    exact h
  · rw [hs] at htagged ⊢
    have hzero := probes_next_period h.tagged b
    refine ⟨htagged, fun _ => ?_, fun _ => hsuccess, fun _ => ?_, h.recovered⟩
    · rw [hzero]
      exact hinUse
    · rw [hzero]
      exact setting.max_pos.le

theorem exact_select {setting : Setting} {s : System} (h : Exact setting s) :
    Exact setting (step setting (some : Bool → Option Bool) s .select) := by
  have ht := exact_sync h
  have hrunning := sync_running setting s
  rcases @step_select_cases Bool setting some s with
    hs | ⟨hstate, hs⟩ | ⟨hstate, hroom, hs⟩
  · rw [hs]
    exact ht
  all_goals
    rw [hs, ← hrunning]
    generalize sync setting s = t at *
  · refine ⟨tagged_append ht.tagged (by simp) _, ?_, ?_, ?_, ht.recovered⟩
    all_goals
      intro hhalf
      rw [hstate] at hhalf
      cases hhalf
  · have hone := probes_concat t { t.breaker with halfOpenInUse := t.breaker.halfOpenInUse + 1 }
    refine ⟨tagged_append ht.tagged (fun p hp => by cases hp; exact le_refl _) _, ?_, ?_, ?_,
      ht.recovered⟩
    · intro _
      rw [hone]
      exact congrArg (· + 1) (ht.inUse hstate)
    · intro _
      exact ht.success hstate
    · intro _
      rw [hone, ← ht.inUse hstate]
      omega

theorem exact_record {setting : Setting} {s : System} {r : Request} {failed : Bool}
    (h : Exact setting s) (hi : s.running[i]? = some r)
    (hsound : soundRecord setting s (.finish i failed) = true) :
    Exact setting (step setting some s (.finish i failed)) := by
  have ht := exact_sync h
  have hrunning := sync_running setting s
  simp only [soundRecord, hi, Bool.or_eq_true, decide_eq_true_eq] at hsound
  obtain ⟨b, hs, hcases⟩ := @step_record_cases Bool setting some s i r failed failed hi rfl
  rw [hs]
  rw [← hrunning] at hi
  generalize sync setting s = t at *
  have htagged : Tagged (afterRecord t i r failed b) := tagged_eraseIdx ht.tagged rfl rfl
  -- leaving the half-open state, only the recoveries are left to check
  have hleave : b.state ≠ .halfOpen →
      (∀ n ∈ (afterRecord t i r failed b).recoveries, setting.halfOpenSuccessThreshold ≤ n) →
      Exact setting (afterRecord t i r failed b) := fun hne hrec =>
    ⟨htagged, fun hhalf => absurd hhalf hne, fun hhalf => absurd hhalf hne,
      fun hhalf => absurd hhalf hne, hrec⟩
  rcases hcases with ⟨hstate, hne⟩ | ⟨-, -, hopen⟩ | ⟨hstate, hfailed, hdone, hclosed⟩ |
    ⟨hstate, hfailed, hb⟩
  · refine hleave hne ?_
    simp only [afterRecord, hstate, false_and, if_false]
    exact ht.recovered
  · refine hleave (by rw [hopen]; exact nofun) ?_
    simp only [afterRecord, hopen, reduceCtorEq, and_false, if_false]
    exact ht.recovered
  · have hprobe := hsound.resolve_left fun hne => hne hstate
    refine hleave (by rw [hclosed]; exact nofun) ?_
    simp only [afterRecord, hstate, hclosed, hprobe, hfailed, and_self, if_true]
    rw [forall_mem_cons, ← ht.success hstate]
    exact ⟨hdone, ht.recovered⟩
  · have hprobe := hsound.resolve_left fun hne => hne hstate
    have hinUse := ht.inUse hstate
    have herase := probes_eraseIdx hi
    rw [if_pos hprobe] at herase
    have hpos : 0 < t.breaker.halfOpenInUse := by
      have := total_nonneg (fun r => if isProbe t r then 1 else 0) (t.running.eraseIdx i)
        fun r _ => by split <;> omega
      omega
    subst hb
    have hcount : probes (afterRecord t i r failed { t.breaker with
        halfOpenInUse := lessOne t.breaker.halfOpenInUse
        halfOpenSuccess := t.breaker.halfOpenSuccess + 1 }) = probes t - 1 := herase
    refine ⟨htagged, fun _ => ?_, fun _ => ?_, fun _ => ?_, ?_⟩
    · rw [hcount, ← hinUse]
      exact if_pos hpos
    · simp only [afterRecord, hstate, hprobe, hfailed, and_self, if_true]
      rw [ht.success hstate]
    · have := ht.admitted hstate
      omega
    · simp only [afterRecord, hstate, reduceCtorEq, and_false, if_false]
      exact ht.recovered

theorem exact_step (setting : Setting) (s : System) (l : Label Bool) (h : Exact setting s)
    (hsound : soundRecord setting s l = true) : Exact setting (step setting some s l) := by
  cases l with
  | tick nanoseconds => exact ⟨h.tagged, h.inUse, h.success, h.admitted, h.recovered⟩
  | look =>
    rw [step_look]
    exact exact_sync h
  | select => exact exact_select h
  | finish i failed =>
    cases hi : s.running[i]? with
    | none =>
      simp only [step, hi]
      exact h
    | some r => exact exact_record h hi hsound

theorem exact_start (setting : Setting) (clock : Time) : Exact setting (start setting clock) := by
  refine ⟨fun r hr => absurd hr (not_mem_nil), ?_, ?_, ?_, fun n hn => absurd hn (not_mem_nil)⟩
  all_goals
    intro hhalf
    cases hhalf

/-- **Probes.** If a half-open breaker is only told results of requests of its current period, at most `HalfOpenMaxRequests`
of them run at a time and it closes only on `HalfOpenSuccessThreshold` of their successes. -/
theorem half_open_counts_current_probes (setting : Setting) (clock : Time) (ls : List (Label Bool))
    (hsound : Along (step setting some) (fun s l => soundRecord setting s l = true) (start setting clock) ls) :
    ((run (step setting some) (start setting clock) ls).breaker.state = .halfOpen →
        probes (run (step setting some) (start setting clock) ls) ≤ setting.halfOpenMaxRequests) ∧
      ∀ n ∈ (run (step setting some) (start setting clock) ls).recoveries, setting.halfOpenSuccessThreshold ≤ n := by
  have hexact := run_invariant (exact_step setting) (exact_start setting clock) hsound
  exact ⟨hexact.admitted, hexact.recovered⟩

def sampleSetting : Setting := getCircuitBreakerSetting ⟨true, 60, 10, 1 / 2, 1, 30, 1, 1⟩

/-- Requests are selected while closed, one fails, and after the time-out the first probe is admitted. -/
def probeRun : List (Label Bool) :=
  [.select, .select, .finish 0 true, .tick 30000000000, .select]

theorem half_open_counts_current_probes_recovers : (run (step sampleSetting some) (start sampleSetting 1000000000000)
        (probeRun ++ [.finish 1 false])).recoveries = [1] ∧
      sampleSetting.halfOpenSuccessThreshold ≤ 1 := by
  refine ⟨by decide +kernel, ?_⟩
  exact (half_open_counts_current_probes sampleSetting 1000000000000 (probeRun ++ [.finish 1 false])
    (by decide +kernel)).2 1 (by decide +kernel)

/-- A request from before the opening reports a success in the half-open period: the breaker closes without a probe's. -/
theorem stale_success_closes : (run (step sampleSetting some) (start sampleSetting 1000000000000) probeRun).breaker.state =
        .halfOpen ∧
      (run (step sampleSetting some) (start sampleSetting 1000000000000)
        (probeRun ++ [.finish 0 false])).breaker.state = .closed ∧
      (run (step sampleSetting some) (start sampleSetting 1000000000000) (probeRun ++ [.finish 0 false])).recoveries = [0] ∧
      ¬ sampleSetting.halfOpenSuccessThreshold ≤ 0 := by
  decide +kernel

end HotAI.CircuitBreaker
