import HotAI.CircuitBreaker.Probes
import HotAI.Relay.Slots

/-! # Half-open probes and the exits of the retry loops

A request selected while its channel's breaker is half open takes a probe slot, and only a report gives it back. The two
loops report some of their exits. As long as no probe leaves through another, running probes cover the slots in use, and a
half-open breaker with nothing running admits the next one. -/
namespace HotAI.Relay
open HotAI.Lib HotAI.CircuitBreaker

/-! ## What an exit reports -/

inductive Exit where
  | relay (bodyUnreadable : Bool) (upstream : Option NewAPIError)
  | task (bodyUnreadable : Bool) (upstream : Option TaskError)
  /-- The request is rejected before the loop, or its channel has no usable key. -/
  | beforeHandler
deriving DecidableEq, Repr

/-- What the breaker is told: nothing, or whether the request failed. -/
def Exit.report : Exit → Option Bool
  | .relay true _ => none
  | .relay false none => some false
  | .relay false (some err) => if err.isRateLimit then none else some true
  | .task true _ => none
  | .task false none => some false
  | .task false (some err) =>
      if err.localError || err.apiError.isRateLimit || err.apiError.isAuthError then none
      else some true
  | .beforeHandler => none

def reportEvents (channelId : ℤ) : Option Bool → List Event
  | none => []
  | some false => [.succeeded channelId]
  | some true => [.failed channelId]

section Loops
variable {σ : Type*} (cfg : Config) (g : Gateway σ)

def releaseEvents (releaseSelectedChannel : Bool) (channelId : ℤ) : List Event :=
  if releaseSelectedChannel then [.released channelId] else []

theorem releaseIf_log (flag : Bool) (c : ℤ) (s : σ × List Event) :
    (releaseIf (logged g).toGuards flag c s).2 = s.2 ++ releaseEvents flag c := by
  cases flag
  · simp [releaseIf, releaseEvents]
  · rfl

theorem relayAttempt_log (a : Attempt NewAPIError) {st st' : LoopState} {s t : σ × List Event} {c : ℤ}
    (hget : getChannel cfg (logged g).toGuards a st s = ((.ok c, st'), t)) :
    (relayAttempt cfg (logged g) a st s).2.2 = t.2 ++ reportEvents c (Exit.relay a.bodyUnreadable a.upstream).report ++
        releaseEvents st'.hasChannelMeta c := by
  have hsuccess : ((logged g).markSuccess c t).2 = t.2 ++ [.succeeded c] := rfl
  have hfailure : ((logged g).markFailure c t).2 = t.2 ++ [.failed c] := rfl
  unfold relayAttempt
  rw [hget]
  cases hbody : a.bodyUnreadable with
  | true => simp [Exit.report, reportEvents, releaseIf_log, LoopState.addUsedChannel]
  | false =>
    cases hup : a.upstream with
    | none => simp [Exit.report, reportEvents, releaseIf_log, hsuccess, LoopState.addUsedChannel]
    | some err =>
      cases hrate : err.isRateLimit with
      | true => simp [Exit.report, reportEvents, releaseIf_log, hrate, LoopState.addUsedChannel]
      | false =>
        simp only [Bool.false_eq_true, if_false, Exit.report, hrate, reportEvents]
        split
        · simp [releaseIf_log, hfailure]
        · split <;> simp [releaseIf_log, hfailure]

theorem relayTaskAttempt_log (locked : Option ℤ) (a : Attempt TaskError) {st st' : LoopState}
    {s t : σ × List Event} {c : ℤ}
    (hget : getTaskChannel cfg (logged g).toGuards locked a st s = ((.ok c, st'), t)) :
    (relayTaskAttempt cfg (logged g) locked a st s).2.2 = t.2 ++
      reportEvents c (Exit.task a.bodyUnreadable a.upstream).report ++ releaseEvents st'.hasChannelMeta c := by
  have hsuccess : ((logged g).markSuccess c t).2 = t.2 ++ [.succeeded c] := rfl
  have hfailure : ((logged g).markFailure c t).2 = t.2 ++ [.failed c] := rfl
  unfold relayTaskAttempt
  rw [hget]
  cases hbody : a.bodyUnreadable with
  | true => simp [Exit.report, reportEvents, releaseIf_log, LoopState.addUsedChannel]
  | false =>
    cases hup : a.upstream with
    | none => simp [Exit.report, reportEvents, releaseIf_log, hsuccess, LoopState.addUsedChannel]
    | some err =>
      cases hlocal : err.localError <;> cases hrate : err.apiError.isRateLimit <;>
        cases hauth : err.apiError.isAuthError <;>
        simp only [Exit.report, hlocal, hrate, hauth, Bool.not_true, Bool.not_false, Bool.and_true,
          Bool.and_false, Bool.or_true, Bool.or_false, Bool.false_eq_true, if_true, if_false,
          reportEvents, List.append_nil]
      all_goals
        first
        | exact releaseIf_log ..
        | (split <;> simp only [releaseIf_log, hfailure])

end Loops

/-! ## Probe slots are covered by running probes -/

section Runs
variable {ε : Type} {setting : Setting} {report : ε → Option Bool}

/-- Every probe slot in use belongs to a running request of the current period. -/
structure Covered (s : System) : Prop where
  tagged : Tagged s
  inUse : s.breaker.state = .halfOpen → s.breaker.halfOpenInUse ≤ probes s

/-- A request that leaves unreported is no probe of a half-open breaker. -/
def probeReported (report : ε → Option Bool) (s : System) : Label ε → Bool
  | .finish i exit =>
      match s.running[i]? with
      | some r => (report exit).isSome || s.breaker.state ≠ .halfOpen || !isProbe s r
      | none => true
  | _ => true

theorem covered_sync {s : System} (h : Covered s) : Covered (sync setting s) := by
  have htagged := @tagged_sync setting s h.tagged
  rcases sync_cases setting s with ⟨hs, -⟩ | ⟨-, b, -, -, hinUse, -, hs⟩
  · rw [hs]
    exact h
  · rw [hs] at htagged ⊢
    refine ⟨htagged, fun _ => ?_⟩
    rw [probes_next_period h.tagged b]
    exact hinUse.le

theorem covered_select {s : System} (h : Covered s) : Covered (step setting report s .select) := by
  have ht := @covered_sync setting s h
  have hrunning := sync_running setting s
  rcases @step_select_cases ε setting report s with hs | ⟨hstate, hs⟩ | ⟨hstate, -, hs⟩
  · rw [hs]
    exact ht
  all_goals
    rw [hs, ← hrunning]
    generalize sync setting s = t at *
  · refine ⟨tagged_append ht.tagged (by simp) _, fun hhalf => ?_⟩
    rw [hstate] at hhalf
    cases hhalf
  · refine ⟨tagged_append ht.tagged (fun p hp => by cases hp; exact le_refl _) _, fun _ => ?_⟩
    rw [probes_concat t { t.breaker with halfOpenInUse := t.breaker.halfOpenInUse + 1 }]
    exact Int.add_le_add_right (ht.inUse hstate) 1

theorem covered_record {s : System} {i : ℕ} {r : Request} {exit : ε} {failed : Bool} (h : Covered s)
    (hi : s.running[i]? = some r) (hreport : report exit = some failed) :
    Covered (step setting report s (.finish i exit)) := by
  have ht := @covered_sync setting s h
  have hrunning := sync_running setting s
  obtain ⟨b, hs, hcases⟩ := @step_record_cases ε setting report s i r exit failed hi hreport
  rw [hs]
  rw [← hrunning] at hi
  generalize sync setting s = t at *
  refine ⟨tagged_eraseIdx ht.tagged rfl rfl, fun hhalf => ?_⟩
  change b.state = .halfOpen at hhalf
  rcases hcases with ⟨-, hne⟩ | ⟨-, -, hopen⟩ | ⟨-, -, -, hclosed⟩ | ⟨hstate, -, hb⟩
  · exact absurd hhalf hne
  · rw [hopen] at hhalf
    cases hhalf
  · rw [hclosed] at hhalf
    cases hhalf
  · subst hb
    have hinUse := ht.inUse hstate
    have herase := probes_eraseIdx hi
    have hnonneg := total_nonneg (fun r => if isProbe t r then 1 else 0) (t.running.eraseIdx i)
      fun r _ => by split <;> omega
    change lessOne t.breaker.halfOpenInUse ≤
      total (fun r => if isProbe t r then 1 else 0) (t.running.eraseIdx i)
    unfold lessOne
    split at herase <;> split <;> omega

theorem covered_unreported {s : System} {i : ℕ} {r : Request} (h : Covered s)
    (hi : s.running[i]? = some r) (hprobe : s.breaker.state = .halfOpen → isProbe s r = false) :
    Covered { s with running := s.running.eraseIdx i } := by
  refine ⟨tagged_eraseIdx h.tagged rfl rfl, fun hhalf => ?_⟩
  have hinUse := h.inUse hhalf
  have herase := probes_eraseIdx hi
  rw [hprobe hhalf] at herase
  change _ ≤ total (fun r => if isProbe s r then 1 else 0) (s.running.eraseIdx i)
  rw [herase]
  simpa using hinUse

theorem covered_step (s : System) (l : Label ε) (h : Covered s)
    (hsound : probeReported report s l = true) : Covered (step setting report s l) := by
  cases l with
  | tick nanoseconds => exact ⟨h.tagged, h.inUse⟩
  | look =>
    rw [step_look]
    exact covered_sync h
  | select => exact covered_select h
  | finish i exit =>
    cases hi : s.running[i]? with
    | none =>
      simp only [step, hi]
      exact h
    | some r =>
      cases hreport : report exit with
      | some failed => exact covered_record h hi hreport
      | none =>
        simp only [step, hi, hreport]
        refine covered_unreported h hi fun hhalf => ?_
        simpa [probeReported, hi, hreport, hhalf] using hsound

theorem covered_start (setting : Setting) (clock : Time) : Covered (start setting clock) :=
  ⟨fun _ hr => absurd hr List.not_mem_nil, nofun⟩

theorem covered_canSelect {s : System} (h : Covered s)
    (hhalf : (s.breaker.currentState setting s.clock).1 = .halfOpen) (hidle : s.running = []) :
    (s.breaker.canSelect setting s.clock).1 = true := by
  have ht := @covered_sync setting s h
  have hrunning := (sync_running setting s).trans hidle
  have hstate : (sync setting s).breaker.state = .halfOpen := by
    rw [sync_breaker]
    exact hhalf
  have hzero : probes (sync setting s) = 0 := by
    rw [probes, hrunning]
    rfl
  have hroom : (sync setting s).breaker.halfOpenInUse < setting.halfOpenMaxRequests := by
    have := ht.inUse hstate
    have := setting.max_pos
    omega
  unfold Breaker.canSelect
  dsimp only
  rw [← sync_breaker, hstate]
  exact decide_eq_true hroom

end Runs

/-- **Probe slots.** If no probe leaves through an exit that reports nothing, a half-open breaker without running requests
can be selected. -/
theorem idle_half_open_selectable (setting : Setting) (clock : Time) (ls : List (Label Exit))
    (hsound : Along (step setting Exit.report) (fun s l => probeReported Exit.report s l = true) (start setting clock) ls) :
    ((run (step setting Exit.report) (start setting clock) ls).breaker.currentState setting
        (run (step setting Exit.report) (start setting clock) ls).clock).1 = .halfOpen →
      (run (step setting Exit.report) (start setting clock) ls).running = [] →
      ((run (step setting Exit.report) (start setting clock) ls).breaker.canSelect setting
        (run (step setting Exit.report) (start setting clock) ls).clock).1 = true := by
  have hcovered := run_invariant (fun s l => covered_step s l) (covered_start setting clock) hsound
  exact covered_canSelect hcovered

section Samples

def upstreamError (statusCode : ℤ) : Exit := .relay false (some ⟨"", statusCode, "", false⟩)

/-- The breaker trips on a failure; after its time-out a first probe is admitted. -/
def tripAndProbe : List (Label Exit) :=
  [.select, .finish 0 (upstreamError 500), .tick 30000000000, .select]

/-- Two successes are needed: after the first one the breaker is half open with nothing running. -/
def twoSuccesses : Setting := getCircuitBreakerSetting ⟨true, 60, 10, 1 / 2, 1, 30, 2, 2⟩

theorem idle_half_open_selectable_after_probe : ((run (step twoSuccesses Exit.report) (start twoSuccesses 1000000000000)
        (tripAndProbe ++ [.finish 0 (.relay false none)])).breaker.canSelect twoSuccesses
      (run (step twoSuccesses Exit.report) (start twoSuccesses 1000000000000)
        (tripAndProbe ++ [.finish 0 (.relay false none)])).clock).1 = true :=
  idle_half_open_selectable twoSuccesses 1000000000000
    (tripAndProbe ++ [.finish 0 (.relay false none)]) (by decide +kernel) (by decide +kernel)
    (by decide +kernel)

/-- The only probe is answered with a 429, which nobody reports, and an hour passes. -/
def rateLimitedProbe : System :=
  run (step sampleSetting Exit.report) (start sampleSetting 1000000000000)
    (tripAndProbe ++ [.finish 0 (upstreamError 429), .tick 3600000000000])

/-- Nothing runs any more, the breaker is half open, and it admits no request. -/
theorem rate_limited_probe_keeps_slot :
    (rateLimitedProbe.breaker.currentState sampleSetting rateLimitedProbe.clock).1 = .halfOpen ∧
      rateLimitedProbe.running = [] ∧
      (rateLimitedProbe.breaker.canSelect sampleSetting rateLimitedProbe.clock).1 = false := by
  decide +kernel

end Samples

end HotAI.Relay
