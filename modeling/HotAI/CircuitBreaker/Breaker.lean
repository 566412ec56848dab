import HotAI.Lib.Threads

/-! # The per-channel circuit breaker (`pkg/circuitbreaker/breaker.go`)

A ring of sample buckets while closed, a time stamp while open, two counters while half open. Every method takes the lock
and refreshes the state against the clock, so each is one step. Times are nanoseconds after the epoch; the error threshold
and the failure share are exact rationals. -/
namespace HotAI.CircuitBreaker

abbrev Time := ℤ

/-- `time.Second` in nanoseconds. -/
def second : ℤ := 1000000000

/-- `now.Unix()`. -/
def unix (now : Time) : ℤ := now / second

/-! ## The setting -/

/-- `operation_setting.CircuitBreakerSetting` as it is stored, with arbitrary numbers. -/
structure CircuitBreakerSetting where
  enabled : Bool
  windowSeconds : ℤ
  bucketSeconds : ℤ
  errorThreshold : ℚ
  minRequestCount : ℤ
  openTimeoutSeconds : ℤ
  halfOpenMaxRequests : ℤ
  halfOpenSuccessThreshold : ℤ
deriving DecidableEq

/-- A setting as the breaker receives it: `GetCircuitBreakerSetting` returns no other. -/
structure Setting extends CircuitBreakerSetting where
  window_pos : 0 < windowSeconds
  bucket_pos : 0 < bucketSeconds
  threshold_nonneg : 0 ≤ errorThreshold
  threshold_le_one : errorThreshold ≤ 1
  minCount_pos : 0 < minRequestCount
  timeout_pos : 0 < openTimeoutSeconds
  success_pos : 0 < halfOpenSuccessThreshold
  success_le_max : halfOpenSuccessThreshold ≤ halfOpenMaxRequests

theorem Setting.max_pos (setting : Setting) : 0 < setting.halfOpenMaxRequests :=
  setting.success_pos.trans_le setting.success_le_max

/-- `if value <= 0 { value = fallback }`. -/
def positiveOr (value fallback : ℤ) : ℤ := if value ≤ 0 then fallback else value

theorem positiveOr_pos (value fallback : ℤ) (h : 0 < fallback) : 0 < positiveOr value fallback := by
  unfold positiveOr
  split <;> omega

def normalWindow (s : CircuitBreakerSetting) : ℤ := positiveOr s.windowSeconds 60

def normalBucket (s : CircuitBreakerSetting) : ℤ :=
  if s.bucketSeconds ≤ 0 ∨ normalWindow s < s.bucketSeconds then 10 else s.bucketSeconds

def normalThreshold (s : CircuitBreakerSetting) : ℚ :=
  let low := if s.errorThreshold < 0 then 0 else s.errorThreshold
  if 1 < low then 1 else low

def normalMax (s : CircuitBreakerSetting) : ℤ := positiveOr s.halfOpenMaxRequests 1

def normalSuccess (s : CircuitBreakerSetting) : ℤ :=
  let success := positiveOr s.halfOpenSuccessThreshold 1
  if normalMax s < success then normalMax s else success

def getCircuitBreakerSetting (s : CircuitBreakerSetting) : Setting where
  enabled := s.enabled
  windowSeconds := normalWindow s
  bucketSeconds := normalBucket s
  errorThreshold := normalThreshold s
  minRequestCount := positiveOr s.minRequestCount 10
  openTimeoutSeconds := positiveOr s.openTimeoutSeconds 30
  halfOpenMaxRequests := normalMax s
  halfOpenSuccessThreshold := normalSuccess s
  window_pos := positiveOr_pos _ _ (by decide)
  bucket_pos := by
    unfold normalBucket
    split <;> omega
  threshold_nonneg := by
    unfold normalThreshold
    dsimp only
    split_ifs <;> linarith
  threshold_le_one := by
    unfold normalThreshold
    dsimp only
    split_ifs <;> linarith
  minCount_pos := positiveOr_pos _ _ (by decide)
  timeout_pos := positiveOr_pos _ _ (by decide)
  success_pos := by
    have hmax := positiveOr_pos s.halfOpenMaxRequests 1 (by decide)
    have hsuccess := positiveOr_pos s.halfOpenSuccessThreshold 1 (by decide)
    unfold normalSuccess normalMax
    dsimp only
    split <;> omega
  success_le_max := by
    unfold normalSuccess
    dsimp only
    split <;> omega

/-! ## The breaker -/

/-- `State`. The Go zero value `""` is never stored: `newBreaker` starts in `closed`. -/
inductive State where
  | closed
  | open
  | halfOpen
deriving DecidableEq, Repr

structure Bucket where
  start : ℤ
  total : ℤ
  failure : ℤ
deriving DecidableEq, Repr

def Bucket.zero : Bucket := ⟨0, 0, 0⟩

structure Breaker where
  state : State
  buckets : List Bucket
  openedAt : Time
  halfOpenInUse : ℤ
  halfOpenSuccess : ℤ
deriving DecidableEq, Repr

def bucketCount (setting : Setting) : ℕ :=
  let count := setting.windowSeconds / setting.bucketSeconds
  if count ≤ 0 then 1 else count.toNat

def newBreaker (setting : Setting) : Breaker where
  state := .closed
  buckets := List.replicate (bucketCount setting) Bucket.zero
  openedAt := 0
  halfOpenInUse := 0
  halfOpenSuccess := 0

namespace Breaker

def refreshState (b : Breaker) (setting : Setting) (now : Time) : Breaker :=
  if b.state = .open ∧ setting.openTimeoutSeconds * second ≤ now - b.openedAt then
    { b with state := .halfOpen, halfOpenInUse := 0, halfOpenSuccess := 0 }
  else b

def addSample (b : Breaker) (setting : Setting) (now : Time) (failed : Bool) : Breaker :=
  let buckets := if b.buckets.length ≠ bucketCount setting then
    List.replicate (bucketCount setting) Bucket.zero else b.buckets
  let bucketStart := unix now - unix now % setting.bucketSeconds
  let index := ((bucketStart / setting.bucketSeconds) % (buckets.length : ℤ)).toNat
  let old := buckets.getD index Bucket.zero
  -- a bucket left over from an earlier turn of the ring is started afresh
  let current := if old.start ≠ bucketStart then { Bucket.zero with start := bucketStart } else old
  let counted := { current with
    total := current.total + 1
    failure := if failed then current.failure + 1 else current.failure }
  { b with buckets := buckets.set index counted }

def windowCounts (b : Breaker) (setting : Setting) (now : Time) : ℤ × ℤ :=
  let cutoff := unix now - setting.windowSeconds
  let live := b.buckets.filter fun current => ¬ (current.start = 0 ∨ current.start < cutoff)
  ((live.map Bucket.total).sum, (live.map Bucket.failure).sum)

def shouldOpen (b : Breaker) (setting : Setting) (now : Time) : Bool :=
  let counts := b.windowCounts setting now
  if counts.1 < setting.minRequestCount then false
  else setting.errorThreshold ≤ (counts.2 : ℚ) / (counts.1 : ℚ)

def «open» (b : Breaker) (now : Time) : Breaker :=
  { b with state := .open, openedAt := now, halfOpenInUse := 0, halfOpenSuccess := 0 }

def close (b : Breaker) : Breaker :=
  { b with state := .closed, buckets := List.replicate b.buckets.length Bucket.zero,
           halfOpenInUse := 0, halfOpenSuccess := 0 }

def canSelect (b : Breaker) (setting : Setting) (now : Time) : Bool × Breaker :=
  let b := b.refreshState setting now
  match b.state with
  | .open => (false, b)
  | .halfOpen => (b.halfOpenInUse < setting.halfOpenMaxRequests, b)
  | .closed => (true, b)

def markSelected (b : Breaker) (setting : Setting) (now : Time) : Bool × Breaker :=
  let b := b.refreshState setting now
  match b.state with
  | .open => (false, b)
  | .halfOpen =>
      if setting.halfOpenMaxRequests ≤ b.halfOpenInUse then (false, b)
      else (true, { b with halfOpenInUse := b.halfOpenInUse + 1 })
  | .closed => (true, b)

def record (b : Breaker) (setting : Setting) (now : Time) (failed : Bool) : Breaker :=
  let b := b.refreshState setting now
  match b.state with
  | .halfOpen =>
      let b := { b with halfOpenInUse :=
        if 0 < b.halfOpenInUse then b.halfOpenInUse - 1 else b.halfOpenInUse }
      if failed then b.open now
      else
        let b := { b with halfOpenSuccess := b.halfOpenSuccess + 1 }
        if setting.halfOpenSuccessThreshold ≤ b.halfOpenSuccess then b.close else b
  | .open => b
  | .closed =>
      let b := b.addSample setting now failed
      if b.shouldOpen setting now then b.open now else b

def currentState (b : Breaker) (setting : Setting) (now : Time) : State × Breaker :=
  let b := b.refreshState setting now
  (b.state, b)

end Breaker

/-! ## The registry of breakers

The package functions create a channel's breaker at the first call, and do nothing while breaking is switched off. -/

abbrev Breakers := ℤ → Option Breaker

def getBreaker (breakers : Breakers) (channelID : ℤ) (setting : Setting) : Breaker :=
  (breakers channelID).getD (newBreaker setting)

def withBreaker {α : Type*} (setting : Setting) (breakers : Breakers) (channelID : ℤ) (off : α)
    (call : Breaker → α × Breaker) : α × Breakers :=
  if !setting.enabled || channelID ≤ 0 then (off, breakers)
  else
    let (answer, b) := call (getBreaker breakers channelID setting)
    (answer, Function.update breakers channelID (some b))

def canSelect (setting : Setting) (now : Time) (breakers : Breakers) (channelID : ℤ) : Bool × Breakers :=
  withBreaker setting breakers channelID true (·.canSelect setting now)

def markSelected (setting : Setting) (now : Time) (breakers : Breakers) (channelID : ℤ) : Bool × Breakers :=
  withBreaker setting breakers channelID true (·.markSelected setting now)

def markSuccess (setting : Setting) (now : Time) (breakers : Breakers) (channelID : ℤ) : Breakers :=
  (withBreaker setting breakers channelID () fun b => ((), b.record setting now false)).2

def markFailure (setting : Setting) (now : Time) (breakers : Breakers) (channelID : ℤ) : Breakers :=
  (withBreaker setting breakers channelID () fun b => ((), b.record setting now true)).2

end HotAI.CircuitBreaker
