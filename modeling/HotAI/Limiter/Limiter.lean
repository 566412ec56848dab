import HotAI.Lib.Threads

/-! # The per-channel concurrency limiter (`pkg/channel_limiter/limiter.go`)

The functions as one caller sees them when no one interferes. `Acquire` and `CanAcquire` create a missing counter, `Release`
removes one that has come down to zero. -/
namespace HotAI.Limiter

structure ChannelLimiterSetting where
  enabled : Bool
  maxConcurrentRequests : ℤ
deriving DecidableEq, Repr

abbrev Counters := ℤ → Option ℤ

def ChannelLimiterSetting.limits (setting : ChannelLimiterSetting) (channelID : ℤ) : Bool :=
  setting.enabled && 0 < setting.maxConcurrentRequests && 0 < channelID

def getCounter (counters : Counters) (channelID : ℤ) : ℤ × Counters :=
  match counters channelID with
  | some val => (val, counters)
  | none => (0, Function.update counters channelID (some 0))

def acquire (setting : ChannelLimiterSetting) (counters : Counters) (channelID : ℤ) : Bool × Counters :=
  if !setting.limits channelID then (true, counters)
  else
    let (val, counters) := getCounter counters channelID
    if val + 1 ≤ setting.maxConcurrentRequests then
      (true, Function.update counters channelID (some (val + 1)))
    else (false, Function.update counters channelID (some val))

def release (counters : Counters) (channelID : ℤ) : Counters :=
  if channelID ≤ 0 then counters
  else match counters channelID with
    | none => counters
    | some val =>
        if val - 1 ≤ 0 then Function.update counters channelID none
        else Function.update counters channelID (some (val - 1))

def canAcquire (setting : ChannelLimiterSetting) (counters : Counters) (channelID : ℤ) : Bool × Counters :=
  if !setting.limits channelID then (true, counters)
  else
    let (val, counters) := getCounter counters channelID
    (val < setting.maxConcurrentRequests, counters)

def inFlight (counters : Counters) (channelID : ℤ) : ℤ :=
  if channelID ≤ 0 then 0 else (counters channelID).getD 0

end HotAI.Limiter
