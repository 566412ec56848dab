import HotAI.Relay.Attempt

/-! # A request from `Distribute` to its end (`middleware/distributor.go`, `controller/relay.go`)

`Distribute` finds the channel of the first attempt, notes in `limiterAcquired` that it holds a slot, runs the controller
and gives the slot back, unless the controller panics: the release is not deferred. -/
namespace HotAI.Relay
open HotAI.Lib HotAI.Routing

variable {σ : Type*}

/-! ## The controllers -/

inductive OriginTask where
  | unusable
  | found (channelId : ℤ)
deriving DecidableEq, Repr

inductive Route where
  /-- `Relay`; `admitted` tells whether validation, price and pre-consumption let the request reach the loop. -/
  | relay (admitted : Bool) (attempts : List (Attempt NewAPIError))
  | task (attempts : List (Attempt TaskError))
  | remix (origin : OriginTask) (attempts : List (Attempt TaskError))

/-- `getModelRequest` switches selection off for a remix, whose channel the origin task gives. -/
def Route.shouldSelectChannel : Route → Bool
  | .remix .. => false
  | _ => true

inductive Finish where
  | returned
  | panicked
  | waiting
deriving DecidableEq, Repr

/-- `ResolveOriginTask` for a remix. With the origin channel found it reads `info.ChannelId` of a `*ChannelMeta` that
`GenRelayInfo` leaves nil: a panic. -/
def resolveOriginTask (hasChannelMeta : Bool) : OriginTask → Except Finish ℤ
  | .unusable => .error .returned
  | .found channelId => if hasChannelMeta then .ok channelId else .error .panicked

def loopFinish (finished : Bool) : Finish := if finished then .returned else .waiting

def controller (cfg : Config) (g : Gateway σ) (route : Route) (st : LoopState) (s : σ) : Finish × σ :=
  match route with
  | .relay false _ => (.returned, s)
  | .relay true attempts =>
      let ((finished, _), s) := retryLoop cfg (relayAttempt cfg g) attempts st s
      (loopFinish finished, s)
  | .task attempts =>
      let ((finished, _), s) := retryLoop cfg (relayTaskAttempt cfg g none) attempts st s
      (loopFinish finished, s)
  | .remix origin attempts => match resolveOriginTask st.hasChannelMeta origin with
      | .error finish => (finish, s)
      | .ok channelId =>
          let ((finished, _), s) := retryLoop cfg (relayTaskAttempt cfg g (some channelId)) attempts st s
          (loopFinish finished, s)

/-! ## The middleware -/

structure Incoming where
  wellFormed : Bool
  /-- The token names a channel: `some none` when that id is no enabled channel. -/
  specificChannel : Option (Option ℤ)
  /-- The token's model limits and the playground group allow the request, and it names a model. -/
  allowed : Bool
  /-- The channel of the affinity cache, when it is enabled for group, model and path. -/
  affinityChannel : Option ℤ
  views : ℕ → View
  usingGroup : String
  modelName : String
  requestPath : String
  ctx : Context
  route : Route

def Incoming.param (req : Incoming) : RetryParam :=
  ⟨req.usingGroup, req.modelName, req.requestPath, 0, false⟩

/-- The channel that `Distribute` hands on with the flag `limiterAcquired`, and the context. -/
structure Distributed where
  channelId : Option ℤ
  limiterAcquired : Bool
  ctx : Context

/-- The random selection of `Distribute`; no channel aborts the request. -/
def distributeRandom (cfg : Config) (g : Guards σ) (req : Incoming) (s : σ) : Option Distributed × σ :=
  let (sel, s) := cacheGetRandomSatisfiedChannel cfg g req.views req.param req.ctx s
  match sel.err, sel.channel with
  | none, some channel => (some ⟨some channel.id, true, sel.ctx⟩, s)
  | _, _ => (none, s)

def distributeSelect (cfg : Config) (g : Guards σ) (req : Incoming) (s : σ) : Option Distributed × σ :=
  if !req.allowed then (none, s)
  else if !req.route.shouldSelectChannel then (some ⟨none, false, req.ctx⟩, s)
  else match req.affinityChannel with
    | none => distributeRandom cfg g req s
    | some channelId =>
        -- `acquireAffinityChannel`; a full channel falls back to random selection
        let (acquired, s) := g.acquire channelId s
        if acquired then (some ⟨some channelId, true, req.ctx⟩, s) else distributeRandom cfg g req s

/-- `Distribute` up to `c.Next()`; `none` is an aborted request. -/
def distribute (cfg : Config) (g : Guards σ) (req : Incoming) (s : σ) : Option Distributed × σ :=
  if !req.wellFormed then (none, s)
  else match req.specificChannel with
    | none => distributeSelect cfg g req s
    | some none => (none, s)
    | some (some channelId) =>
        -- the channel is set but not yet acquired
        let (acquired, s) := g.acquire channelId s
        if acquired then (some ⟨some channelId, true, req.ctx⟩, s) else (none, s)

/-- The state in which the controller's loop starts; `RetryParam.TokenGroup` is the token's own group. -/
def Distributed.loopState (d : Distributed) (req : Incoming) (tokenGroup : String) : LoopState where
  param := { req.param with tokenGroup }
  ctx := { d.ctx with channelId := d.channelId.getD d.ctx.channelId }
  hasChannelMeta := false

/-- What `Distribute` does after `c.Next()`; a panic passes it by. -/
def Distributed.close (d : Distributed) (g : Guards σ) (finish : Finish) (s : σ) : σ :=
  match finish, d.channelId with
  | .returned, some channelId => releaseIf g d.limiterAcquired channelId s
  | _, _ => s

def serve (cfg : Config) (g : Gateway σ) (req : Incoming) (tokenGroup : String) (s : σ) : Finish × σ :=
  match distribute cfg g.toGuards req s with
  | (none, s) => (.returned, s)
  | (some d, s) =>
      let (finish, s) := controller cfg g req.route (d.loopState req tokenGroup) s
      (finish, d.close g.toGuards finish s)

end HotAI.Relay
