import HotAI.Routing.Ability

/-! # One attempt of the relay retry loops (`controller/relay.go`, `service/channel_select.go`)

The first attempt uses the channel that `Distribute` left in the context; every later one selects its own and gives its limiter
slot back, however it ends. What an attempt meets outside (cache and database, the key check, the request body, the upstream
answer) is its input, so a list of inputs is one course of events. -/
namespace HotAI.Relay
open HotAI.Lib HotAI.Routing

variable {σ : Type*}

/-- The shared state the relay works on: selection's guards and the two reports to the breaker. -/
structure Gateway (σ : Type*) extends Guards σ where
  markSuccess : ℤ → σ → σ
  markFailure : ℤ → σ → σ

structure Config where
  memoryCacheEnabled : Bool
  retryTimes : ℤ
  rateLimitRetryTimes : ℤ
  autoGroups : List String
  /-- `GetUserUsableGroups(userGroup)` contains the group. -/
  groupUsable : String → String → Bool
  automaticRetryStatusCodeRanges : List (ℤ × ℤ)

def Config.getRateLimitRetryTimes (cfg : Config) : ℤ :=
  if cfg.rateLimitRetryTimes ≤ 0 then 3 else cfg.rateLimitRetryTimes

def Config.getUserAutoGroup (cfg : Config) (userGroup : String) : List String :=
  cfg.autoGroups.filter (cfg.groupUsable userGroup)

/-! ## Errors and the decision to retry -/

structure NewAPIError where
  message : String
  statusCode : ℤ
  errorCode : String
  skipRetry : Bool
deriving DecidableEq, Repr

def NewAPIError.isRateLimit (err : NewAPIError) : Bool := err.statusCode == 429

def NewAPIError.isAuthError (err : NewAPIError) : Bool :=
  err.statusCode == 401 || err.statusCode == 403 || err.errorCode == "channel:invalid_key" ||
    err.errorCode == "access_denied"

def NewAPIError.isChannelError (err : NewAPIError) : Bool := hasPrefix err.errorCode "channel:"

/-- `dto.TaskError`; `wrapped` is the `NewAPIError` inside its `Error`, if there is one. -/
structure TaskError where
  statusCode : ℤ
  localError : Bool
  message : String
  wrapped : Option NewAPIError
deriving DecidableEq, Repr

/-- The error by which `RelayTask` classifies one from upstream: `NewOpenAIError` keeps an error wrapped inside. -/
def TaskError.apiError (err : TaskError) : NewAPIError :=
  err.wrapped.getD ⟨err.message, err.statusCode, "bad_response_status_code", false⟩

def isAlwaysSkipRetryStatusCode (code : ℤ) : Bool := code == 504 || code == 524

def Config.shouldRetryByStatusCode (cfg : Config) (code : ℤ) : Bool :=
  !isAlwaysSkipRetryStatusCode code &&
    cfg.automaticRetryStatusCodeRanges.any fun r => r.1 ≤ code && code ≤ r.2

structure Context where
  userGroup : String
  crossGroupRetry : Bool
  specificChannelId : Bool
  affinitySkipRetry : Bool
  autoGroupIndex : Option ℕ
  channelId : ℤ
  useChannel : List ℤ
deriving DecidableEq, Repr

def shouldRetry (cfg : Config) (ctx : Context) (err : NewAPIError) (retryTimes : ℤ) : Bool :=
  if ctx.affinitySkipRetry then false
  else if err.isChannelError then true
  else if err.skipRetry then false
  else if retryTimes ≤ 0 then false
  else if ctx.specificChannelId then false
  else if 200 ≤ err.statusCode ∧ err.statusCode < 300 then false
  else if err.statusCode < 100 ∨ 599 < err.statusCode then true
  else if err.errorCode == "bad_response_body" then false
  else cfg.shouldRetryByStatusCode err.statusCode

def shouldRetryTaskRelay (ctx : Context) (err : TaskError) (retryTimes : ℤ) : Bool :=
  if ctx.affinitySkipRetry then false
  else if retryTimes ≤ 0 then false
  else if ctx.specificChannelId then false
  else if err.statusCode = 429 then true
  else if err.statusCode = 307 then true
  else if err.statusCode.tdiv 100 = 5 then !isAlwaysSkipRetryStatusCode err.statusCode
  else if err.statusCode = 400 then false
  else if err.statusCode = 408 then false
  else if err.localError then false
  else if err.statusCode.tdiv 100 = 2 then false
  else true

/-! ## Selecting a channel for an attempt -/

structure RetryParam where
  tokenGroup : String
  modelName : String
  requestPath : String
  retry : ℕ
  resetNextTry : Bool
deriving DecidableEq, Repr

def RetryParam.increaseRetry (p : RetryParam) : RetryParam :=
  if p.resetNextTry then { p with resetNextTry := false } else { p with retry := p.retry + 1 }

structure Selection where
  channel : Option Channel
  selectGroup : String
  err : Option String
  param : RetryParam
  ctx : Context

/-- The loop over the user's auto groups from `start` on; `views i` is what the call for group `i`
finds. -/
def autoGroupLoop (cfg : Config) (g : Guards σ) (views : ℕ → View) (start : ℕ) :
    ℕ → List String → RetryParam → Context → σ → Selection × σ
  | _, [], param, ctx, s => (⟨none, param.tokenGroup, none, param, ctx⟩, s)
  | i, autoGroup :: rest, param, ctx, s =>
      let priorityRetry := if start < i then 0 else param.retry
      let (pick, s) := (views i).getRandomSatisfiedChannel cfg.memoryCacheEnabled g autoGroup
        param.modelName priorityRetry param.requestPath s
      match pick.1 with
      | none =>
          -- this group has nothing to offer: start the next one at its first tier
          autoGroupLoop cfg g views start (i + 1) rest { param with retry := 0 }
            { ctx with autoGroupIndex := some (i + 1) } s
      | some channel =>
          if ctx.crossGroupRetry ∧ cfg.retryTimes ≤ priorityRetry then
            (⟨some channel, autoGroup, none, { param with retry := 0, resetNextTry := true },
              { ctx with autoGroupIndex := some (i + 1) }⟩, s)
          else (⟨some channel, autoGroup, none, param, { ctx with autoGroupIndex := some i }⟩, s)

def cacheGetRandomSatisfiedChannel (cfg : Config) (g : Guards σ) (views : ℕ → View)
    (param : RetryParam) (ctx : Context) (s : σ) : Selection × σ :=
  if param.tokenGroup = "auto" then
    if cfg.autoGroups = [] then
      (⟨none, param.tokenGroup, some "auto groups is not enabled", param, ctx⟩, s)
    else
      let startGroupIndex := ctx.autoGroupIndex.getD 0
      autoGroupLoop cfg g views startGroupIndex startGroupIndex
        ((cfg.getUserAutoGroup ctx.userGroup).drop startGroupIndex) param ctx s
  else
    let (pick, s) := (views 0).getRandomSatisfiedChannel cfg.memoryCacheEnabled g param.tokenGroup
      param.modelName param.retry param.requestPath s
    match pick.2 with
    | some err => (⟨none, param.tokenGroup, some err, param, ctx⟩, s)
    | none => (⟨pick.1, param.tokenGroup, none, param, ctx⟩, s)

/-! ## One attempt -/

structure Attempt (ε : Type*) where
  views : ℕ → View
  /-- The error of `SetupContextForSelectedChannel`, when the channel has no usable key. -/
  setupError : Option NewAPIError
  bodyUnreadable : Bool
  /-- The handler's error, or `none` for success. -/
  upstream : Option ε
  /-- The client leaves during the wait after a 429. -/
  clientGone : Bool

structure LoopState where
  param : RetryParam
  ctx : Context
  /-- `info.ChannelMeta != nil`: some handler has run. -/
  hasChannelMeta : Bool

inductive Verdict where
  | again
  | done
deriving DecidableEq, Repr

def getChannelFailed (message : String) : NewAPIError := ⟨message, 500, "get_channel_failed", true⟩

/-- `SetupContextForSelectedChannel` writes the id before it looks for a key. -/
def LoopState.select (st : LoopState) (channelId : ℤ) : LoopState :=
  { st with ctx := { st.ctx with channelId } }

def getChannel {ε : Type*} (cfg : Config) (g : Guards σ) (a : Attempt ε) (st : LoopState) (s : σ) :
    (Except NewAPIError ℤ × LoopState) × σ :=
  if !st.hasChannelMeta then ((.ok st.ctx.channelId, st), s)
  else
    let (sel, s) := cacheGetRandomSatisfiedChannel cfg g a.views st.param st.ctx s
    let st := { st with param := sel.param, ctx := sel.ctx }
    match sel.err, sel.channel with
    | some err, _ => ((.error (getChannelFailed ("获取分组 " ++ sel.selectGroup ++ " 下模型 "
        ++ sel.param.modelName ++ " 的可用渠道失败（retry）: " ++ err)), st), s)
    | none, none => ((.error (getChannelFailed ("分组 " ++ sel.selectGroup ++ " 下模型 "
        ++ sel.param.modelName ++ " 的可用渠道不存在（retry）")), st), s)
    | none, some channel => match a.setupError with
        | some err => ((.error err, st.select channel.id), s)
        | none => ((.ok channel.id, st.select channel.id), s)

def releaseIf (g : Guards σ) (releaseSelectedChannel : Bool) (channelId : ℤ) (s : σ) : σ :=
  if releaseSelectedChannel then g.release channelId s else s

def afterRateLimit {ε : Type*} (cfg : Config) (a : Attempt ε) (st : LoopState) : Verdict :=
  if (st.param.retry : ℤ) < cfg.getRateLimitRetryTimes then
    if a.clientGone then .done else .again
  else .done

def LoopState.addUsedChannel (st : LoopState) (channelId : ℤ) : LoopState :=
  { st with ctx := { st.ctx with useChannel := st.ctx.useChannel ++ [channelId] } }

def relayAttempt (cfg : Config) (g : Gateway σ) (a : Attempt NewAPIError) (st : LoopState) (s : σ) :
    (Verdict × LoopState) × σ :=
  match getChannel cfg g.toGuards a st s with
  | ((.error _, st), s) => ((.done, st), s)
  | ((.ok channelId, st), s) =>
      let releaseSelectedChannel := st.hasChannelMeta
      let st := st.addUsedChannel channelId
      if a.bodyUnreadable then
        ((.done, st), releaseIf g.toGuards releaseSelectedChannel channelId s)
      else
        -- every handler begins with `InitChannelMeta`
        let st := { st with hasChannelMeta := true }
        match a.upstream with
        | none =>
            ((.done, st), releaseIf g.toGuards releaseSelectedChannel channelId
              (g.markSuccess channelId s))
        | some err =>
            if err.isRateLimit then
              ((afterRateLimit cfg a st, st), releaseIf g.toGuards releaseSelectedChannel channelId s)
            else
              -- auth errors count as failures too; they only differ in the decision to go on
              let s := releaseIf g.toGuards releaseSelectedChannel channelId (g.markFailure channelId s)
              if err.isAuthError then
                ((if (st.param.retry : ℤ) < cfg.retryTimes then .again else .done, st), s)
              else if shouldRetry cfg st.ctx err (cfg.retryTimes - st.param.retry) then
                ((.again, st), s)
              else ((.done, st), s)

def getTaskChannel (cfg : Config) (g : Guards σ) (locked : Option ℤ) (a : Attempt TaskError)
    (st : LoopState) (s : σ) : (Except NewAPIError ℤ × LoopState) × σ :=
  match locked with
  | none => getChannel cfg g a st s
  | some channelId =>
      if st.param.retry = 0 then ((.ok channelId, st), s)
      else match a.setupError with
        | some err => ((.error err, st.select channelId), s)
        | none => ((.ok channelId, st.select channelId), s)

def relayTaskAttempt (cfg : Config) (g : Gateway σ) (locked : Option ℤ) (a : Attempt TaskError)
    (st : LoopState) (s : σ) : (Verdict × LoopState) × σ :=
  match getTaskChannel cfg g.toGuards locked a st s with
  | ((.error _, st), s) => ((.done, st), s)
  | ((.ok channelId, st), s) =>
      let releaseSelectedChannel := st.hasChannelMeta
      let st := st.addUsedChannel channelId
      if a.bodyUnreadable then
        ((.done, st), releaseIf g.toGuards releaseSelectedChannel channelId s)
      else
        -- `RelayTaskSubmit` begins with `InitChannelMeta`
        let st := { st with hasChannelMeta := true }
        match a.upstream with
        | none =>
            ((.done, st), releaseIf g.toGuards releaseSelectedChannel channelId
              (g.markSuccess channelId s))
        | some err =>
            if !err.localError && err.apiError.isRateLimit then
              ((afterRateLimit cfg a st, st), releaseIf g.toGuards releaseSelectedChannel channelId s)
            else if !err.localError && err.apiError.isAuthError then
              ((.done, st), releaseIf g.toGuards releaseSelectedChannel channelId s)
            else
              let s := releaseIf g.toGuards releaseSelectedChannel channelId
                (if err.localError then s else g.markFailure channelId s)
              if shouldRetryTaskRelay st.ctx err (cfg.retryTimes - st.param.retry) then
                ((.again, st), s)
              else ((.done, st), s)

/-! ## The loop -/

/-- `for ; retryParam.GetRetry() <= common.RetryTimes; retryParam.IncreaseRetry()`, and whether it ended or the inputs were
used up. -/
def retryLoop {α : Type*} (cfg : Config) (body : α → LoopState → σ → (Verdict × LoopState) × σ) :
    List α → LoopState → σ → (Bool × LoopState) × σ
  | [], st, s => ((decide (cfg.retryTimes < st.param.retry), st), s)
  | a :: rest, st, s =>
      if cfg.retryTimes < st.param.retry then ((true, st), s)
      else match body a st s with
        | ((.done, st), s) => ((true, st), s)
        | ((.again, st), s) =>
            retryLoop cfg body rest { st with param := st.param.increaseRetry } s

end HotAI.Relay
