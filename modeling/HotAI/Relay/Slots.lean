import HotAI.Relay.Request
import HotAI.Routing.Availability

/-! # Limiter slots over a whole request

Every call that moves a limiter slot is logged, and `net log id` is what is left taken on channel `id`. A selection from the
memory cache leaves the slot of the channel it returns, one from the database none, and every attempt after the first
releases one unless it ends in `getChannel`. `miscountedChannels` lists where the rest is not zero. -/
namespace HotAI.Relay
open HotAI.Lib HotAI.Routing

variable {σ : Type*}

/-! ## The log -/

inductive Event where
  | acquired (channelId : ℤ)
  | released (channelId : ℤ)
  | succeeded (channelId : ℤ)
  | failed (channelId : ℤ)
deriving DecidableEq, Repr

/-- The same gateway, logging the slots it hands out and takes back and what the breaker is told. -/
def logged (g : Gateway σ) : Gateway (σ × List Event) where
  canSelect id s := let (ok, t) := g.canSelect id s.1; (ok, (t, s.2))
  canAcquire id s := let (ok, t) := g.canAcquire id s.1; (ok, (t, s.2))
  acquire id s :=
    let (ok, t) := g.acquire id s.1
    (ok, (t, if ok then s.2 ++ [.acquired id] else s.2))
  release id s := (g.release id s.1, s.2 ++ [.released id])
  markSelected id s := let (ok, t) := g.markSelected id s.1; (ok, (t, s.2))
  markSuccess id s := (g.markSuccess id s.1, s.2 ++ [.succeeded id])
  markFailure id s := (g.markFailure id s.1, s.2 ++ [.failed id])

def net (log : List Event) (id : ℤ) : ℤ := log.count (.acquired id) - log.count (.released id)

def slotOn (channelId : Option ℤ) (id : ℤ) : ℤ := if channelId = some id then 1 else 0

@[simp] theorem slotOn_none (id : ℤ) : slotOn none id = 0 := rfl

variable (log : List Event)

theorem net_snoc (e : Event) (id : ℤ) : net (log ++ [e]) id = net log id + net [e] id := by
  simp only [net, List.count_append, Nat.cast_add]
  ring

@[simp] theorem net_acquired (c id : ℤ) : net (log ++ [.acquired c]) id = net log id + slotOn (some c) id := by
  rw [net_snoc]
  by_cases h : c = id <;> simp [net, slotOn, h]

@[simp] theorem net_released (c id : ℤ) : net (log ++ [.released c]) id = net log id - slotOn (some c) id := by
  rw [net_snoc]
  by_cases h : c = id <;> simp [net, slotOn, h, sub_eq_add_neg]

/-! ## What a selection leaves -/

section Selection
variable (g : Gateway σ) (id : ℤ)

theorem channelSelectable_log (c : ℤ) (s : σ × List Event) : (channelSelectable (logged g).toGuards c s).2.2 = s.2 := by
  unfold channelSelectable logged
  dsimp only
  split <;> rfl

theorem acquire_net (c : ℤ) (s : σ × List Event) : net ((logged g).acquire c s).2.2 id =
      net s.2 id + if ((logged g).acquire c s).1 then slotOn (some c) id else 0 := by
  by_cases hok : (g.acquire c s.1).1 = true <;> simp [logged, hok]

theorem release_net (c : ℤ) (s : σ × List Event) : net ((logged g).release c s).2 id = net s.2 id - slotOn (some c) id :=
  net_released ..

theorem markChannelSelected_net (c : ℤ) (s : σ × List Event) :
    net (markChannelSelected (logged g).toGuards c s).2.2 id = net s.2 id +
      if (markChannelSelected (logged g).toGuards c s).1 then slotOn (some c) id else 0 := by
  have hacquire := acquire_net g id c s
  have hlog : ∀ t, ((logged g).markSelected c t).2.2 = t.2 := fun t => rfl
  unfold markChannelSelected
  by_cases hok : ((logged g).acquire c s).1 = true
  · by_cases hmark : ((logged g).markSelected c ((logged g).acquire c s).2).1 = true
    · simpa [hok, hmark, hlog] using hacquire
    · simp [hok, hmark, release_net, hlog, hacquire]
  · simpa [hok] using hacquire

theorem targetChannels_log (target : ℤ) (channels : List Channel) (s : σ × List Event) :
    (targetChannels (logged g).toGuards target channels s).2.2 = s.2 := by
  induction channels generalizing s with
  | nil => rfl
  | cons channel rest ih =>
    unfold targetChannels
    split
    · exact (ih _).trans (channelSelectable_log g channel.id s)
    · exact ih s

theorem drawChannel_net (weighted : List (Channel × ℤ)) (r : ℤ) (s : σ × List Event) :
    net (drawChannel (logged g).toGuards weighted r s).2.2 id = net s.2 id +
      slotOn ((drawChannel (logged g).toGuards weighted r s).1.map Channel.id) id := by
  induction weighted generalizing r s with
  | nil => simp [drawChannel]
  | cons first rest ih =>
    obtain ⟨channel, weight⟩ := first
    unfold drawChannel
    by_cases hhit : r - weight < 0
    · have hmark := markChannelSelected_net g id channel.id s
      simp only [if_pos hhit]
      cases hok : (markChannelSelected (logged g).toGuards channel.id s).1 with
      | true => simpa [hok] using hmark
      | false =>
        simp only [hok, Bool.false_eq_true, if_false, add_zero] at hmark
        simp only [Bool.false_eq_true, if_false, ih, hmark]
    · simp only [if_neg hhit]
      exact ih _ s

theorem cached_net (scoring : Scoring) (cache : ChannelCache) (group model : String) (retry : ℕ)
    (path : String) (draw : ℕ) (s : σ × List Event) :
    net (Routing.getRandomSatisfiedChannel (logged g).toGuards scoring cache group model retry path
        draw s).2.2 id = net s.2 id +
      slotOn ((Routing.getRandomSatisfiedChannel (logged g).toGuards scoring cache group model retry
        path draw s).1.1.map Channel.id) id := by
  rcases getRandomSatisfiedChannel_cases (logged g).toGuards scoring cache group model retry path
    draw s with ⟨err, h⟩ | ⟨channel, h⟩ | ⟨channel, marked, hmarked, h⟩ | ⟨channels, h⟩
  · simp [h]
  · simp [h, channelSelectable_log]
  · have hnet := markChannelSelected_net g id channel.id
      (channelSelectable (logged g).toGuards channel.id s).2
    rw [← hmarked, channelSelectable_log] at hnet
    rw [h, hnet]
    by_cases hok : marked.1 = true <;> simp [hok]
  · rw [h]
    rcases selectByPriority_cases (logged g).toGuards scoring cache group model retry draw channels s
      with ⟨err, h⟩ | ⟨weighted, r, drawn, hdrawn, h⟩
    · simp [h, targetChannels_log]
    · have hnet := drawChannel_net g id weighted r
        (targetChannels (logged g).toGuards (targetPriority channels retry) channels s).2
      rw [← hdrawn, targetChannels_log] at hnet
      rw [h, hnet]

end Selection

theorem cached_exclusive (g : Guards σ) (scoring : Scoring) (cache : ChannelCache)
    (group model : String) (retry : ℕ) (path : String) (draw : ℕ) (s : σ)
    (h : (Routing.getRandomSatisfiedChannel g scoring cache group model retry path draw s).1.2 ≠ none) :
    (Routing.getRandomSatisfiedChannel g scoring cache group model retry path draw s).1.1 = none := by
  rcases getRandomSatisfiedChannel_cases g scoring cache group model retry path draw s with
    ⟨err, hr⟩ | ⟨channel, hr⟩ | ⟨channel, marked, -, hr⟩ | ⟨channels, hr⟩
  · rw [hr]
  · rw [hr]
  · rw [hr] at h
    exact absurd rfl h
  · rw [hr] at h ⊢
    rcases selectByPriority_cases g scoring cache group model retry draw channels s with
      ⟨err, hr⟩ | ⟨-, -, drawn, -, hr⟩
    · rw [hr]
    · rw [hr] at h ⊢
      by_cases hsome : drawn.1.isSome = true
      · simp [hsome] at h
      · simpa using hsome

section Requests
variable (cfg : Config) (g : Gateway σ) (id : ℤ)

def selectedSlot (channel : Option Channel) (id : ℤ) : ℤ :=
  if cfg.memoryCacheEnabled then slotOn (channel.map Channel.id) id else 0

theorem view_net (view : View) (group model : String) (retry : ℕ) (path : String) (s : σ × List Event) :
    net (view.getRandomSatisfiedChannel cfg.memoryCacheEnabled (logged g).toGuards group model retry
        path s).2.2 id = net s.2 id +
      selectedSlot cfg (view.getRandomSatisfiedChannel cfg.memoryCacheEnabled (logged g).toGuards
        group model retry path s).1.1 id := by
  unfold View.getRandomSatisfiedChannel selectedSlot
  by_cases hcache : cfg.memoryCacheEnabled = true
  · simp [hcache, cached_net]
  · simp [hcache]

theorem selectedSlot_of_error (view : View) (gs : Guards σ) (group model : String) (retry : ℕ)
    (path : String) (s : σ) {err : String} (herr : (view.getRandomSatisfiedChannel
      cfg.memoryCacheEnabled gs group model retry path s).1.2 = some err) :
    selectedSlot cfg (view.getRandomSatisfiedChannel cfg.memoryCacheEnabled gs group model retry path s).1.1 id = 0 := by
  unfold selectedSlot
  by_cases hcache : cfg.memoryCacheEnabled = true
  · simp only [View.getRandomSatisfiedChannel, hcache, Bool.not_true, Bool.false_eq_true,
      if_false] at herr ⊢
    have hnone := cached_exclusive gs view.scoring view.cache group model retry path view.draw s
      (by simp [herr])
    simp [hnone]
  · simp [hcache]

theorem autoGroupLoop_net (views : ℕ → View) (start : ℕ) (groups : List String) (i : ℕ)
    (param : RetryParam) (ctx : Context) (s : σ × List Event) :
    net (autoGroupLoop cfg (logged g).toGuards views start i groups param ctx s).2.2 id = net s.2 id + selectedSlot cfg
        (autoGroupLoop cfg (logged g).toGuards views start i groups param ctx s).1.channel id := by
  induction groups generalizing i param ctx s with
  | nil => simp [autoGroupLoop, selectedSlot]
  | cons autoGroup rest ih =>
    have hview := fun priorityRetry => view_net cfg g id (views i) autoGroup param.modelName
      priorityRetry param.requestPath s
    unfold autoGroupLoop
    dsimp only
    generalize (if start < i then 0 else param.retry) = priorityRetry
    specialize hview priorityRetry
    split
    · next hnone =>
      rw [ih, hview, hnone]
      simp [selectedSlot]
    · next channel hsome =>
      rw [hsome] at hview
      split <;> exact hview

theorem cacheGetRandomSatisfiedChannel_net (views : ℕ → View) (param : RetryParam) (ctx : Context) (s : σ × List Event) :
    net (cacheGetRandomSatisfiedChannel cfg (logged g).toGuards views param ctx s).2.2 id = net s.2 id + selectedSlot cfg
        (cacheGetRandomSatisfiedChannel cfg (logged g).toGuards views param ctx s).1.channel id := by
  unfold cacheGetRandomSatisfiedChannel
  split
  · split
    · simp [selectedSlot]
    · exact autoGroupLoop_net ..
  · have hview := view_net cfg g id (views 0) param.tokenGroup param.modelName param.retry
      param.requestPath s
    dsimp only
    split
    · next err herr =>
      rw [hview, selectedSlot_of_error cfg id _ _ _ _ _ _ _ herr]
      simp [selectedSlot]
    · exact hview

theorem autoGroupLoop_err (gs : Guards σ) (views : ℕ → View) (start : ℕ) (groups : List String)
    (i : ℕ) (param : RetryParam) (ctx : Context) (s : σ) :
    (autoGroupLoop cfg gs views start i groups param ctx s).1.err = none := by
  induction groups generalizing i param ctx s with
  | nil => rfl
  | cons autoGroup rest ih =>
    unfold autoGroupLoop
    dsimp only
    generalize (if start < i then 0 else param.retry) = priorityRetry
    split
    · exact ih ..
    · split <;> rfl

theorem selection_of_error (gs : Guards σ) (views : ℕ → View) (param : RetryParam) (ctx : Context) (s : σ) {err : String}
    (herr : (cacheGetRandomSatisfiedChannel cfg gs views param ctx s).1.err = some err) :
    (cacheGetRandomSatisfiedChannel cfg gs views param ctx s).1.channel = none := by
  unfold cacheGetRandomSatisfiedChannel at herr ⊢
  split at herr
  · split at herr
    · next hauto hgroups => rw [if_pos hauto, if_pos hgroups]
    · rw [autoGroupLoop_err] at herr
      cases herr
  · next hauto =>
    rw [if_neg hauto]
    dsimp only at herr ⊢
    split at herr
    · rfl
    · cases herr

/-! ## What an attempt leaves -/

/-- Where an attempt leaves a wrong count: a cached slot that a failed set-up keeps, or a release after the database gave none.
-/
def attemptFault {ε : Type*} (gs : Guards σ) (a : Attempt ε) (st : LoopState) (s : σ) : Option ℤ :=
  if !st.hasChannelMeta then none
  else match (cacheGetRandomSatisfiedChannel cfg gs a.views st.param st.ctx s).1.channel with
    | none => none
    | some channel =>
        if a.setupError.isSome = cfg.memoryCacheEnabled then some channel.id else none

def surplus : ℤ := if cfg.memoryCacheEnabled then 1 else -1

theorem releaseIf_net (flag : Bool) (c : ℤ) (s : σ × List Event) : net (releaseIf (logged g).toGuards flag c s).2 id =
      net s.2 id - if flag then slotOn (some c) id else 0 := by
  cases flag
  · simp [releaseIf]
  · simp [releaseIf, release_net]

theorem markSuccess_net (c : ℤ) (s : σ × List Event) :
    net ((logged g).markSuccess c s).2 id = net s.2 id := by simp [net, logged]

theorem markFailure_net (c : ℤ) (s : σ × List Event) :
    net ((logged g).markFailure c s).2 id = net s.2 id := by simp [net, logged]

theorem getChannel_net {ε : Type*} (a : Attempt ε) (st : LoopState) (s : σ × List Event) :
    match getChannel cfg (logged g).toGuards a st s with
    | ((.error _, _), t) => net t.2 id = net s.2 id +
        surplus cfg * slotOn (attemptFault cfg (logged g).toGuards a st s) id
    | ((.ok c, st'), t) => st'.hasChannelMeta = st.hasChannelMeta ∧
        net t.2 id - (if st.hasChannelMeta then slotOn (some c) id else 0) = net s.2 id +
          surplus cfg * slotOn (attemptFault cfg (logged g).toGuards a st s) id := by
  unfold getChannel attemptFault
  by_cases hmeta : st.hasChannelMeta = true
  · have hnet := cacheGetRandomSatisfiedChannel_net cfg g id a.views st.param st.ctx s
    have hexcl := @selection_of_error _ cfg (logged g).toGuards a.views st.param st.ctx s
    simp only [hmeta, Bool.not_true, Bool.false_eq_true, if_false, if_true]
    generalize cacheGetRandomSatisfiedChannel cfg (logged g).toGuards a.views st.param st.ctx s = r
      at hnet hexcl
    obtain ⟨⟨channel, group, err, param, ctx⟩, t⟩ := r
    cases err with
    | some err =>
      have hnone : channel = none := hexcl rfl
      subst hnone
      simpa [selectedSlot] using hnet
    | none =>
      cases channel with
      | none => simpa [selectedSlot] using hnet
      | some channel =>
        cases hsetup : a.setupError <;> cases hcache : cfg.memoryCacheEnabled <;>
          simp [selectedSlot, surplus, hcache, LoopState.select] at hnet ⊢ <;> omega
  · simp [hmeta]

theorem relayAttempt_net (a : Attempt NewAPIError) (st : LoopState) (s : σ × List Event) :
    net (relayAttempt cfg (logged g) a st s).2.2 id = net s.2 id +
      surplus cfg * slotOn (attemptFault cfg (logged g).toGuards a st s) id := by
  have hget := getChannel_net cfg g id a st s
  unfold relayAttempt
  generalize getChannel cfg (logged g).toGuards a st s = r at hget
  obtain ⟨⟨got, st'⟩, t⟩ := r
  cases got with
  | error err => exact hget
  | ok c =>
    obtain ⟨hmeta, hnet⟩ := hget
    rw [← hnet]
    dsimp only
    rw [hmeta]
    -- every way on ends in one conditional release
    split
    · exact releaseIf_net ..
    · split
      · rw [releaseIf_net, markSuccess_net]
      · split
        · exact releaseIf_net ..
        · split
          · rw [releaseIf_net, markFailure_net]
          · split <;> rw [releaseIf_net, markFailure_net]

theorem relayTaskAttempt_net (a : Attempt TaskError) (st : LoopState) (s : σ × List Event) :
    net (relayTaskAttempt cfg (logged g) none a st s).2.2 id = net s.2 id +
      surplus cfg * slotOn (attemptFault cfg (logged g).toGuards a st s) id := by
  have hget := getChannel_net cfg g id a st s
  unfold relayTaskAttempt getTaskChannel
  generalize getChannel cfg (logged g).toGuards a st s = r at hget
  obtain ⟨⟨got, st'⟩, t⟩ := r
  cases got with
  | error err => exact hget
  | ok c =>
    obtain ⟨hmeta, hnet⟩ := hget
    rw [← hnet]
    dsimp only
    have hreport : ∀ localError : Bool,
        net (if localError then t else (logged g).markFailure c t).2 id = net t.2 id := by
      intro localError
      cases localError
      · exact markFailure_net ..
      · rfl
    rw [hmeta]
    split
    · exact releaseIf_net ..
    · split
      · rw [releaseIf_net, markSuccess_net]
      · split
        · exact releaseIf_net ..
        · split
          · exact releaseIf_net ..
          · split <;> rw [releaseIf_net, hreport]

/-! ## What a request leaves -/

def loopFaults {α : Type*} (body : α → LoopState → σ → (Verdict × LoopState) × σ)
    (fault : α → LoopState → σ → Option ℤ) : List α → LoopState → σ → List ℤ
  | [], _, _ => []
  | a :: rest, st, s =>
      if cfg.retryTimes < st.param.retry then []
      else (fault a st s).toList ++ match body a st s with
        | ((.done, _), _) => []
        | ((.again, st), t) =>
            loopFaults body fault rest { st with param := st.param.increaseRetry } t

theorem count_toList (c : Option ℤ) : (c.toList.count id : ℤ) = slotOn c id := by
  cases c with
  | none => rfl
  | some c => by_cases h : c = id <;> simp [slotOn, h]

theorem retryLoop_net {α : Type*}
    {body : α → LoopState → σ × List Event → (Verdict × LoopState) × (σ × List Event)}
    {fault : α → LoopState → σ × List Event → Option ℤ}
    (hbody : ∀ a st s, net (body a st s).2.2 id = net s.2 id + surplus cfg * slotOn (fault a st s) id)
    (attempts : List α) (st : LoopState) (s : σ × List Event) :
    net (retryLoop cfg body attempts st s).2.2 id = net s.2 id +
      surplus cfg * (loopFaults cfg body fault attempts st s).count id := by
  induction attempts generalizing st s with
  | nil => simp [retryLoop, loopFaults]
  | cons a rest ih =>
    have hstep := hbody a st s
    unfold retryLoop loopFaults
    split
    · simp
    · generalize body a st s = r at hstep
      obtain ⟨⟨verdict, st'⟩, t⟩ := r
      rw [List.count_append, Nat.cast_add, count_toList]
      cases verdict with
      | done => simpa using hstep
      | again =>
        rw [ih, hstep]
        ring

def controllerFaults (g : Gateway σ) (route : Route) (st : LoopState) (s : σ) : List ℤ :=
  match route with
  | .relay true attempts =>
      loopFaults cfg (relayAttempt cfg g) (attemptFault cfg g.toGuards) attempts st s
  | .task attempts =>
      loopFaults cfg (relayTaskAttempt cfg g none) (attemptFault cfg g.toGuards) attempts st s
  | _ => []

/-- `Distribute` selects at random: the token names no channel, and no affinity channel gives a slot. -/
def chosenAtRandom (gs : Guards σ) (req : Incoming) (s : σ) : Bool :=
  req.specificChannel.isNone && req.route.shouldSelectChannel && match req.affinityChannel with
    | none => true
    | some channelId => !(gs.acquire channelId s).1

/-- The channels with a wrong count, once for each wrong step: drawn from the database and released, the retry loop's faults,
and held while a remix panics. -/
def miscountedChannels (g : Gateway σ) (req : Incoming) (tokenGroup : String) (s : σ) : List ℤ :=
  match distribute cfg g.toGuards req s with
  | (none, _) => []
  | (some d, t) => match req.route with
      | .remix (.found _) _ => d.channelId.toList
      | route =>
          (if chosenAtRandom g.toGuards req s && !cfg.memoryCacheEnabled then d.channelId.toList
            else []) ++ controllerFaults cfg g route (d.loopState req tokenGroup) t

def distributedSlot (gs : Guards σ) (req : Incoming) (d : Distributed) (s : σ) : ℤ :=
  if chosenAtRandom gs req s && !cfg.memoryCacheEnabled then 0 else slotOn d.channelId id

theorem distributeRandom_net (req : Incoming) (s : σ × List Event) :
    match distributeRandom cfg (logged g).toGuards req s with
    | (none, t) => net t.2 id = net s.2 id
    | (some d, t) => d.limiterAcquired = d.channelId.isSome ∧
        net t.2 id = net s.2 id + if !cfg.memoryCacheEnabled then 0 else slotOn d.channelId id := by
  have hnet := cacheGetRandomSatisfiedChannel_net cfg g id req.views req.param req.ctx s
  have hexcl := @selection_of_error _ cfg (logged g).toGuards req.views req.param req.ctx s
  unfold distributeRandom
  generalize cacheGetRandomSatisfiedChannel cfg (logged g).toGuards req.views req.param req.ctx s = r
    at hnet hexcl
  obtain ⟨⟨channel, group, err, param, ctx⟩, t⟩ := r
  cases err with
  | some err =>
    have hnone : channel = none := hexcl rfl
    subst hnone
    simpa [selectedSlot] using hnet
  | none =>
    cases channel with
    | none => simpa [selectedSlot] using hnet
    | some channel =>
      refine ⟨rfl, hnet.trans ?_⟩
      cases hcache : cfg.memoryCacheEnabled <;> simp [selectedSlot, hcache]

theorem distributeSelect_net (req : Incoming) (hspecific : req.specificChannel = none) (s : σ × List Event) :
    match distributeSelect cfg (logged g).toGuards req s with
    | (none, t) => net t.2 id = net s.2 id
    | (some d, t) => d.limiterAcquired = d.channelId.isSome ∧
        net t.2 id = net s.2 id + distributedSlot cfg id (logged g).toGuards req d s := by
  unfold distributeSelect distributedSlot chosenAtRandom
  rw [hspecific]
  by_cases hallowed : req.allowed = true
  · by_cases hselect : req.route.shouldSelectChannel = true
    · simp only [hallowed, hselect, Bool.not_true, Bool.false_eq_true, if_false, Option.isNone_none,
        Bool.true_and]
      -- a random selection that starts with the log as it was
      have hrandom : ∀ u : σ × List Event, net u.2 id = net s.2 id →
          match distributeRandom cfg (logged g).toGuards req u with
          | (none, t) => net t.2 id = net s.2 id
          | (some d, t) => d.limiterAcquired = d.channelId.isSome ∧ net t.2 id = net s.2 id +
              if !cfg.memoryCacheEnabled then 0 else slotOn d.channelId id := by
        intro u hu
        rw [← hu]
        exact distributeRandom_net cfg g id req u
      cases haffinity : req.affinityChannel with
      | none => simpa using hrandom s rfl
      | some c =>
        have hacquire := acquire_net g id c s
        by_cases hok : ((logged g).acquire c s).1 = true
        · simpa [hok] using hacquire
        · simp only [hok, Bool.false_eq_true, if_false, add_zero] at hacquire
          simpa [hok] using hrandom _ hacquire
    · simp [hallowed, hselect]
  · simp [hallowed]

theorem distribute_net (req : Incoming) (s : σ × List Event) :
    match distribute cfg (logged g).toGuards req s with
    | (none, t) => net t.2 id = net s.2 id
    | (some d, t) => d.limiterAcquired = d.channelId.isSome ∧
        net t.2 id = net s.2 id + distributedSlot cfg id (logged g).toGuards req d s := by
  unfold distribute
  by_cases hform : req.wellFormed = true
  · simp only [hform, Bool.not_true, Bool.false_eq_true, if_false]
    match hspecific : req.specificChannel with
    | none => exact distributeSelect_net cfg g id req hspecific s
    | some none => rfl
    | some (some c) =>
      have hacquire := acquire_net g id c s
      by_cases hok : ((logged g).acquire c s).1 = true
      · simpa [hok, distributedSlot, chosenAtRandom, hspecific] using hacquire
      · simpa [hok] using hacquire
  · simp [hform]

end Requests

/-! ## The balance of a request -/

theorem controller_net (cfg : Config) (g : Gateway σ) (id : ℤ) (route : Route) (st : LoopState)
    (s : σ × List Event) (hmeta : st.hasChannelMeta = false) :
    net (controller cfg (logged g) route st s).2.2 id = net s.2 id +
      surplus cfg * (controllerFaults cfg (logged g) route st s).count id := by
  unfold controller controllerFaults
  match route with
  | .relay false attempts => simp
  | .relay true attempts => exact retryLoop_net cfg id (relayAttempt_net cfg g id) attempts st s
  | .task attempts => exact retryLoop_net cfg id (relayTaskAttempt_net cfg g id) attempts st s
  | .remix .unusable attempts => simp [resolveOriginTask]
  | .remix (.found c) attempts => simp [resolveOriginTask, hmeta]

theorem controller_panicked_iff (cfg : Config) (g : Gateway σ) (route : Route) (st : LoopState)
    (s : σ) (hmeta : st.hasChannelMeta = false) :
    (controller cfg g route st s).1 = .panicked ↔ ∃ c attempts, route = .remix (.found c) attempts := by
  have hloop : ∀ finished, loopFinish finished ≠ .panicked := by decide
  unfold controller
  match route with
  | .relay false attempts => simp
  | .relay true attempts => simp [hloop]
  | .task attempts => simp [hloop]
  | .remix .unusable attempts => simp [resolveOriginTask]
  | .remix (.found c) attempts => simp [resolveOriginTask, hmeta]

theorem close_net (g : Gateway σ) (id : ℤ) {d : Distributed}
    (hflag : d.limiterAcquired = d.channelId.isSome) (s : σ × List Event) :
    net (d.close (logged g).toGuards .returned s).2 id = net s.2 id - slotOn d.channelId id := by
  unfold Distributed.close
  cases hchannel : d.channelId with
  | none => simp
  | some c => simp [releaseIf_net, hflag, hchannel]

theorem serve_net (cfg : Config) (g : Gateway σ) (req : Incoming) (tokenGroup : String)
    (s : σ × List Event) (hend : (serve cfg (logged g) req tokenGroup s).1 ≠ .waiting) :
    ∃ side : ℤ, side ≠ 0 ∧ ∀ id, net (serve cfg (logged g) req tokenGroup s).2.2 id =
      net s.2 id + side * (miscountedChannels cfg (logged g) req tokenGroup s).count id := by
  have hdist := fun id => distribute_net cfg g id req s
  unfold serve miscountedChannels at *
  generalize distribute cfg (logged g).toGuards req s = r at hdist hend ⊢
  obtain ⟨- | d, t⟩ := r
  · exact ⟨1, one_ne_zero, fun id => by simpa using hdist id⟩
  · have hmeta : (d.loopState req tokenGroup).hasChannelMeta = false := rfl
    have hnet := fun id => controller_net cfg g id req.route _ t hmeta
    have hpanic := controller_panicked_iff cfg (logged g) req.route _ t hmeta
    dsimp only at hend hdist ⊢
    generalize controller cfg (logged g) req.route (d.loopState req tokenGroup) t = r at *
    obtain ⟨finish, u⟩ := r
    cases finish with
    | waiting => exact absurd rfl hend
    | panicked =>
      -- the slot that `Distribute` took stays taken
      obtain ⟨c, attempts, hroute⟩ := hpanic.mp rfl
      refine ⟨1, one_ne_zero, fun id => ?_⟩
      have hheld := (hdist id).2
      rw [hroute] at hnet ⊢
      simp only [distributedSlot, chosenAtRandom, hroute, Route.shouldSelectChannel, Bool.and_false,
        Bool.false_and, Bool.false_eq_true, if_false] at hheld
      simp only [controllerFaults, List.count_nil, Nat.cast_zero, mul_zero, add_zero] at hnet
      rw [one_mul, count_toList, ← hheld, ← hnet]
      rfl
    | returned =>
      have hroute : ∀ c attempts, req.route ≠ .remix (.found c) attempts := by
        intro c attempts h
        exact absurd (hpanic.mpr ⟨c, attempts, h⟩) (by simp)
      refine ⟨surplus cfg, by unfold surplus; split <;> decide, fun id => ?_⟩
      obtain ⟨hflag, hheld⟩ := hdist id
      rw [close_net g id hflag, hnet, hheld]
      split
      · next c attempts h => exact absurd h (hroute c attempts)
      · rw [List.count_append, distributedSlot]
        -- a channel drawn from the database is released without a slot
        cases hrandom : chosenAtRandom (logged g).toGuards req s <;>
          cases hcache : cfg.memoryCacheEnabled <;>
          simp [surplus, hcache, count_toList] <;> ring

theorem balanced_iff_net {log : List Event} :
    (∀ id, log.count (.acquired id) = log.count (.released id)) ↔ ∀ id, net log id = 0 := by
  refine forall_congr' fun id => ?_
  unfold net
  omega

/-- When a request has ended, every slot taken for it was given back exactly once, or some step of it
left a wrong count. -/
theorem slots_given_back_iff (cfg : Config) (g : Gateway σ) (req : Incoming) (tokenGroup : String)
    (s : σ) (hend : (serve cfg (logged g) req tokenGroup (s, [])).1 ≠ .waiting) :
    (∀ id, (serve cfg (logged g) req tokenGroup (s, [])).2.2.count (.acquired id) =
      (serve cfg (logged g) req tokenGroup (s, [])).2.2.count (.released id)) ↔
    miscountedChannels cfg (logged g) req tokenGroup (s, []) = [] := by
  obtain ⟨side, hside, hnet⟩ := serve_net cfg g req tokenGroup (s, []) hend
  have hzero : ∀ id, net (serve cfg (logged g) req tokenGroup (s, [])).2.2 id = 0 ↔
      (miscountedChannels cfg (logged g) req tokenGroup (s, [])).count id = 0 := by
    intro id
    rw [hnet, net]
    simp [hside]
  rw [balanced_iff_net, forall_congr' hzero, List.eq_nil_iff_forall_not_mem]
  exact forall_congr' fun id => List.count_eq_zero

section Samples

def sharedGateway (limits : Limits) : Gateway Shared where
  toGuards := sharedGuards limits
  markSuccess id s := { s with
    breakers := CircuitBreaker.markSuccess limits.breaker limits.now s.breakers id }
  markFailure id s := { s with
    breakers := CircuitBreaker.markFailure limits.breaker limits.now s.breakers id }

def idle : Shared := ⟨fun _ => none, fun _ => none⟩

def sampleView : View where
  cache := sampleCache.toChannelCache
  database :=
    { abilities := [⟨"default", "gpt-test", 1, true, 10, 10⟩]
      channels := sampleCache.channelsIDM
      advancedCustom := fun _ => none }
  scoring := sampleScoring
  draw := 0

def sampleConfig (memoryCacheEnabled : Bool) : Config where
  memoryCacheEnabled
  retryTimes := 1
  rateLimitRetryTimes := 3
  autoGroups := []
  groupUsable _ _ := true
  automaticRetryStatusCodeRanges := [(500, 503)]

def sampleAttempt (upstream : Option NewAPIError) : Attempt NewAPIError where
  views _ := sampleView
  setupError := none
  bodyUnreadable := false
  upstream
  clientGone := false

def sampleRequest (attempts : List (Attempt NewAPIError)) : Incoming where
  wellFormed := true
  specificChannel := none
  allowed := true
  affinityChannel := none
  views _ := sampleView
  usingGroup := "default"
  modelName := "gpt-test"
  requestPath := ""
  ctx := ⟨"default", false, false, false, none, 0, []⟩
  route := .relay true attempts

def upstreamDown : NewAPIError := ⟨"upstream error", 500, "bad_response_status_code", false⟩

/-- With the cache, a failed first attempt on channel 1 and a second one on channel 2. -/
theorem slots_given_back_iff_retry : (serve (sampleConfig true) (logged (sharedGateway sampleLimits))
        (sampleRequest [sampleAttempt (some upstreamDown), sampleAttempt none]) "default"
        (idle, [])).1 ≠ .waiting ∧
      ∀ id, (serve (sampleConfig true) (logged (sharedGateway sampleLimits))
          (sampleRequest [sampleAttempt (some upstreamDown), sampleAttempt none]) "default"
          (idle, [])).2.2.count (.acquired id) =
        (serve (sampleConfig true) (logged (sharedGateway sampleLimits))
          (sampleRequest [sampleAttempt (some upstreamDown), sampleAttempt none]) "default"
          (idle, [])).2.2.count (.released id) :=
  ⟨by decide +kernel, (slots_given_back_iff (sampleConfig true) (sharedGateway sampleLimits)
    (sampleRequest [sampleAttempt (some upstreamDown), sampleAttempt none]) "default" idle
    (by decide +kernel)).mpr (by decide +kernel)⟩

/-- Without the memory cache a request that succeeds at once acquires nothing and releases channel 1
all the same. -/
theorem uncached_request_releases_unacquired : (serve (sampleConfig false) (logged (sharedGateway sampleLimits))
        (sampleRequest [sampleAttempt none]) "default" (idle, [])).1 = .returned ∧
      (serve (sampleConfig false) (logged (sharedGateway sampleLimits))
        (sampleRequest [sampleAttempt none]) "default" (idle, [])).2.2 =
      [.succeeded 1, .released 1] := by
  decide +kernel

end Samples

end HotAI.Relay
