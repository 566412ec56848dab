import HotAI.Lib.GoStrings
import HotAI.Lib.Table
import HotAI.Routing.Engine

/-! # Choosing a channel from the in-memory cache (`model/channel_cache.go`)

`GetRandomSatisfiedChannel` lists the channels of a group and a model that serve the request path, takes the priority tier that
the retry count points at, keeps the channels which breaker and limiter admit (any state with the five calls of `Guards`), and
draws one by weight. -/
namespace HotAI.Routing
open HotAI.Lib List

/-! ## Channels and the cache -/

/-- The fields of `Channel` that selection reads. -/
structure Channel where
  id : ℤ
  type : ℤ
  weight : Option ℕ
  priority : Option ℤ
  responseTime : ℤ
  pricePerToken : Option ℚ
  pricePerRequest : Option ℚ
deriving DecidableEq, Repr

def channelTypeAdvancedCustom : ℤ := 58

def Channel.getPriority (channel : Channel) : ℤ := channel.priority.getD 0

def Channel.getWeight (channel : Channel) : ℕ := channel.weight.getD 0

/-- `AdvancedCustomConfig`: the incoming paths of its routes. -/
structure AdvancedCustomConfig where
  incomingPaths : List String
deriving DecidableEq, Repr

def advancedCustomModelPlaceholder : String := "\x7bmodel\x7d"

def matchAdvancedCustomIncomingPathTemplate (configuredPath requestPath : String) : Bool :=
  if !contains configuredPath advancedCustomModelPlaceholder then configuredPath == requestPath
  else match split configuredPath advancedCustomModelPlaceholder with
    | [before, after] =>
        if !hasPrefix requestPath before || !hasSuffix requestPath after then false
        else
          let model := trimSuffix (trimPrefix requestPath before) after
          model != "" && !contains model "/"
    | _ => false

def matchAdvancedCustomIncomingPath (configuredPath requestPath : String) : Bool :=
  if matchAdvancedCustomIncomingPathTemplate configuredPath requestPath then true
  else if contains configuredPath ":generateContent" then
    let streamPath := replaceFirst configuredPath ":generateContent" ":streamGenerateContent"
    matchAdvancedCustomIncomingPathTemplate streamPath requestPath
  else false

def AdvancedCustomConfig.supportsPath (config : AdvancedCustomConfig) (requestPath : String) : Bool :=
  config.incomingPaths.any fun path => matchAdvancedCustomIncomingPath (trimSpace path) requestPath

/-- The package variables of `channel_cache.go`; missing lists read as empty, missing costs as zero. -/
structure ChannelCache where
  group2model2channels : String → String → List ℤ
  channelsIDM : Table Channel Channel.id
  channelCostIndex : String → String → ℤ → ℚ
  channel2advancedCustomConfig : ℤ → Option AdvancedCustomConfig

/-- A cache in which every listed id belongs to a channel, as a full sync leaves it. -/
structure ConsistentCache extends ChannelCache where
  listed : ∀ group model, ∀ id ∈ group2model2channels group model, channelsIDM.get id ≠ none

def routingCost (pricePerToken pricePerRequest : Option ℚ) : ℚ :=
  let positive (price : Option ℚ) : ℚ := match price with
    | some p => if 0 < p then p else 0
    | none => 0
  positive pricePerToken + positive pricePerRequest

def handleThinkingBudgetModel (name start wildcard : String) : String :=
  if hasPrefix name start && contains name "-thinking-" then wildcard else name

def formatMatchingModelName (name : String) : String :=
  let name :=
    if hasPrefix name "gemini-2.5-flash-lite" then
      handleThinkingBudgetModel name "gemini-2.5-flash-lite" "gemini-2.5-flash-lite-thinking-*"
    else if hasPrefix name "gemini-2.5-flash" then
      handleThinkingBudgetModel name "gemini-2.5-flash" "gemini-2.5-flash-thinking-*"
    else if hasPrefix name "gemini-2.5-pro" then
      handleThinkingBudgetModel name "gemini-2.5-pro" "gemini-2.5-pro-thinking-*"
    else name
  let name := if hasPrefix name "gpt-4-gizmo" then "gpt-4-gizmo-*" else name
  if hasPrefix name "gpt-4o-gizmo" then "gpt-4o-gizmo-*" else name

namespace ChannelCache

def costForChannel (cache : ChannelCache) (group model : String) (channel : Channel) : ℚ :=
  let normalizedModel := formatMatchingModelName model
  let exact := cache.channelCostIndex group model channel.id
  let normalized := cache.channelCostIndex group normalizedModel channel.id
  if 0 < exact then exact
  else if normalizedModel ≠ model ∧ 0 < normalized then normalized
  else routingCost channel.pricePerToken channel.pricePerRequest

/-- Whether a listed id stays for this path; one without a channel does, for the consistency error later. -/
def keepsPath (cache : ChannelCache) (requestPath : String) (channelId : ℤ) : Bool :=
  match cache.channelsIDM.get channelId with
  | none => true
  | some channel =>
      if channel.type ≠ channelTypeAdvancedCustom then true
      else match cache.channel2advancedCustomConfig channelId with
        | some config => config.supportsPath requestPath
        | none => false

def filterChannelsByRequestPath (cache : ChannelCache) (channels : List ℤ) (requestPath : String) : List ℤ :=
  if requestPath == "" then channels else channels.filter (cache.keepsPath requestPath)

/-- The channels listed for the exact model name or, when none is left, for its normalised name. -/
def candidates (cache : ChannelCache) (group model requestPath : String) : List ℤ :=
  let exact := cache.filterChannelsByRequestPath (cache.group2model2channels group model) requestPath
  if exact = [] then
    cache.filterChannelsByRequestPath
      (cache.group2model2channels group (formatMatchingModelName model)) requestPath
  else exact

end ChannelCache

/-! ## Breaker and limiter as selection calls them -/

structure Guards (σ : Type*) where
  canSelect : ℤ → σ → Bool × σ
  canAcquire : ℤ → σ → Bool × σ
  acquire : ℤ → σ → Bool × σ
  release : ℤ → σ → σ
  markSelected : ℤ → σ → Bool × σ

variable {σ : Type*}

def channelSelectable (g : Guards σ) (channelID : ℤ) (s : σ) : Bool × σ :=
  let (allowed, s) := g.canSelect channelID s
  if allowed then g.canAcquire channelID s else (false, s)

def markChannelSelected (g : Guards σ) (channelID : ℤ) (s : σ) : Bool × σ :=
  let (acquired, s) := g.acquire channelID s
  if !acquired then (false, s)
  else
    let (marked, s) := g.markSelected channelID s
    if marked then (true, s) else (false, g.release channelID s)

/-! ## The selection -/

/-- What Go returns as `(*Channel, error)`. -/
abbrev Pick := Option Channel × Option String

def missingChannel (channelId : ℤ) : Pick :=
  (none, some ("数据库一致性错误，渠道# " ++ toString channelId ++ " 不存在，请联系管理员修复"))

def sortedUniquePriorities (channels : List Channel) : List ℤ :=
  (channels.map Channel.getPriority).dedup.insertionSort (· ≥ ·)

def targetPriority (channels : List Channel) (retry : ℕ) : ℤ :=
  let priorities := sortedUniquePriorities channels
  let retry := if priorities.length ≤ retry then priorities.length - 1 else retry
  priorities.getD retry 0

def lookupAll (cache : ChannelCache) : List ℤ → Except ℤ (List Channel)
  | [] => .ok []
  | id :: ids => match cache.channelsIDM.get id with
      | none => .error id
      | some channel => (lookupAll cache ids).map (channel :: ·)

def targetChannels (g : Guards σ) (target : ℤ) : List Channel → σ → List Channel × σ
  | [], s => ([], s)
  | channel :: rest, s =>
      if channel.getPriority = target then
        let (selectable, s) := channelSelectable g channel.id s
        let (chosen, s) := targetChannels g target rest s
        (if selectable then channel :: chosen else chosen, s)
      else targetChannels g target rest s

def baseWeights (channels : List Channel) : List ℤ :=
  let sumWeight := (channels.map Channel.getWeight).sum
  let smoothingFactor := if sumWeight ≠ 0 ∧ sumWeight / channels.length < 10 then 100 else 1
  let smoothingAdjustment := if sumWeight = 0 then 100 else 0
  channels.map fun ch => ch.getWeight * smoothingFactor + smoothingAdjustment

/-- The settings of the routing engine and the success rates the tracker reports. -/
structure Scoring where
  engine : Engine
  getSuccessRate : ℤ → ℚ

def adjustedWeights (scoring : Scoring) (cache : ChannelCache) (group model : String) (channels : List Channel) : List ℤ :=
  let inputs := List.zipWith (fun (ch : Channel) baseWeight =>
    { channelID := ch.id
      baseWeight
      responseTime := ch.responseTime
      cost := cache.costForChannel group model ch
      successRate := scoring.getSuccessRate ch.id : ChannelData }) channels (baseWeights channels)
  (scoring.engine.calculate inputs).map ChannelScore.finalWeight

/-- The draw loop. A channel that cannot be marked any more is skipped and the next tried whatever its weight. -/
def drawChannel (g : Guards σ) : List (Channel × ℤ) → ℤ → σ → Option Channel × σ
  | [], _, s => (none, s)
  | (channel, weight) :: rest, randomWeight, s =>
      let randomWeight := randomWeight - weight
      if randomWeight < 0 then
        let (marked, s) := markChannelSelected g channel.id s
        if marked then (some channel, s) else drawChannel g rest randomWeight s
      else drawChannel g rest randomWeight s

def selectByPriority (g : Guards σ) (scoring : Scoring) (cache : ChannelCache)
    (group model : String) (retry draw : ℕ) (channels : List Channel) (s : σ) : Pick × σ :=
  let target := targetPriority channels retry
  let (targets, s) := targetChannels g target channels s
  if targets = [] then
    ((none, some ("no channel found, group: " ++ group ++ ", model: " ++ model ++ ", priority: "
      ++ toString target)), s)
  else
    let weights := adjustedWeights scoring cache group model targets
    if weights.sum ≤ 0 then ((none, some "channel not found"), s)
    else match drawChannel g (targets.zip weights) ((draw : ℤ) % weights.sum) s with
      | (some channel, s) => ((some channel, none), s)
      | (none, s) => ((none, some "channel not found"), s)

/-- `GetRandomSatisfiedChannel` with the memory cache switched on. -/
def getRandomSatisfiedChannel (g : Guards σ) (scoring : Scoring) (cache : ChannelCache)
    (group model : String) (retry : ℕ) (requestPath : String) (draw : ℕ) (s : σ) : Pick × σ :=
  match cache.candidates group model requestPath with
  | [] => ((none, none), s)
  | [channelId] => match cache.channelsIDM.get channelId with
      | none => (missingChannel channelId, s)
      | some channel =>
          let (selectable, s) := channelSelectable g channel.id s
          if !selectable then ((none, none), s)
          else
            let (marked, s) := markChannelSelected g channel.id s
            if marked then ((some channel, none), s) else ((none, none), s)
  | channels => match lookupAll cache channels with
      | .error channelId => (missingChannel channelId, s)
      | .ok channels => selectByPriority g scoring cache group model retry draw channels s

/-! ## Where a selected channel comes from -/

variable {cache : ChannelCache} {channel : Channel} {g : Guards σ}

theorem mem_candidates {group model requestPath : String} {id : ℤ} (h : id ∈ cache.candidates group model requestPath) :
    ∃ name, id ∈ cache.group2model2channels group name := by
  have hfilter : ∀ name, id ∈ cache.filterChannelsByRequestPath
      (cache.group2model2channels group name) requestPath → id ∈ cache.group2model2channels group name := by
    intro name hid
    unfold ChannelCache.filterChannelsByRequestPath at hid
    split at hid
    · exact hid
    · exact mem_of_mem_filter hid
  unfold ChannelCache.candidates at h
  dsimp only at h
  split at h
  · exact ⟨_, hfilter _ h⟩
  · exact ⟨_, hfilter _ h⟩

variable {channels : List Channel} {s : σ} {group model : String} {scoring : Scoring}

theorem mem_of_lookupAll {ids : List ℤ} (h : lookupAll cache ids = .ok channels) (hmem : channel ∈ channels) :
    ∃ id ∈ ids, cache.channelsIDM.get id = some channel := by
  induction ids generalizing channels with
  | nil =>
    cases h
    cases hmem
  | cons id ids ih =>
    unfold lookupAll at h
    split at h
    · cases h
    · next first hfirst =>
      obtain ⟨rest, hrest, rfl⟩ := except_map_ok h
      rcases mem_cons.mp hmem with rfl | hmem
      · exact ⟨id, mem_cons_self .., hfirst⟩
      · obtain ⟨i, hi, hget⟩ := ih hrest hmem
        exact ⟨i, mem_cons_of_mem _ hi, hget⟩

theorem mem_of_targetChannels {target : ℤ} (h : channel ∈ (targetChannels g target channels s).1) : channel ∈ channels := by
  induction channels generalizing s with
  | nil => exact h
  | cons first rest ih =>
    unfold targetChannels at h
    split at h
    · dsimp only at h
      split at h
      · rcases mem_cons.mp h with rfl | h
        · exact mem_cons_self ..
        · exact mem_cons_of_mem _ (ih h)
      · exact mem_cons_of_mem _ (ih h)
    · exact mem_cons_of_mem _ (ih h)

theorem mem_of_drawChannel {weighted : List (Channel × ℤ)} {randomWeight : ℤ}
    (h : (drawChannel g weighted randomWeight s).1 = some channel) :
    ∃ weight, (channel, weight) ∈ weighted := by
  induction weighted generalizing randomWeight s with
  | nil => cases h
  | cons first rest ih =>
    have hrest : ∀ {r : ℤ} {t : σ}, (drawChannel g rest r t).1 = some channel →
        ∃ weight, (channel, weight) ∈ first :: rest := by
      intro r t ht
      obtain ⟨weight, hweight⟩ := ih ht
      exact ⟨weight, mem_cons_of_mem _ hweight⟩
    obtain ⟨candidate, weight⟩ := first
    unfold drawChannel at h
    dsimp only at h
    split at h
    · split at h
      · cases h
        exact ⟨weight, mem_cons_self ..⟩
      · exact hrest h
    · exact hrest h

theorem mem_of_selectByPriority {retry draw : ℕ}
    (h : (selectByPriority g scoring cache group model retry draw channels s).1.1 = some channel) :
    channel ∈ channels := by
  unfold selectByPriority at h
  dsimp only at h
  split at h
  · cases h
  split at h
  · cases h
  split at h
  · next drawn _ hdraw =>
    cases h
    obtain ⟨weight, hweight⟩ := mem_of_drawChannel (congrArg Prod.fst hdraw)
    exact mem_of_targetChannels (of_mem_zip hweight).1
  · cases h

theorem mem_of_getRandomSatisfiedChannel {retry : ℕ} {requestPath : String} {draw : ℕ}
    (h : (getRandomSatisfiedChannel g scoring cache group model retry requestPath draw s).1.1 = some channel) :
    ∃ name, ∃ id ∈ cache.group2model2channels group name, cache.channelsIDM.get id = some channel := by
  have hlisted : ∀ id ∈ cache.candidates group model requestPath, cache.channelsIDM.get id = some channel →
      ∃ name, ∃ id ∈ cache.group2model2channels group name, cache.channelsIDM.get id = some channel := by
    intro id hid hget
    obtain ⟨name, hname⟩ := mem_candidates hid
    exact ⟨name, id, hname, hget⟩
  unfold getRandomSatisfiedChannel at h
  split at h
  · cases h
  · next id hids =>
    split at h
    · cases h
    · next found hfound =>
      dsimp only at h
      have heq : found = channel := by
        split at h
        · cases h
        · split at h
          · exact Option.some.inj h
          · cases h
      exact hlisted id (hids ▸ mem_singleton_self id) (heq ▸ hfound)
  · split at h
    · cases h
    · next channels hchannels =>
      obtain ⟨id, hid, hget⟩ := mem_of_lookupAll hchannels (mem_of_selectByPriority h)
      exact hlisted id hid hget

/-! ## What a selection can do -/

theorem selectByPriority_cases (g : Guards σ) (scoring : Scoring) (cache : ChannelCache)
    (group model : String) (retry draw : ℕ) (channels : List Channel) (s : σ) :
    (∃ err, selectByPriority g scoring cache group model retry draw channels s =
      ((none, some err), (targetChannels g (targetPriority channels retry) channels s).2)) ∨
    ∃ weighted randomWeight drawn, drawn = drawChannel g weighted randomWeight
        (targetChannels g (targetPriority channels retry) channels s).2 ∧
      selectByPriority g scoring cache group model retry draw channels s =
        ((drawn.1, if drawn.1.isSome then none else some "channel not found"), drawn.2) := by
  unfold selectByPriority
  dsimp only
  split
  · exact .inl ⟨_, rfl⟩
  · split
    · exact .inl ⟨_, rfl⟩
    · generalize hdrawn : drawChannel g _ _ _ = drawn
      refine .inr ⟨_, _, drawn, hdrawn.symm, ?_⟩
      obtain ⟨- | -, -⟩ := drawn <;> rfl

theorem getRandomSatisfiedChannel_cases (g : Guards σ) (scoring : Scoring) (cache : ChannelCache)
    (group model : String) (retry : ℕ) (requestPath : String) (draw : ℕ) (s : σ) :
    (∃ err, getRandomSatisfiedChannel g scoring cache group model retry requestPath draw s = ((none, err), s)) ∨
    (∃ channel : Channel, getRandomSatisfiedChannel g scoring cache group model retry requestPath
      draw s = ((none, none), (channelSelectable g channel.id s).2)) ∨
    (∃ channel marked, marked = markChannelSelected g channel.id (channelSelectable g channel.id s).2 ∧
      getRandomSatisfiedChannel g scoring cache group model retry requestPath draw s =
        ((if marked.1 then some channel else none, none), marked.2)) ∨
    ∃ channels, getRandomSatisfiedChannel g scoring cache group model retry requestPath draw s =
      selectByPriority g scoring cache group model retry draw channels s := by
  unfold getRandomSatisfiedChannel
  split
  · exact .inl ⟨_, rfl⟩
  · split
    · exact .inl ⟨_, rfl⟩
    · next channel _ =>
      dsimp only
      split
      · exact .inr (.inl ⟨channel, rfl⟩)
      · refine .inr (.inr (.inl ⟨channel, _, rfl, ?_⟩))
        split <;> rfl
  · split
    · exact .inl ⟨_, rfl⟩
    · exact .inr (.inr (.inr ⟨_, rfl⟩))

end HotAI.Routing
