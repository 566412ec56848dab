import HotAI.CircuitBreaker.Breaker
import HotAI.Limiter.Limiter
import HotAI.Routing.Selection

/-! # When selection finds a channel

Selection runs on the real breakers and counters with nobody in between. Asking whether a channel is selectable changes no
later answer, and a selectable channel can be marked. Over any guards with these two laws, selection succeeds exactly when
the tier that the retry count points at has a selectable channel. -/
namespace HotAI.Routing
open HotAI.Lib List CircuitBreaker ChannelCache

/-! ## Guards that nobody else uses meanwhile -/

variable {σ : Type*}

structure Guards.Undisturbed (g : Guards σ) : Prop where
  ask_keeps : ∀ a id s, (channelSelectable g id (channelSelectable g a s).2).1 =
    (channelSelectable g id s).1
  mark_of_selectable : ∀ id s, (channelSelectable g id s).1 = true →
    (markChannelSelected g id s).1 = true

/-- Breaker and limiter settings, and the time at which the selection runs. -/
structure Limits where
  breaker : CircuitBreaker.Setting
  limiter : Limiter.ChannelLimiterSetting
  now : CircuitBreaker.Time

structure Shared where
  breakers : CircuitBreaker.Breakers
  counters : Limiter.Counters

/-- The calls of `circuitbreaker` and `channellimiter` on their maps. -/
def sharedGuards (limits : Limits) : Guards Shared where
  canSelect id s :=
    let (ok, breakers) := CircuitBreaker.canSelect limits.breaker limits.now s.breakers id
    (ok, { s with breakers })
  canAcquire id s :=
    let (ok, counters) := Limiter.canAcquire limits.limiter s.counters id
    (ok, { s with counters })
  acquire id s :=
    let (ok, counters) := Limiter.acquire limits.limiter s.counters id
    (ok, { s with counters })
  release id s := { s with counters := Limiter.release s.counters id }
  markSelected id s :=
    let (ok, breakers) := CircuitBreaker.markSelected limits.breaker limits.now s.breakers id
    (ok, { s with breakers })

section Breakers
open CircuitBreaker

variable (b : Breaker)

theorem refreshState_idem (setting : Setting) (now : Time) :
    (b.refreshState setting now).refreshState setting now = b.refreshState setting now := by
  unfold Breaker.refreshState
  split
  · rw [if_neg (by simp)]
  · rfl

theorem canSelect_snd (setting : Setting) (now : Time) : (b.canSelect setting now).2 = b.refreshState setting now := by
  unfold Breaker.canSelect
  dsimp only
  split <;> rfl

theorem canSelect_refreshState (setting : Setting) (now : Time) :
    ((b.refreshState setting now).canSelect setting now).1 = (b.canSelect setting now).1 := by
  simp only [Breaker.canSelect, refreshState_idem]

theorem markSelected_fst (setting : Setting) (now : Time) :
    (b.markSelected setting now).1 = (b.canSelect setting now).1 := by
  unfold Breaker.markSelected Breaker.canSelect
  dsimp only
  cases (b.refreshState setting now).state with
  | closed => rfl
  | «open» => rfl
  | halfOpen =>
    dsimp only
    split
    · next h => exact (decide_eq_false (by omega)).symm
    · next h => exact (decide_eq_true (by omega)).symm

theorem registry_canSelect_keeps (setting : Setting) (now : Time) (breakers : Breakers) (a id : ℤ) :
    (canSelect setting now (canSelect setting now breakers a).2 id).1 = (canSelect setting now breakers id).1 := by
  unfold canSelect withBreaker
  by_cases ha : (!setting.enabled || decide (a ≤ 0)) = true
  · rw [if_pos ha]
  · rw [if_neg ha]
    by_cases hid : (!setting.enabled || decide (id ≤ 0)) = true
    · rw [if_pos hid, if_pos hid]
    · rw [if_neg hid, if_neg hid]
      by_cases hsame : id = a
      · subst hsame
        simp [getBreaker, canSelect_snd, canSelect_refreshState]
      · simp only [getBreaker, Function.update_of_ne hsame]

theorem registry_markSelected_fst (setting : Setting) (now : Time) (breakers : Breakers) (id : ℤ) :
    (markSelected setting now breakers id).1 = (canSelect setting now breakers id).1 := by
  unfold markSelected canSelect withBreaker
  split
  · rfl
  · exact markSelected_fst ..

end Breakers

section Counters
open Limiter

variable (setting : ChannelLimiterSetting) (counters : Counters)

theorem canAcquire_fst (id : ℤ) : (canAcquire setting counters id).1 =
      (!setting.limits id || decide ((counters id).getD 0 < setting.maxConcurrentRequests)) := by
  unfold canAcquire getCounter
  cases hlimits : setting.limits id <;> cases hcount : counters id <;> simp

theorem canAcquire_snd (a id : ℤ) : ((canAcquire setting counters a).2 id).getD 0 = (counters id).getD 0 := by
  unfold canAcquire getCounter
  split
  · rfl
  · cases hcount : counters a with
    | some val => rfl
    | none =>
      by_cases hsame : id = a
      · subst hsame
        simp [hcount]
      · simp [Function.update_of_ne hsame]

theorem acquire_fst (id : ℤ) : (acquire setting counters id).1 = (canAcquire setting counters id).1 := by
  unfold acquire canAcquire
  dsimp only
  split
  · rfl
  · split
    · next h => exact (decide_eq_true (by omega)).symm
    · next h => exact (decide_eq_false (by omega)).symm

end Counters

variable (limits : Limits)

theorem sharedGuards_selectable (id : ℤ) (s : Shared) : (channelSelectable (sharedGuards limits) id s).1 =
      ((canSelect limits.breaker limits.now s.breakers id).1 && (Limiter.canAcquire limits.limiter s.counters id).1) := by
  unfold channelSelectable sharedGuards
  dsimp only
  cases (canSelect limits.breaker limits.now s.breakers id).1 <;> simp

theorem sharedGuards_selectable_snd (a : ℤ) (s : Shared) (id : ℤ) :
    (canSelect limits.breaker limits.now (channelSelectable (sharedGuards limits) a s).2.breakers id).1 =
      (canSelect limits.breaker limits.now s.breakers id).1 ∧
    (Limiter.canAcquire limits.limiter (channelSelectable (sharedGuards limits) a s).2.counters id).1 =
      (Limiter.canAcquire limits.limiter s.counters id).1 := by
  unfold channelSelectable sharedGuards
  dsimp only
  split
  · refine ⟨registry_canSelect_keeps .., ?_⟩
    rw [canAcquire_fst, canAcquire_snd, ← canAcquire_fst]
  · exact ⟨registry_canSelect_keeps .., rfl⟩

theorem sharedGuards_undisturbed : (sharedGuards limits).Undisturbed where
  ask_keeps a id s := by
    obtain ⟨hbreaker, hcounter⟩ := sharedGuards_selectable_snd limits a s id
    rw [sharedGuards_selectable, sharedGuards_selectable, hbreaker, hcounter]
  mark_of_selectable id s h := by
    rw [sharedGuards_selectable, Bool.and_eq_true] at h
    obtain ⟨hbreaker, hcounter⟩ := h
    rw [← acquire_fst] at hcounter
    rw [← registry_markSelected_fst] at hbreaker
    unfold markChannelSelected sharedGuards
    simp [hcounter, hbreaker]

/-! ## The parts of a selection -/

def ChannelCache.channelsOf (cache : ChannelCache) (ids : List ℤ) : List Channel :=
  ids.filterMap cache.channelsIDM.get

/-- The id belongs to a channel of the tier that the retry count selects among `ids`. -/
def ChannelCache.inTargetTier (cache : ChannelCache) (ids : List ℤ) (retry : ℕ) (id : ℤ) : Prop :=
  (cache.channelsIDM.get id).map Channel.getPriority =
    some (targetPriority (cache.channelsOf ids) retry)

theorem lookupAll_of_listed (cache : ChannelCache) (ids : List ℤ) (h : ∀ id ∈ ids, cache.channelsIDM.get id ≠ none) :
    lookupAll cache ids = .ok (cache.channelsOf ids) := by
  induction ids with
  | nil => rfl
  | cons id ids ih =>
    obtain ⟨channel, hchannel⟩ := Option.ne_none_iff_exists'.mp (h id (mem_cons_self ..))
    rw [lookupAll, ih fun a ha => h a (mem_cons_of_mem _ ha)]
    simp [channelsOf, hchannel, Except.map]

theorem listed_of_candidate (cache : ConsistentCache) {group model requestPath : String} {id : ℤ}
    (h : id ∈ cache.candidates group model requestPath) : cache.channelsIDM.get id ≠ none := by
  obtain ⟨name, hname⟩ := mem_candidates h
  exact cache.listed group name id hname

section Laws
variable {g : Guards σ} (hg : g.Undisturbed)
include hg

theorem targetChannels_spec (target : ℤ) (channels : List Channel) (s : σ) :
    (targetChannels g target channels s).1 = channels.filter (fun c =>
      c.getPriority = target ∧ (channelSelectable g c.id s).1 = true) ∧
    ∀ id, (channelSelectable g id (targetChannels g target channels s).2).1 = (channelSelectable g id s).1 := by
  induction channels generalizing s with
  | nil => exact ⟨rfl, fun _ => rfl⟩
  | cons channel rest ih =>
    unfold targetChannels
    by_cases htier : channel.getPriority = target
    · obtain ⟨hchosen, hstate⟩ := ih (channelSelectable g channel.id s).2
      simp only [if_pos htier]
      refine ⟨?_, fun id => (hstate id).trans (hg.ask_keeps ..)⟩
      rw [hchosen, filter_cons]
      simp [htier, hg.ask_keeps]
    · obtain ⟨hchosen, hstate⟩ := ih s
      simp only [if_neg htier]
      refine ⟨?_, hstate⟩
      rw [hchosen, filter_cons_of_neg (by simp [htier])]

theorem drawChannel_isSome (weighted : List (Channel × ℤ)) (randomWeight : ℤ) (s : σ)
    (hnonneg : 0 ≤ randomWeight) (hlt : randomWeight < (weighted.map Prod.snd).sum)
    (hsel : ∀ p ∈ weighted, (channelSelectable g p.1.id s).1 = true) :
    (drawChannel g weighted randomWeight s).1.isSome = true := by
  induction weighted generalizing randomWeight with
  | nil =>
    simp at hlt
    omega
  | cons first rest ih =>
    obtain ⟨channel, weight⟩ := first
    unfold drawChannel
    by_cases hhit : randomWeight - weight < 0
    · have hmark := hg.mark_of_selectable _ _ (hsel _ (mem_cons_self ..))
      simp only [if_pos hhit, hmark, if_true, Option.isSome_some]
    · simp only [if_neg hhit]
      refine ih (randomWeight - weight) (by omega) ?_ fun p hp => hsel p (mem_cons_of_mem _ hp)
      simp only [map_cons, sum_cons] at hlt
      omega

end Laws

/-! ## The weights -/

variable {channels : List Channel}

theorem baseWeights_exists_pos (h : channels ≠ []) : ∃ base : Channel → ℤ, baseWeights channels = channels.map base ∧
      ∃ channel ∈ channels, 0 < base channel := by
  refine ⟨_, rfl, ?_⟩
  by_cases hsum : (channels.map Channel.getWeight).sum = 0
  · obtain ⟨channel, hchannel⟩ := exists_mem_of_ne_nil _ h
    refine ⟨channel, hchannel, ?_⟩
    rw [if_pos hsum]
    positivity
  · -- some channel has a weight of its own, and no factor is below one
    have hpos : ∃ channel ∈ channels, 0 < channel.getWeight := by
      by_contra hnone
      push Not at hnone
      refine hsum (sum_eq_zero fun w hw => ?_)
      obtain ⟨channel, hchannel, rfl⟩ := mem_map.mp hw
      exact Nat.le_zero.mp (hnone channel hchannel)
    obtain ⟨channel, hchannel, hweight⟩ := hpos
    refine ⟨channel, hchannel, ?_⟩
    split <;> omega

theorem adjustedWeights_sum_pos (scoring : Scoring) (cache : ChannelCache) (group model : String) (h : channels ≠ []) :
    (adjustedWeights scoring cache group model channels).length = channels.length ∧
      0 < (adjustedWeights scoring cache group model channels).sum := by
  obtain ⟨base, hbase, channel, hchannel, hpos⟩ := baseWeights_exists_pos h
  unfold adjustedWeights Engine.calculate
  rw [hbase, zipWith_map_right, zipWith_self, map_map, map_map]
  refine ⟨length_map _, ?_⟩
  refine lt_of_lt_of_le ?_ (weight_le_total _ channels channel hchannel fun u _ => ?_)
  · exact score_finalWeight_pos scoring.engine _ _ hpos
  · exact score_finalWeight_nonneg ..

/-! ## Selection succeeds exactly when the target tier has a selectable channel -/

theorem targetPriority_singleton (channel : Channel) (retry : ℕ) : targetPriority [channel] retry = channel.getPriority := by
  have hone : sortedUniquePriorities [channel] = [channel.getPriority] := rfl
  unfold targetPriority
  rw [hone]
  dsimp only
  have hretry : (if [channel.getPriority].length ≤ retry then [channel.getPriority].length - 1
      else retry) = 0 := by
    simp only [length_singleton]
    split <;> omega
  rw [hretry]
  rfl

theorem selectByPriority_isSome_iff {g : Guards σ} (hg : g.Undisturbed) (scoring : Scoring)
    (cache : ChannelCache) (group model : String) (retry draw : ℕ) (channels : List Channel) (s : σ) :
    (∃ channel, (selectByPriority g scoring cache group model retry draw channels s).1 = (some channel, none)) ↔
    ∃ channel ∈ channels, channel.getPriority = targetPriority channels retry ∧
      (channelSelectable g channel.id s).1 = true := by
  obtain ⟨htargets, hstate⟩ := targetChannels_spec hg (targetPriority channels retry) channels s
  unfold selectByPriority
  dsimp only
  set targets := (targetChannels g (targetPriority channels retry) channels s).1 with htargets_def
  have hmem : ∀ channel, channel ∈ targets ↔ channel ∈ channels ∧
      channel.getPriority = targetPriority channels retry ∧
        (channelSelectable g channel.id s).1 = true := by
    intro channel
    rw [htargets, mem_filter, decide_eq_true_eq]
  by_cases hnil : targets = []
  · rw [if_pos hnil]
    constructor
    · rintro ⟨channel, hsome⟩
      cases hsome
    · rintro ⟨channel, hchannel⟩
      have := (hmem channel).mpr hchannel
      rw [hnil] at this
      cases this
  · rw [if_neg hnil]
    obtain ⟨hlength, hsum⟩ := adjustedWeights_sum_pos scoring cache group model hnil
    rw [if_neg (by omega)]
    have hdraw := drawChannel_isSome hg
      (targets.zip (adjustedWeights scoring cache group model targets))
      ((draw : ℤ) % (adjustedWeights scoring cache group model targets).sum)
      (targetChannels g (targetPriority channels retry) channels s).2
      (Int.emod_nonneg _ (by omega))
      (by
        rw [map_snd_zip hlength.le]
        exact Int.emod_lt_of_pos _ hsum)
      (by
        intro p hp
        rw [hstate]
        exact ((hmem p.1).mp (of_mem_zip hp).1).2.2)
    obtain ⟨chosen, hchosen⟩ := Option.isSome_iff_exists.mp hdraw
    constructor
    · intro _
      obtain ⟨channel, hchannel⟩ := exists_mem_of_ne_nil _ hnil
      exact ⟨channel, (hmem channel).mp hchannel⟩
    · intro _
      refine ⟨chosen, ?_⟩
      split
      · next channel s' heq =>
        rw [heq] at hchosen
        exact congrArg (·, none) hchosen
      · next s' heq =>
        rw [heq] at hchosen
        cases hchosen

theorem getRandomSatisfiedChannel_isSome_iff {g : Guards σ} (hg : g.Undisturbed)
    (scoring : Scoring) (cache : ConsistentCache) (group model : String) (retry : ℕ)
    (requestPath : String) (draw : ℕ) (s : σ) :
    (∃ channel, (getRandomSatisfiedChannel g scoring cache.toChannelCache group model retry
      requestPath draw s).1 = (some channel, none)) ↔
    ∃ id ∈ cache.candidates group model requestPath, cache.inTargetTier (cache.candidates group model requestPath) retry id ∧
        (channelSelectable g id s).1 = true := by
  have hlisted : ∀ id ∈ cache.candidates group model requestPath, cache.channelsIDM.get id ≠ none :=
    fun id hid => listed_of_candidate cache hid
  unfold getRandomSatisfiedChannel
  generalize cache.candidates group model requestPath = ids at hlisted
  match ids, hlisted with
  | [], _ => simp
  | [id], hlisted =>
    obtain ⟨channel, hchannel⟩ := Option.ne_none_iff_exists'.mp (hlisted id (mem_cons_self ..))
    have hid : channel.id = id := Table.key_of_get hchannel
    have htier : cache.inTargetTier [id] retry id := by
      simp [inTargetTier, channelsOf, hchannel, targetPriority_singleton]
    simp only [hchannel, mem_singleton, exists_eq_left, htier, true_and]
    rw [hid]
    cases hsel : (channelSelectable g id s).1 with
    | false => simp
    | true =>
      have hmark : (markChannelSelected g id (channelSelectable g id s).2).1 = true :=
        hg.mark_of_selectable _ _ ((hg.ask_keeps id id s).trans hsel)
      simp [hmark]
  | first :: second :: rest, hlisted =>
    dsimp only
    rw [lookupAll_of_listed cache.toChannelCache _ hlisted]
    rw [selectByPriority_isSome_iff hg]
    constructor
    · rintro ⟨channel, hchannel, htier, hsel⟩
      obtain ⟨id, hid, hget⟩ := mem_filterMap.mp hchannel
      have hkey : channel.id = id := Table.key_of_get hget
      refine ⟨id, hid, ?_, hkey ▸ hsel⟩
      rw [inTargetTier, hget, Option.map_some, htier]
    · rintro ⟨id, hid, htier, hsel⟩
      obtain ⟨channel, hget⟩ := Option.ne_none_iff_exists'.mp (hlisted id hid)
      have hkey : channel.id = id := Table.key_of_get hget
      rw [inTargetTier, hget, Option.map_some, Option.some_inj] at htier
      exact ⟨channel, mem_filterMap.mpr ⟨id, hid, hget⟩, htier, hkey ▸ hsel⟩

def selectable (limits : Limits) (s : Shared) (id : ℤ) : Bool :=
  (channelSelectable (sharedGuards limits) id s).1

/-- With a selectable candidate every draw finds a channel, or the retry's tier has none selectable and no draw does. -/
theorem available_iff_target_tier_selectable (limits : Limits) (scoring : Scoring)
    (cache : ConsistentCache) (group model : String) (retry : ℕ) (requestPath : String) (s : Shared) :
    ((∃ id ∈ cache.candidates group model requestPath, selectable limits s id = true) →
      ∀ draw, ∃ channel, (getRandomSatisfiedChannel (sharedGuards limits) scoring
        cache.toChannelCache group model retry requestPath draw s).1 = (some channel, none)) ↔
    ((∃ id ∈ cache.candidates group model requestPath, selectable limits s id = true) →
      ∃ id ∈ cache.candidates group model requestPath,
        cache.inTargetTier (cache.candidates group model requestPath) retry id ∧ selectable limits s id = true) := by
  have hiff := fun draw => getRandomSatisfiedChannel_isSome_iff (sharedGuards_undisturbed limits)
    scoring cache group model retry requestPath draw s
  constructor
  · intro h hsome
    exact (hiff 0).mp (h hsome 0)
  · intro h hsome draw
    exact (hiff draw).mpr (h hsome)

section Samples
open CircuitBreaker Limiter

def sampleChannel (id priority : ℤ) : Channel :=
  ⟨id, 1, some 10, some priority, 0, none, none⟩

/-- Channel 1 in the upper tier, channel 2 in the lower one. -/
def sampleCache : ConsistentCache where
  group2model2channels _ _ := [1, 2]
  channelsIDM := ⟨[sampleChannel 1 10, sampleChannel 2 0], by decide⟩
  channelCostIndex _ _ _ := 0
  channel2advancedCustomConfig _ := none
  listed := by
    intro _ _ id hid
    fin_cases hid <;> decide

/-- Breaking is off and each channel serves one request at a time. -/
def sampleLimits : Limits where
  breaker := getCircuitBreakerSetting ⟨false, 60, 10, 1 / 2, 10, 30, 1, 1⟩
  limiter := ⟨true, 1⟩
  now := 0

def sampleScoring : Scoring := ⟨newEngine ⟨false, 0⟩ ⟨false, 0⟩ ⟨false, 0⟩, fun _ => -1⟩

/-- Channel 1 is serving a request, channel 2 is free. -/
def upperTierBusy : Shared where
  breakers _ := none
  counters := Function.update (fun _ => none) 1 (some 1)

/-- The upper tier is full and the lower one is free: the first attempt ends with an error. -/
theorem busy_upper_tier_not_available : selectable sampleLimits upperTierBusy 2 = true ∧
      2 ∈ sampleCache.candidates "default" "gpt-test" "" ∧
      (getRandomSatisfiedChannel (sharedGuards sampleLimits) sampleScoring
        sampleCache.toChannelCache "default" "gpt-test" 0 "" 0 upperTierBusy).1 =
      (none, some "no channel found, group: default, model: gpt-test, priority: 10") := by
  refine ⟨by decide, by decide, ?_⟩
  decide

end Samples

end HotAI.Routing
