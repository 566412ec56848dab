import HotAI.Routing.Availability

/-! # What a selection returns and what it takes

Asking creates missing breakers and counters and refreshes breakers, but moves no count. A channel that was found selectable can
be marked, so nothing is taken for a channel that is not returned. -/
namespace HotAI.Routing
open HotAI.Lib List Option Function CircuitBreaker ChannelCache

variable {σ : Type*}

/-! ## Counts -/

def Shared.slots (s : Shared) (id : ℤ) : ℤ := (s.counters id).getD 0

def halfOpenCount (b : CircuitBreaker.Breaker) : ℤ := if b.state = .halfOpen then b.halfOpenInUse else 0

def Shared.probes (s : Shared) (id : ℤ) : ℤ := ((s.breakers id).map halfOpenCount).getD 0

/-- What asking for a channel can change: a breaker is refreshed, a counter is created. -/
structure Asked (limits : Limits) (s s' : Shared) : Prop where
  breakers : ∀ id, s'.breakers id = s.breakers id ∨ s'.breakers id =
    some ((CircuitBreaker.getBreaker s.breakers id limits.breaker).refreshState limits.breaker limits.now)
  counters : ∀ id, (s'.counters id).getD 0 = (s.counters id).getD 0

theorem Asked.refl (limits : Limits) (s : Shared) : Asked limits s s := ⟨fun _ => Or.inl rfl, fun _ => rfl⟩

variable {limits : Limits} {s s' : Shared}

theorem Asked.trans {s'' : Shared} (h : Asked limits s s') (h' : Asked limits s' s'') : Asked limits s s'' := by
  refine ⟨fun id => ?_, fun id => (h'.counters id).trans (h.counters id)⟩
  rcases h'.breakers id with hlater | hlater <;> rcases h.breakers id with hfirst | hfirst
  · exact Or.inl (hlater.trans hfirst)
  · exact Or.inr (hlater.trans hfirst)
  · refine Or.inr ?_
    rw [hlater, getBreaker, hfirst]
    rfl
  · refine Or.inr ?_
    rw [hlater, getBreaker, hfirst, getD_some, refreshState_idem]

theorem asked_selectable (limits : Limits) (a : ℤ) (s : Shared) : Asked limits s (channelSelectable (sharedGuards limits) a s).2 := by
  have hbreakers : ∀ id, (canSelect limits.breaker limits.now s.breakers a).2 id = s.breakers id ∨
      (canSelect limits.breaker limits.now s.breakers a).2 id =
        some ((getBreaker s.breakers id limits.breaker).refreshState limits.breaker limits.now) := by
    intro id
    unfold canSelect withBreaker
    split
    · exact Or.inl rfl
    · by_cases hid : id = a
      · subst hid
        refine Or.inr ?_
        dsimp only
        rw [update_self, canSelect_snd]
      · exact Or.inl (update_of_ne hid _ _)
  unfold channelSelectable sharedGuards
  dsimp only
  split
  · exact ⟨hbreakers, fun id => canAcquire_snd limits.limiter s.counters a id⟩
  · exact ⟨hbreakers, fun _ => rfl⟩

theorem halfOpenCount_refresh (b : CircuitBreaker.Breaker) (setting : CircuitBreaker.Setting) (now : CircuitBreaker.Time) :
    halfOpenCount (b.refreshState setting now) = halfOpenCount b := by
  unfold CircuitBreaker.Breaker.refreshState
  split
  · next h =>
    unfold halfOpenCount
    rw [if_pos rfl, if_neg (by rw [h.1]; decide)]
  · rfl

theorem halfOpenCount_markSelected {b : CircuitBreaker.Breaker} {setting : CircuitBreaker.Setting} {now : CircuitBreaker.Time}
    (h : (b.markSelected setting now).1 = true) : halfOpenCount (b.markSelected setting now).2 =
      halfOpenCount b + if (b.refreshState setting now).state = .halfOpen then 1 else 0 := by
  rw [← halfOpenCount_refresh b setting now]
  unfold CircuitBreaker.Breaker.markSelected at h ⊢
  generalize b.refreshState setting now = fresh at h ⊢
  dsimp only at h ⊢
  cases hstate : fresh.state with
  | «open» =>
    rw [hstate] at h
    cases h
  | closed => simp
  | halfOpen =>
    rw [hstate] at h
    dsimp only at h ⊢
    split at h
    · cases h
    · next hroom => simp [hroom, halfOpenCount, hstate]

theorem probes_eq (s : Shared) (id : ℤ) (setting : CircuitBreaker.Setting) :
    s.probes id = halfOpenCount (getBreaker s.breakers id setting) := by
  unfold Shared.probes getBreaker
  cases s.breakers id <;> rfl

theorem Asked.same (h : Asked limits s s') (id : ℤ) : s'.slots id = s.slots id ∧ s'.probes id = s.probes id := by
  refine ⟨h.counters id, ?_⟩
  rcases h.breakers id with heq | heq
  · rw [Shared.probes, heq, Shared.probes]
  · rw [Shared.probes, heq, map_some, halfOpenCount_refresh, probes_eq s id limits.breaker]
    rfl

/-! ## Taking a channel -/

/-- The breaker of the channel is half open by now, so that a request to it is a probe. -/
def Probing (limits : Limits) (s : Shared) (id : ℤ) : Prop :=
  limits.breaker.enabled = true ∧ 0 < id ∧
    ((getBreaker s.breakers id limits.breaker).refreshState limits.breaker limits.now).state = .halfOpen

instance (limits : Limits) (s : Shared) (id : ℤ) : Decidable (Probing limits s id) :=
  inferInstanceAs (Decidable (_ ∧ _ ∧ _))

/-- One slot, one admission and, from a half-open breaker, one probe, all for channel `id`. -/
structure Taken (limits : Limits) (s s' : Shared) (id : ℤ) : Prop where
  slot : ∀ i, s'.slots i = s.slots i + if i = id ∧ limits.limiter.limits id = true then 1 else 0
  admission : limits.breaker.enabled = true → 0 < id → ∃ b, s'.breakers id = some b ∧
    (CircuitBreaker.getBreaker s.breakers id limits.breaker).markSelected limits.breaker limits.now = (true, b)
  probe : ∀ i, s'.probes i = s.probes i + if i = id ∧ Probing limits s id then 1 else 0

theorem slots_acquire (setting : Limiter.ChannelLimiterSetting) (counters : Limiter.Counters) (id : ℤ)
    (h : (Limiter.acquire setting counters id).1 = true) (i : ℤ) :
    ((Limiter.acquire setting counters id).2 i).getD 0 =
      (counters i).getD 0 + if i = id ∧ setting.limits id = true then 1 else 0 := by
  unfold Limiter.acquire at h ⊢
  cases hlimits : setting.limits id with
  | false => simp
  | true =>
    rw [hlimits] at h
    simp only [Bool.not_true, Bool.false_eq_true, if_false] at h ⊢
    split at h
    · next hroom =>
      rw [if_pos hroom]
      dsimp only
      by_cases hid : i = id
      · subst hid
        rw [update_self, if_pos ⟨rfl, trivial⟩, Limiter.getCounter]
        cases counters i <;> rfl
      · rw [update_of_ne hid, if_neg fun hand => hid hand.1, add_zero, Limiter.getCounter]
        cases hcount : counters id with
        | some val => rfl
        | none =>
          dsimp only
          rw [update_of_ne hid]
    · cases h

theorem markSelected_refresh (b : CircuitBreaker.Breaker) (setting : CircuitBreaker.Setting) (now : CircuitBreaker.Time) :
    (b.refreshState setting now).markSelected setting now = b.markSelected setting now := by
  unfold CircuitBreaker.Breaker.markSelected
  rw [refreshState_idem]

theorem Asked.markSelected_eq (h : Asked limits s s') (id : ℤ) :
    (getBreaker s'.breakers id limits.breaker).markSelected limits.breaker limits.now =
      (getBreaker s.breakers id limits.breaker).markSelected limits.breaker limits.now := by
  rcases h.breakers id with heq | heq
  · rw [getBreaker, heq, getBreaker]
  · rw [getBreaker, heq, getD_some, markSelected_refresh]

variable {channels : List Channel} {cache : ChannelCache} {channel : Channel} {id : ℤ} {g : Guards σ}

theorem probes_mark (h : Asked limits s s') (hmarked : (markSelected limits.breaker limits.now s'.breakers id).1 = true)
    (counters : Limiter.Counters) (i : ℤ) :
    Shared.probes ⟨(markSelected limits.breaker limits.now s'.breakers id).2, counters⟩ i =
      s.probes i + if i = id ∧ Probing limits s id then 1 else 0 := by
  rw [← (h.same i).2]
  change ((markSelected limits.breaker limits.now s'.breakers id).2 i |>.map halfOpenCount).getD 0 = _
  unfold markSelected withBreaker at hmarked ⊢
  by_cases hon : (!limits.breaker.enabled || decide (id ≤ 0)) = true
  · have hprobing : ¬ Probing limits s id := fun hprobing => by
      rw [hprobing.1, decide_eq_false (by have := hprobing.2.1; omega)] at hon
      cases hon
    rw [if_pos hon, if_neg fun hand => hprobing hand.2, add_zero, Shared.probes]
  · rw [if_neg hon] at hmarked ⊢
    dsimp only at hmarked ⊢
    by_cases hi : i = id
    · subst hi
      rw [h.markSelected_eq i] at hmarked ⊢
      rw [update_self, map_some, getD_some, halfOpenCount_markSelected hmarked, (h.same i).2, probes_eq s i limits.breaker]
      simp only [Bool.or_eq_true, Bool.not_eq_true', decide_eq_true_eq, not_or, Bool.not_eq_false, not_le] at hon
      simp [Probing, hon.1, hon.2]
    · rw [update_of_ne hi, if_neg fun hand => hi hand.1, add_zero, Shared.probes]

theorem taken_mark (h : Asked limits s s') (hsel : (channelSelectable (sharedGuards limits) id s').1 = true) :
    Taken limits s (markChannelSelected (sharedGuards limits) id s').2 id := by
  rw [sharedGuards_selectable, Bool.and_eq_true, ← acquire_fst, ← registry_markSelected_fst] at hsel
  obtain ⟨hmarked, hacquired⟩ := hsel
  have hstate : (markChannelSelected (sharedGuards limits) id s').2 =
      ⟨(markSelected limits.breaker limits.now s'.breakers id).2,
        (Limiter.acquire limits.limiter s'.counters id).2⟩ := by
    unfold markChannelSelected sharedGuards
    simp only [hacquired, hmarked, Bool.not_true, Bool.false_eq_true, if_false, if_true]
  rw [hstate]
  refine ⟨fun i => ?_, fun henabled hpos => ?_, fun i => ?_⟩
  · change ((Limiter.acquire limits.limiter s'.counters id).2 i).getD 0 = _
    rw [slots_acquire limits.limiter s'.counters id hacquired, h.counters i]
    rfl
  · have hon : (!limits.breaker.enabled || decide (id ≤ 0)) = false := by
      rw [henabled, decide_eq_false (by omega)]
      rfl
    unfold markSelected withBreaker at hmarked ⊢
    rw [hon, if_neg Bool.false_ne_true] at hmarked
    rw [if_neg (by rw [hon]; exact Bool.false_ne_true)]
    dsimp only at hmarked ⊢
    rw [h.markSelected_eq id] at hmarked ⊢
    refine ⟨_, update_self _ _ _, ?_⟩
    rw [← hmarked]
  · exact probes_mark h hmarked _ i

/-! ## The draw -/

theorem drawChannel_marks {weighted : List (Channel × ℤ)} (randomWeight : ℤ) {s : σ}
    (hmark : ∀ p ∈ weighted, (markChannelSelected g p.1.id s).1 = true) :
    drawChannel g weighted randomWeight s = (none, s) ∨ ∃ p ∈ weighted,
      drawChannel g weighted randomWeight s = (some p.1, (markChannelSelected g p.1.id s).2) := by
  induction weighted generalizing randomWeight with
  | nil => exact Or.inl rfl
  | cons first rest ih =>
    obtain ⟨channel, weight⟩ := first
    obtain ⟨hfirst, hrest⟩ := forall_mem_cons.mp hmark
    unfold drawChannel
    dsimp only at hfirst ⊢
    split
    · exact Or.inr ⟨_, mem_cons_self, rfl⟩
    · rcases ih (randomWeight - weight) hrest with hnone | ⟨p, hp, hsome⟩
      · exact Or.inl hnone
      · exact Or.inr ⟨p, mem_cons_of_mem _ hp, hsome⟩

theorem asked_targetChannels (limits : Limits) (target : ℤ) (channels : List Channel) (s : Shared) :
    Asked limits s (targetChannels (sharedGuards limits) target channels s).2 := by
  induction channels generalizing s with
  | nil => exact Asked.refl limits s
  | cons channel rest ih =>
    unfold targetChannels
    split
    · exact (asked_selectable limits channel.id s).trans (ih _)
    · exact ih s

/-! ## The whole selection -/

def ChannelCache.servesPath (cache : ChannelCache) (requestPath : String) (channel : Channel) : Prop :=
  requestPath = "" ∨ channel.type ≠ channelTypeAdvancedCustom ∨
    ∃ config, cache.channel2advancedCustomConfig channel.id = some config ∧ config.supportsPath requestPath = true

/-- The channel is listed for the model, or for its normalised name when none listed for the model serves the path. -/
def ChannelCache.offers (cache : ChannelCache) (group model requestPath : String) (channel : Channel) : Prop :=
  channel.id ∈ cache.group2model2channels group model ∨
    channel.id ∈ cache.group2model2channels group (formatMatchingModelName model) ∧
      ∀ id ∈ cache.group2model2channels group model, ∀ other, cache.channelsIDM.get id = some other →
        ¬cache.servesPath requestPath other

theorem servesPath_iff (hget : cache.channelsIDM.get id = some channel) (requestPath : String) (ids : List ℤ) :
    id ∈ cache.filterChannelsByRequestPath ids requestPath ↔ id ∈ ids ∧ cache.servesPath requestPath channel := by
  have hkey : channel.id = id := Table.key_of_get hget
  unfold filterChannelsByRequestPath servesPath
  by_cases hpath : requestPath = ""
  · simp [hpath]
  · have hbeq : ¬(requestPath == "") = true := by simpa using hpath
    rw [if_neg hbeq, mem_filter, keepsPath, hget, hkey]
    refine and_congr_right fun _ => ?_
    by_cases htype : channel.type = channelTypeAdvancedCustom
    · cases hconfig : cache.channel2advancedCustomConfig id with
      | none => simp [hpath, htype]
      | some config => simp [hpath, htype]
    · simp [htype]

theorem offers_of_candidate {group model requestPath : String}
    (hid : id ∈ cache.candidates group model requestPath) (hget : cache.channelsIDM.get id = some channel) :
    cache.offers group model requestPath channel ∧ cache.servesPath requestPath channel := by
  have hkey : channel.id = id := Table.key_of_get hget
  unfold candidates at hid
  dsimp only at hid
  split at hid
  · next hnone =>
    obtain ⟨hlisted, hserves⟩ := (servesPath_iff hget requestPath _).mp hid
    refine ⟨Or.inr ⟨hkey ▸ hlisted, fun i hi other hother hserves => ?_⟩, hserves⟩
    have hmem := (servesPath_iff hother requestPath _).mpr ⟨hi, hserves⟩
    rw [hnone] at hmem
    cases hmem
  · obtain ⟨hlisted, hserves⟩ := (servesPath_iff hget requestPath _).mp hid
    exact ⟨Or.inl (hkey ▸ hlisted), hserves⟩

def ChannelCache.levels (cache : ChannelCache) (group model requestPath : String) : List ℤ :=
  sortedUniquePriorities (cache.channelsOf (cache.candidates group model requestPath))

theorem targetPriority_level (h : channels ≠ []) (retry : ℕ) :
    (sortedUniquePriorities channels)[min retry ((sortedUniquePriorities channels).length - 1)]? =
      some (targetPriority channels retry) := by
  have hpos : 0 < (sortedUniquePriorities channels).length := by
    obtain ⟨channel, hchannel⟩ := exists_mem_of_ne_nil _ h
    refine length_pos_of_mem (a := channel.getPriority) ?_
    rw [sortedUniquePriorities, mem_insertionSort, mem_dedup]
    exact mem_map_of_mem hchannel
  have hindex : (if (sortedUniquePriorities channels).length ≤ retry then (sortedUniquePriorities channels).length - 1 else retry) =
      min retry ((sortedUniquePriorities channels).length - 1) := by
    split <;> omega
  unfold targetPriority
  dsimp only
  rw [hindex, getD_eq_getElem?_getD, getElem?_eq_getElem (by omega), getD_some]

structure Sound (limits : Limits) (cache : ChannelCache) (group model : String) (retry : ℕ) (requestPath : String) (s s' : Shared)
    (channel : Channel) : Prop where
  known : cache.channelsIDM.get channel.id = some channel
  offered : cache.offers group model requestPath channel
  serves : cache.servesPath requestPath channel
  level : (cache.levels group model requestPath)[min retry ((cache.levels group model requestPath).length - 1)]? =
    some channel.getPriority
  taken : Taken limits s s' channel.id

theorem channelsOf_lookupAll {ids : List ℤ} (h : lookupAll cache ids = .ok channels) : cache.channelsOf ids = channels := by
  induction ids generalizing channels with
  | nil =>
    cases h
    rfl
  | cons id ids ih =>
    unfold lookupAll at h
    split at h
    · cases h
    · next first hfirst =>
      obtain ⟨rest, hrest, rfl⟩ := except_map_ok h
      rw [channelsOf, filterMap_cons, hfirst]
      exact congrArg _ (ih hrest)

theorem priority_of_targetChannels {target : ℤ} {s : σ}
    (h : channel ∈ (targetChannels g target channels s).1) : channel.getPriority = target := by
  induction channels generalizing s with
  | nil => cases h
  | cons first rest ih =>
    unfold targetChannels at h
    split at h
    · next htier =>
      dsimp only at h
      split at h
      · rcases mem_cons.mp h with rfl | h
        · exact htier
        · exact ih h
      · exact ih h
    · exact ih h

theorem selectByPriority_effect (limits : Limits) (scoring : Scoring) (cache : ChannelCache) (group model : String) (retry draw : ℕ)
    (channels : List Channel) (s : Shared) :
    (∃ err s', selectByPriority (sharedGuards limits) scoring cache group model retry draw channels s = ((none, some err), s') ∧
      Asked limits s s') ∨
    ∃ channel s', selectByPriority (sharedGuards limits) scoring cache group model retry draw channels s = ((some channel, none), s') ∧
      channel ∈ channels ∧ channel.getPriority = targetPriority channels retry ∧ Taken limits s s' channel.id := by
  have hasked := asked_targetChannels limits (targetPriority channels retry) channels s
  obtain ⟨htargets, hstate⟩ := targetChannels_spec (sharedGuards_undisturbed limits) (targetPriority channels retry) channels s
  have hsel : ∀ channel ∈ (targetChannels (sharedGuards limits) (targetPriority channels retry) channels s).1,
      (channelSelectable (sharedGuards limits) channel.id
        (targetChannels (sharedGuards limits) (targetPriority channels retry) channels s).2).1 = true := by
    intro channel hchannel
    rw [htargets, mem_filter, decide_eq_true_eq] at hchannel
    rw [hstate]
    exact hchannel.2.2
  unfold selectByPriority
  dsimp only
  split
  · exact Or.inl ⟨_, _, rfl, hasked⟩
  · split
    · exact Or.inl ⟨_, _, rfl, hasked⟩
    · set tier := targetChannels (sharedGuards limits) (targetPriority channels retry) channels s with htier
      set weights := adjustedWeights scoring cache group model tier.1
      have hmark : ∀ p ∈ tier.1.zip weights, (markChannelSelected (sharedGuards limits) p.1.id tier.2).1 = true := fun p hp =>
        (sharedGuards_undisturbed limits).mark_of_selectable _ _ (hsel p.1 (of_mem_zip hp).1)
      rcases drawChannel_marks ((draw : ℤ) % weights.sum) hmark with hnone | ⟨p, hp, hsome⟩
      · rw [hnone]
        exact Or.inl ⟨_, _, rfl, hasked⟩
      · have hchannel : p.1 ∈ tier.1 := (of_mem_zip hp).1
        rw [hsome]
        exact Or.inr ⟨p.1, _, rfl, mem_of_targetChannels hchannel, priority_of_targetChannels hchannel,
          taken_mark hasked (hsel p.1 hchannel)⟩

/-- A returned channel is offered, serves the path, has the retry's priority and alone has something taken; without one no
count has moved. -/
theorem selection_sound (limits : Limits) (scoring : Scoring) (cache : ChannelCache) (group model : String) (retry : ℕ)
    (requestPath : String) (draw : ℕ) (s : Shared) :
    match getRandomSatisfiedChannel (sharedGuards limits) scoring cache group model retry requestPath draw s with
    | ((some channel, err), s') => err = none ∧ Sound limits cache group model retry requestPath s s' channel
    | ((none, _), s') => ∀ id, s'.slots id = s.slots id ∧ s'.probes id = s.probes id := by
  have hoffered : ∀ id ∈ cache.candidates group model requestPath, ∀ channel, cache.channelsIDM.get id = some channel →
      cache.channelsIDM.get channel.id = some channel ∧ cache.offers group model requestPath channel ∧
        cache.servesPath requestPath channel := by
    intro id hid channel hget
    have hkey : channel.id = id := Table.key_of_get hget
    exact ⟨hkey ▸ hget, offers_of_candidate hid hget⟩
  have hlevels : cache.levels group model requestPath =
      sortedUniquePriorities (cache.channelsOf (cache.candidates group model requestPath)) := rfl
  unfold getRandomSatisfiedChannel
  generalize cache.candidates group model requestPath = ids at hoffered hlevels
  match ids, hoffered, hlevels with
  | [], _, _ => exact (Asked.refl limits s).same
  | [id], hoffered, hlevels =>
    dsimp only
    cases hget : cache.channelsIDM.get id with
    | none => exact (Asked.refl limits s).same
    | some channel =>
      have hasked := asked_selectable limits channel.id s
      dsimp only
      cases hsel : (channelSelectable (sharedGuards limits) channel.id s).1 with
      | false => exact hasked.same
      | true =>
        have hagain := ((sharedGuards_undisturbed limits).ask_keeps channel.id channel.id s).trans hsel
        have hmark := (sharedGuards_undisturbed limits).mark_of_selectable _ _ hagain
        obtain ⟨hknown, hoffer, hserves⟩ := hoffered id mem_cons_self channel hget
        have hchannels : cache.channelsOf [id] = [channel] := by
          rw [channelsOf, filterMap_cons, hget]
          rfl
        have hlevel := targetPriority_level (cons_ne_nil channel []) retry
        rw [targetPriority_singleton, ← hchannels, ← hlevels] at hlevel
        simp only [Bool.not_true, Bool.false_eq_true, if_false, hmark, if_true]
        exact ⟨trivial, hknown, hoffer, hserves, hlevel, taken_mark hasked hagain⟩
  | first :: second :: rest, hoffered, hlevels =>
    dsimp only
    cases hlookup : lookupAll cache (first :: second :: rest) with
    | error id => exact (Asked.refl limits s).same
    | ok channels =>
      dsimp only
      rcases selectByPriority_effect limits scoring cache group model retry draw channels s with
        ⟨err, s', heq, hasked⟩ | ⟨channel, s', heq, hmem, htier, htaken⟩
      · rw [heq]
        exact hasked.same
      · obtain ⟨id, hid, hget⟩ := mem_of_lookupAll hlookup hmem
        obtain ⟨hknown, hoffer, hserves⟩ := hoffered id hid channel hget
        have hlevel := targetPriority_level (ne_nil_of_mem hmem) retry
        rw [← htier, ← channelsOf_lookupAll hlookup, ← hlevels] at hlevel
        rw [heq]
        exact ⟨rfl, hknown, hoffer, hserves, hlevel, htaken⟩

end HotAI.Routing
