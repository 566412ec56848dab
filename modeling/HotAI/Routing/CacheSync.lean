import HotAI.Routing.Selection

/-! # Keeping the channel cache (`model/channel_cache.go`)

`InitChannelCache` lists the enabled channels by group and model. Selection trusts these lists, so
`CacheUpdateChannelStatus` takes a channel that is no longer enabled out of them. -/
namespace HotAI.Routing
open HotAI.Lib List

inductive ChannelStatus where
  | unknown
  | enabled
  | manuallyDisabled
  | autoDisabled
deriving DecidableEq, Repr

/-- A channel with the fields that the cache is built from. -/
structure CachedChannel extends Channel where
  status : ChannelStatus
  group : String
  models : String
deriving DecidableEq, Repr

theorem CachedChannel.toChannel_id (channel : CachedChannel) : channel.toChannel.id = channel.id := rfl

def CachedChannel.groups (channel : CachedChannel) : List String := split channel.group ","

def CachedChannel.modelNames (channel : CachedChannel) : List String := split channel.models ","

abbrev ChannelTable := Table CachedChannel fun channel => channel.id

/-- The price columns of `Ability`. -/
structure AbilityRow where
  group : String
  model : String
  channelId : ℤ
  pricePerToken : Option ℚ
  pricePerRequest : Option ℚ
deriving DecidableEq, Repr

def AbilityRow.routingCost (ability : AbilityRow) : ℚ :=
  Routing.routingCost ability.pricePerToken ability.pricePerRequest

/-- What `InitChannelCache` reads from the database. -/
structure ChannelRows where
  channels : ChannelTable
  abilities : List AbilityRow
  /-- `channel.GetOtherSettings().AdvancedCustom`. -/
  advancedCustom : ℤ → Option AdvancedCustomConfig

abbrev ChannelIndex := String → String → List ℤ

def ChannelIndex.append (index : ChannelIndex) (group model : String) (id : ℤ) : ChannelIndex :=
  fun g m => if g = group ∧ m = model then index g m ++ [id] else index g m

def indexChannel (index : ChannelIndex) (channel : CachedChannel) : ChannelIndex :=
  if channel.status ≠ .enabled then index
  else channel.groups.foldl (fun index group =>
    channel.modelNames.foldl (fun index model => index.append group model channel.id) index) index

def indexChannels (channels : ChannelTable) : ChannelIndex := channels.rows.foldl indexChannel fun _ _ => []

def channelPriority (channels : ChannelTable) (id : ℤ) : ℤ :=
  ((channels.get id).map fun channel => channel.getPriority).getD 0

def costIndex (abilities : List AbilityRow) (group model : String) (id : ℤ) : ℚ :=
  abilities.foldl (fun cost ability =>
    if ability.group = group ∧ ability.model = model ∧ ability.channelId = id ∧ 0 < ability.routingCost then
      ability.routingCost
    else cost) 0

structure SyncedCache where
  group2model2channels : ChannelIndex
  channelsIDM : ChannelTable
  channelCostIndex : String → String → ℤ → ℚ
  channel2advancedCustomConfig : ℤ → Option AdvancedCustomConfig

def SyncedCache.empty : SyncedCache := ⟨fun _ _ => [], Table.empty, fun _ _ _ => 0, fun _ => none⟩

def SyncedCache.toChannelCache (cache : SyncedCache) : ChannelCache where
  group2model2channels := cache.group2model2channels
  channelsIDM := cache.channelsIDM.map CachedChannel.toChannel fun _ => rfl
  channelCostIndex := cache.channelCostIndex
  channel2advancedCustomConfig := cache.channel2advancedCustomConfig

/-- `InitChannelCache`. It panics when an enabled channel names a group without abilities: only theirs get a map. -/
def initChannelCache (rows : ChannelRows) : Option SyncedCache :=
  let groups := rows.abilities.map AbilityRow.group
  if rows.channels.rows.any fun channel =>
      channel.status = .enabled && channel.groups.any fun group => group ∉ groups then none
  else some {
    group2model2channels := fun group model =>
      (indexChannels rows.channels group model).insertionSort
        fun a b => channelPriority rows.channels a ≥ channelPriority rows.channels b
    channelsIDM := rows.channels
    channelCostIndex := costIndex rows.abilities
    channel2advancedCustomConfig := fun id => match rows.channels.get id with
      | none => none
      | some channel => if channel.type = channelTypeAdvancedCustom then rows.advancedCustom id else none }

/-- `CacheUpdateChannelStatus`. The inner loop leaves a list after the first entry it removes. -/
def cacheUpdateChannelStatus (cache : SyncedCache) (id : ℤ) (status : ChannelStatus) : SyncedCache :=
  { cache with
    channelsIDM := match cache.channelsIDM.get id with
      | none => cache.channelsIDM
      | some channel => cache.channelsIDM.put { channel with status }
    group2model2channels := if status = .enabled then cache.group2model2channels
      else fun group model => (cache.group2model2channels group model).erase id }

/-! ## How often a channel is listed -/

def CachedChannel.listings (channel : CachedChannel) (group model : String) : ℕ :=
  if channel.status ≠ .enabled then 0 else channel.groups.count group * channel.modelNames.count model

theorem count_append (index : ChannelIndex) (group model : String) (id : ℤ) (g m : String) (i : ℤ) :
    (index.append group model id g m).count i =
      (index g m).count i + if id = i then (if group = g ∧ model = m then 1 else 0) else 0 := by
  unfold ChannelIndex.append
  by_cases hkey : g = group ∧ m = model
  · obtain ⟨rfl, rfl⟩ := hkey
    simp [count_singleton]
  · have hkey' : ¬ (group = g ∧ model = m) := fun h => hkey ⟨h.1.symm, h.2.symm⟩
    simp only [if_neg hkey, if_neg hkey', ite_self, add_zero]

theorem count_models (models : List String) (index : ChannelIndex) (group : String) (id : ℤ) (g m : String) (i : ℤ) :
    (models.foldl (fun index model => index.append group model id) index g m).count i =
      (index g m).count i + if id = i then (if group = g then models.count m else 0) else 0 := by
  induction models generalizing index with
  | nil => simp
  | cons model models ih =>
    rw [foldl_cons, ih, count_append, count_cons]
    by_cases hid : id = i <;> by_cases hgroup : group = g <;> simp [hid, hgroup]
    omega

theorem count_groups (groups models : List String) (index : ChannelIndex) (id : ℤ) (g m : String) (i : ℤ) :
    (groups.foldl (fun index group =>
      models.foldl (fun index model => index.append group model id) index) index g m).count i =
      (index g m).count i + if id = i then groups.count g * models.count m else 0 := by
  induction groups generalizing index with
  | nil => simp
  | cons group groups ih =>
    rw [foldl_cons, ih, count_models]
    by_cases hid : id = i <;> by_cases hgroup : group = g <;> simp [hid, hgroup]
    ring

theorem count_indexChannel (index : ChannelIndex) (channel : CachedChannel) (g m : String) (i : ℤ) :
    (indexChannel index channel g m).count i =
      (index g m).count i + if channel.id = i then channel.listings g m else 0 := by
  unfold indexChannel CachedChannel.listings
  split
  · rw [ite_self, add_zero]
  · exact count_groups ..

theorem count_indexChannels (channels : ChannelTable) (g m : String) (i : ℤ) : (indexChannels channels g m).count i =
      ((channels.get i).map fun channel => channel.listings g m).getD 0 := by
  have hfold : ∀ (rows : List CachedChannel) (index : ChannelIndex),
      (rows.foldl indexChannel index g m).count i =
        (index g m).count i + (rows.map fun channel => if channel.id = i then channel.listings g m else 0).sum := by
    intro rows
    induction rows with
    | nil => intro index; simp
    | cons channel rows ih =>
      intro index
      rw [foldl_cons, ih, count_indexChannel, map_cons, sum_cons, add_assoc]
  rw [← channels.sum_ite_key i fun channel => channel.listings g m]
  exact (hfold channels.rows _).trans (Nat.zero_add _)

/-! ## Runs of the cache -/

structure Query where
  group : String
  model : String
  retry : ℕ
  requestPath : String
  draw : ℕ
  scoring : Scoring

inductive CacheCall where
  | initChannelCache (rows : ChannelRows)
  | cacheUpdateChannelStatus (id : ℤ) (status : ChannelStatus)
  | getRandomSatisfiedChannel (query : Query)

structure CacheState (σ : Type*) where
  cache : SyncedCache
  guards : σ

variable {σ : Type*}

def CacheState.select (g : Guards σ) (s : CacheState σ) (query : Query) : Pick × σ :=
  getRandomSatisfiedChannel g query.scoring s.cache.toChannelCache query.group query.model query.retry
    query.requestPath query.draw s.guards

/-- A sync that panics publishes nothing. -/
def cacheStep (g : Guards σ) (s : CacheState σ) : CacheCall → CacheState σ
  | .initChannelCache rows => { s with cache := (initChannelCache rows).getD s.cache }
  | .cacheUpdateChannelStatus id status => { s with cache := cacheUpdateChannelStatus s.cache id status }
  | .getRandomSatisfiedChannel query => { s with guards := (s.select g query).2 }

def CachedChannel.namesOnce (channel : CachedChannel) : Bool := channel.groups.Nodup ∧ channel.modelNames.Nodup

/-- If the call disables an enabled channel, that channel names each group and each model once. -/
def disablesCleanly (s : CacheState σ) : CacheCall → Bool
  | .cacheUpdateChannelStatus id status => status = .enabled || match s.cache.channelsIDM.get id with
      | none => true
      | some channel => channel.status ≠ .enabled || channel.namesOnce
  | _ => true

/-- No id is listed more often than its cached channel accounts for; one not enabled accounts for none. -/
def Accounted (cache : SyncedCache) : Prop :=
  ∀ g m i, (cache.group2model2channels g m).count i ≤
    ((cache.channelsIDM.get i).map fun channel => channel.listings g m).getD 0

theorem accounted_initChannelCache {rows : ChannelRows} {cache : SyncedCache}
    (h : initChannelCache rows = some cache) : Accounted cache := by
  unfold initChannelCache at h
  dsimp only at h
  split at h
  · cases h
  · cases h
    intro g m i
    rw [(perm_insertionSort ..).count_eq]
    exact (count_indexChannels ..).le

theorem listings_le_of_status (channel : CachedChannel) (g m : String) :
    channel.listings g m ≤ CachedChannel.listings { channel with status := .enabled } g m := by
  unfold CachedChannel.listings
  split
  · exact Nat.zero_le _
  · exact le_rfl

theorem listings_le_one {channel : CachedChannel} (h : channel.status ≠ .enabled ∨ channel.namesOnce = true)
    (g m : String) : channel.listings g m ≤ 1 := by
  unfold CachedChannel.listings
  split
  · exact Nat.zero_le _
  · next henabled =>
    rcases h with h | h
    · exact absurd h henabled
    · obtain ⟨hgroups, hmodels⟩ := of_decide_eq_true h
      exact Nat.mul_le_mul (nodup_iff_count_le_one.mp hgroups g) (nodup_iff_count_le_one.mp hmodels m)

theorem get_cacheUpdateChannelStatus (cache : SyncedCache) (id : ℤ) (status : ChannelStatus) (i : ℤ) :
    (cacheUpdateChannelStatus cache id status).channelsIDM.get i =
      (cache.channelsIDM.get i).map fun channel => if i = id then { channel with status } else channel := by
  unfold cacheUpdateChannelStatus
  by_cases hi : i = id
  · subst hi
    cases hget : cache.channelsIDM.get i with
    | none => exact hget
    | some channel =>
      have hkey := Table.key_of_get hget
      simp only [Option.map_some, if_true]
      rw [← hkey] at hget ⊢
      exact Table.get_put_self hget
  · simp only [if_neg hi, Option.map_id_fun', id_eq]
    split
    · rfl
    · next channel hget =>
      have hne : i ≠ channel.id := (Table.key_of_get hget).symm ▸ hi
      exact Table.get_put_of_ne hne

theorem accounted_cacheUpdateChannelStatus {cache : SyncedCache} (h : Accounted cache) {id : ℤ}
    {status : ChannelStatus}
    (hok : status = .enabled ∨ ∀ channel, cache.channelsIDM.get id = some channel →
      channel.status ≠ .enabled ∨ channel.namesOnce = true) :
    Accounted (cacheUpdateChannelStatus cache id status) := by
  intro g m i
  have hi := h g m i
  rw [get_cacheUpdateChannelStatus]
  change count i ((if status = .enabled then cache.group2model2channels else _) g m) ≤ _
  by_cases hstatus : status = .enabled
  · rw [if_pos hstatus]
    refine hi.trans ?_
    cases cache.channelsIDM.get i with
    | none => exact le_rfl
    | some channel =>
      simp only [Option.map_some, Option.getD_some, hstatus]
      split
      · exact listings_le_of_status channel g m
      · exact le_rfl
  · rw [if_neg hstatus]
    by_cases hid : i = id
    · subst hid
      rw [count_erase_self]
      cases hget : cache.channelsIDM.get i with
      | none =>
        rw [hget] at hi
        exact (Nat.sub_le _ _).trans hi
      | some channel =>
        -- at most one entry, and that one is removed
        rw [hget] at hi
        have hone := listings_le_one ((hok.resolve_left hstatus) channel hget) g m
        simp only [Option.map_some, Option.getD_some] at hi ⊢
        omega
    · rw [count_erase_of_ne hid]
      simpa only [if_neg hid, Option.map_id_fun', id_eq] using hi

theorem cacheStep_accounted (g : Guards σ) (s : CacheState σ) (call : CacheCall) (h : Accounted s.cache)
    (hok : disablesCleanly s call = true) : Accounted (cacheStep g s call).cache := by
  cases call with
  | initChannelCache rows =>
    change Accounted ((initChannelCache rows).getD s.cache)
    cases hinit : initChannelCache rows with
    | none => exact h
    | some cache => exact accounted_initChannelCache hinit
  | cacheUpdateChannelStatus id status =>
    refine accounted_cacheUpdateChannelStatus h ?_
    simp only [disablesCleanly, Bool.or_eq_true, decide_eq_true_eq] at hok
    refine hok.imp_right fun hrow channel hget => ?_
    rw [hget] at hrow
    simpa using hrow
  | getRandomSatisfiedChannel query => exact h

/-- If channels are disabled only while they name each group and model once, a selected channel is enabled. -/
theorem disabled_channel_never_selected (g : Guards σ) (guards : σ) (calls : List CacheCall)
    (hok : Along (cacheStep g) (fun s call => disablesCleanly s call = true) ⟨.empty, guards⟩ calls)
    (query : Query) (channel : Channel)
    (hpick : ((run (cacheStep g) ⟨.empty, guards⟩ calls).select g query).1.1 = some channel) :
    ∃ cached, (run (cacheStep g) ⟨.empty, guards⟩ calls).cache.channelsIDM.get channel.id = some cached ∧
      cached.toChannel = channel ∧ cached.status = .enabled := by
  have hempty : Accounted SyncedCache.empty := fun _ _ _ => le_rfl
  have hrun := run_invariant (fun s call (h : Accounted s.cache) hcall => cacheStep_accounted g s call h hcall)
    hempty hok
  generalize run (cacheStep g) ⟨.empty, guards⟩ calls = s at hrun hpick
  obtain ⟨name, id, hlisted, hget⟩ := mem_of_getRandomSatisfiedChannel hpick
  change (s.cache.channelsIDM.map CachedChannel.toChannel fun _ => rfl).get id = some channel at hget
  rw [Table.get_map] at hget
  obtain ⟨cached, hcached, rfl⟩ := Option.map_eq_some_iff.mp hget
  have hcount := hrun query.group name id
  rw [hcached] at hcount
  have hlistings : 0 < cached.listings query.group name := (count_pos_iff.mpr hlisted).trans_le hcount
  have hid := Table.key_of_get hcached
  subst hid
  refine ⟨cached, hcached, rfl, ?_⟩
  by_contra hstatus
  rw [CachedChannel.listings, if_pos hstatus] at hlistings
  omega

/-! ### A model that is named twice -/

def sampleStatusChannel (id : ℤ) (models : String) : CachedChannel :=
  ⟨⟨id, 1, some 10, some 0, 0, none, none⟩, .enabled, "default", models⟩

def sampleStatusRows (models : String) : ChannelRows where
  channels := ⟨[sampleStatusChannel 1 "gpt-4o", sampleStatusChannel 2 models], by simp [sampleStatusChannel]⟩
  abilities := [⟨"default", "gpt-4", 2, none, none⟩]
  advancedCustom _ := none

def openGuards : Guards Unit where
  canSelect _ _ := (true, ())
  canAcquire _ _ := (true, ())
  acquire _ _ := (true, ())
  release _ _ := ()
  markSelected _ _ := (true, ())

def sampleQuery (model : String) : Query :=
  ⟨"default", model, 0, "", 0, ⟨newEngine ⟨false, 0⟩ ⟨false, 0⟩ ⟨false, 0⟩, fun _ => -1⟩⟩

def syncAndDisable (models : String) : List CacheCall :=
  [.initChannelCache (sampleStatusRows models), .cacheUpdateChannelStatus 2 .manuallyDisabled]

/-- Entries that differ in blanks are different entries. -/
theorem disabled_channel_never_selected_other_enabled : ∃ cached, (run (cacheStep openGuards) ⟨.empty, ()⟩
        (syncAndDisable "gpt-4o, gpt-4o")).cache.channelsIDM.get 1 = some cached ∧
      cached.toChannel = (sampleStatusChannel 1 "gpt-4o").toChannel ∧ cached.status = .enabled :=
  disabled_channel_never_selected openGuards () (syncAndDisable "gpt-4o, gpt-4o") (by decide +kernel)
    (sampleQuery "gpt-4o") (sampleStatusChannel 1 "gpt-4o").toChannel (by decide +kernel)

/-- The list keeps the second entry of a channel that names a model twice, so the disabled channel is
selected. -/
theorem disabled_channel_still_selected :
    ((run (cacheStep openGuards) ⟨.empty, ()⟩ (syncAndDisable "gpt-4,gpt-4")).cache.channelsIDM.get 2).map
        CachedChannel.status = some .manuallyDisabled ∧
      ((run (cacheStep openGuards) ⟨.empty, ()⟩ (syncAndDisable "gpt-4,gpt-4")).select openGuards
        (sampleQuery "gpt-4")).1.1 = some (sampleStatusChannel 2 "gpt-4,gpt-4").toChannel := by
  decide +kernel

end HotAI.Routing
