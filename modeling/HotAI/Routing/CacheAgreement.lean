import HotAI.Routing.Draws
import HotAI.Routing.SelectionEffect

/-! # The cache and the database offer different channels

Both paths take the priority that the retry count points at. The database path counts the priorities of all channels of the
model and looks at the request path afterwards; the cached path counts those that serve the path, and falls back to the
normalised model name. -/
namespace HotAI.Routing
open HotAI.Lib List Database ChannelRows

/-! ## The abilities of a channel -/

def firstByKey {α κ : Type*} [DecidableEq κ] (key : α → κ) : List κ → List α → List α
  | _, [] => []
  | seen, x :: xs => if key x ∈ seen then firstByKey key seen xs else x :: firstByKey key (key x :: seen) xs

theorem firstByKey_subset {α κ : Type*} [DecidableEq κ] (key : α → κ) (seen : List κ) {xs : List α} {x : α}
    (h : x ∈ firstByKey key seen xs) : x ∈ xs := by
  induction xs generalizing seen with
  | nil => exact h
  | cons y ys ih =>
    unfold firstByKey at h
    split at h
    · exact mem_cons_of_mem _ (ih _ h)
    · rcases mem_cons.mp h with rfl | h
      · exact mem_cons_self
      · exact mem_cons_of_mem _ (ih _ h)

/-- The pairs of group and model with a row of `AddAbilities`; the set of seen pairs is kept by the joined text. -/
def CachedChannel.abilityPairs (channel : CachedChannel) : List (String × String) :=
  firstByKey (fun pair => pair.1 ++ "|" ++ pair.2) []
    (channel.modelNames.flatMap fun model => channel.groups.map fun group => (group, model))

def CachedChannel.addAbilities (channel : CachedChannel) : List Ability :=
  channel.abilityPairs.map fun pair =>
    ⟨pair.1, pair.2, channel.id, channel.status = .enabled, channel.getPriority, channel.getWeight⟩

def ChannelRows.database (rows : ChannelRows) : Database where
  abilities := rows.channels.rows.flatMap CachedChannel.addAbilities
  channels := rows.channels.map CachedChannel.toChannel CachedChannel.toChannel_id
  advancedCustom := rows.advancedCustom

/-! ## Levels -/

def levelOf (priorities : List ℤ) (retry : ℕ) : ℤ :=
  let levels := priorities.dedup.insertionSort (· ≥ ·)
  levels.getD (min retry (levels.length - 1)) 0

variable {ps : List ℤ}

theorem levels_congr {qs : List ℤ} (h : ∀ p, p ∈ ps ↔ p ∈ qs) :
    ps.dedup.insertionSort (· ≥ ·) = qs.dedup.insertionSort (· ≥ ·) := by
  have hperm : ps.dedup.Perm qs.dedup := by
    rw [perm_ext_iff_of_nodup ps.nodup_dedup qs.nodup_dedup]
    intro p
    rw [mem_dedup, mem_dedup, h]
  refine List.Perm.eq_of_pairwise (fun a b _ _ hab hba => le_antisymm hba hab) (pairwise_insertionSort _ _)
    (pairwise_insertionSort _ _) ?_
  exact ((perm_insertionSort _ _).trans hperm).trans (perm_insertionSort _ _).symm

theorem levelOf_congr {qs : List ℤ} (h : ∀ p, p ∈ ps ↔ p ∈ qs) (retry : ℕ) : levelOf ps retry = levelOf qs retry := by
  unfold levelOf
  rw [levels_congr h]

theorem levels_length_pos (h : ps ≠ []) : 0 < (ps.dedup.insertionSort (· ≥ ·)).length := by
  obtain ⟨p, hp⟩ := exists_mem_of_ne_nil _ h
  exact length_pos_of_mem ((mem_insertionSort _).mpr (mem_dedup.mpr hp))

theorem levelOf_mem (h : ps ≠ []) (retry : ℕ) : levelOf ps retry ∈ ps := by
  have hpos := levels_length_pos h
  unfold levelOf
  rw [getD_eq_getElem?_getD, getElem?_eq_getElem (by omega)]
  exact mem_dedup.mp ((mem_insertionSort _).mp (getElem_mem _))

theorem levelOf_ge {p : ℤ} (h : p ∈ ps) : p ≤ levelOf ps 0 := by
  have hpos := levels_length_pos (ne_nil_of_mem h)
  have hmem : p ∈ ps.dedup.insertionSort (· ≥ ·) := (mem_insertionSort _).mpr (mem_dedup.mpr h)
  obtain ⟨i, hi, rfl⟩ := getElem_of_mem hmem
  unfold levelOf
  dsimp only
  rw [Nat.zero_min, getD_eq_getElem?_getD, getElem?_eq_getElem hpos]
  rcases Nat.eq_zero_or_pos i with rfl | hpositive
  · exact le_rfl
  · exact pairwise_iff_getElem.mp (pairwise_insertionSort (· ≥ ·) ps.dedup) 0 i hpos hi hpositive

theorem max_eq_levelOf (h : ps ≠ []) : ps.max? = some (levelOf ps 0) :=
  max?_eq_some_iff.mpr ⟨levelOf_mem h 0, fun _ => levelOf_ge⟩

theorem targetPriority_eq_levelOf {channels : List Channel} (h : channels ≠ []) (retry : ℕ) :
    targetPriority channels retry = levelOf (channels.map Channel.getPriority) retry := by
  have hlevel := targetPriority_level h retry
  exact (congrArg (Option.getD · 0) hlevel).symm

/-! ## The database path -/

section Database
variable (db : Database) (group model : String) (retry : ℕ)

theorem getChannelQuery_eq (h : db.enabledAbilities group model ≠ []) :
    db.getChannelQuery group model retry = .ok ((db.enabledAbilities group model).filter fun a =>
      a.priority = levelOf ((db.enabledAbilities group model).map Ability.priority) retry) := by
  have hne : (db.enabledAbilities group model).map Ability.priority ≠ [] := fun hnil => h (map_eq_nil_iff.mp hnil)
  unfold getChannelQuery
  by_cases hretry : retry = 0
  · subst hretry
    rw [if_neg (not_not_intro rfl), max_eq_levelOf hne]
  · have hpos := levels_length_pos hne
    have hlevel : db.getPriority group model retry =
        .ok (levelOf ((db.enabledAbilities group model).map Ability.priority) retry) := by
      unfold getPriority priorities levelOf
      dsimp only
      rw [if_neg hpos.ne']
      split
      · next hpast => rw [Nat.min_eq_right (by omega)]
      · next hpast => rw [Nat.min_eq_left (by omega)]
    rw [if_pos hretry, hlevel]
    rfl

theorem getChannel_without_rows (h : db.enabledAbilities group model = []) (requestPath : String) (draw : ℕ) :
    (db.getChannel group model retry requestPath draw).1 = none := by
  unfold getChannel getChannelQuery getPriority priorities
  by_cases hretry : retry = 0
  · subst hretry
    simp [h, filterAbilitiesByRequestPath]
  · simp [h, hretry, Except.map]

theorem mem_filterAbilitiesByRequestPath {abilities : List Ability} {requestPath : String} {a : Ability} :
    a ∈ db.filterAbilitiesByRequestPath abilities requestPath ↔ a ∈ abilities ∧ a ∈ db.filterAbilitiesByRequestPath [a] requestPath := by
  unfold filterAbilitiesByRequestPath
  split
  · simp
  · simp only [mem_filter, mem_singleton, true_and]

variable {abilities : List Ability}

theorem drawAbility_mem (hne : abilities ≠ []) {v : ℕ} (hv : v < (abilities.map Ability.share).sum) :
    ∃ a ∈ abilities, Database.drawAbility abilities v = a.channelId := by
  induction abilities generalizing v with
  | nil => exact absurd rfl hne
  | cons first rest ih =>
    by_cases hhit : v ≤ first.share
    · exact ⟨first, mem_cons_self, drawAbility_upTo first rest hhit⟩
    · obtain ⟨w, rfl⟩ : ∃ w, v = first.share + w + 1 := ⟨v - first.share - 1, by omega⟩
      rw [map_cons, sum_cons] at hv
      have hrest : rest ≠ [] := by
        rintro rfl
        rw [map_nil, sum_nil] at hv
        omega
      obtain ⟨a, ha, heq⟩ := ih hrest (v := w + 1) (by omega)
      exact ⟨a, mem_cons_of_mem _ ha, by rw [drawAbility_above, heq]⟩

theorem exists_drawn (hne : abilities ≠ []) (draw : ℕ) : ∃ a ∈ abilities,
    Database.drawAbility abilities ((draw % (abilities.map fun a => a.weight + 10).sum : ℕ) : ℤ) = a.channelId := by
  obtain ⟨first, hfirst⟩ := exists_mem_of_ne_nil _ hne
  have hpos : 0 < (abilities.map Ability.share).sum :=
    lt_of_lt_of_le (Nat.succ_pos _) (single_le_sum (fun _ _ => Nat.zero_le _) _ (mem_map_of_mem hfirst))
  exact drawAbility_mem hne (Nat.mod_lt draw hpos)

theorem exists_drawAbility {a : Ability} (ha : a ∈ abilities) :
    ∃ v < (abilities.map Ability.share).sum, Database.drawAbility abilities v = a.channelId := by
  have hne := ne_nil_of_mem ha
  have hshifted := count_shifted hne a.channelId
  have hweight : 10 ≤ weightOf Ability.channelId Ability.share a.channelId abilities := by
    refine le_trans (Nat.le_add_left 10 a.weight) (single_le_sum (fun _ _ => Nat.zero_le _) _ ?_)
    exact mem_map_of_mem (mem_filter.mpr ⟨ha, decide_eq_true rfl⟩)
  by_contra hnone
  push Not at hnone
  have hzero := (Nat.count_iff_forall_not (p := fun v : ℕ => drawAbility abilities v = a.channelId)).mpr hnone
  split at hshifted <;> omega

theorem getChannel_iff {requestPath : String} (h : db.enabledAbilities group model ≠ []) (channel : Channel) :
    (∃ draw, db.getChannel group model retry requestPath draw = (some channel, none)) ↔
      ∃ a ∈ db.filterAbilitiesByRequestPath ((db.enabledAbilities group model).filter fun a =>
        a.priority = levelOf ((db.enabledAbilities group model).map Ability.priority) retry) requestPath,
        db.channels.get a.channelId = some channel := by
  unfold getChannel
  rw [getChannelQuery_eq db group model retry h]
  generalize (db.enabledAbilities group model).filter _ = tier
  have hsorted : ∀ a, a ∈ db.filterAbilitiesByRequestPath (tier.insertionSort fun a b => b.weight ≤ a.weight) requestPath ↔
      a ∈ db.filterAbilitiesByRequestPath tier requestPath := by
    intro a
    rw [mem_filterAbilitiesByRequestPath, mem_insertionSort, ← mem_filterAbilitiesByRequestPath]
  simp only [← hsorted]
  generalize db.filterAbilitiesByRequestPath (tier.insertionSort fun a b => b.weight ≤ a.weight) requestPath = abilities
  by_cases hnil : abilities = []
  · subst hnil
    simp
  · simp only [if_neg hnil]
    constructor
    · rintro ⟨draw, hdraw⟩
      obtain ⟨a, ha, heq⟩ := exists_drawn hnil draw
      rw [heq] at hdraw
      cases hget : db.channels.get a.channelId with
      | none =>
        rw [hget] at hdraw
        cases hdraw
      | some found =>
        rw [hget] at hdraw
        cases hdraw
        exact ⟨a, ha, hget⟩
    · rintro ⟨a, ha, hget⟩
      obtain ⟨v, hv, heq⟩ := exists_drawAbility ha
      have hshare : (abilities.map fun a => a.weight + 10).sum = (abilities.map Ability.share).sum := rfl
      refine ⟨v, ?_⟩
      rw [hshare, Nat.mod_eq_of_lt hv, heq, hget]

end Database

/-! ## Channels of a model -/

namespace ChannelRows
variable (rows : ChannelRows)

def naming (group model : String) : List CachedChannel :=
  rows.channels.rows.filter fun channel => group ∈ channel.groups ∧ model ∈ channel.modelNames

def serves (requestPath : String) (channel : CachedChannel) : Bool :=
  requestPath == "" || channel.type ≠ channelTypeAdvancedCustom || (rows.advancedCustom channel.id).any (·.supportsPath requestPath)

def serving (group model requestPath : String) : List CachedChannel := (rows.naming group model).filter (rows.serves requestPath)

def tabled (group model : String) : List CachedChannel :=
  rows.channels.rows.filter fun channel => (group, model) ∈ channel.abilityPairs

variable {channel : CachedChannel}

theorem tabled_subset {group model : String} (h : channel ∈ rows.tabled group model) :
    channel ∈ rows.naming group model := by
  obtain ⟨hmem, hpair⟩ := mem_filter.mp h
  have hlisted := firstByKey_subset _ _ (of_decide_eq_true hpair)
  obtain ⟨name, hname, hgroup⟩ := mem_flatMap.mp hlisted
  obtain ⟨g, hg, heq⟩ := mem_map.mp hgroup
  cases heq
  exact mem_filter.mpr ⟨hmem, decide_eq_true ⟨hg, hname⟩⟩

/-- All channels are enabled and have a weight. -/
structure Live : Prop where
  enabled : ∀ channel ∈ rows.channels.rows, channel.status = .enabled
  weighted : ∀ channel ∈ rows.channels.rows, 0 < channel.getWeight

variable {rows}

theorem mem_enabledAbilities (hlive : rows.Live) {group model : String} {a : Ability} :
    a ∈ rows.database.enabledAbilities group model ↔ ∃ channel ∈ rows.tabled group model,
      a = ⟨group, model, channel.id, true, channel.getPriority, channel.getWeight⟩ := by
  unfold enabledAbilities database
  rw [mem_filter, mem_flatMap, decide_eq_true_eq]
  constructor
  · rintro ⟨⟨channel, hchannel, ha⟩, hgroup, hmodel, -⟩
    obtain ⟨pair, hpair, rfl⟩ := mem_map.mp ha
    subst hgroup hmodel
    refine ⟨channel, mem_filter.mpr ⟨hchannel, decide_eq_true hpair⟩, ?_⟩
    rw [hlive.enabled channel hchannel]
    rfl
  · rintro ⟨channel, hchannel, rfl⟩
    obtain ⟨hmem, hpair⟩ := mem_filter.mp hchannel
    refine ⟨⟨channel, hmem, mem_map.mpr ⟨(group, model), of_decide_eq_true hpair, ?_⟩⟩, rfl, rfl, rfl⟩
    rw [hlive.enabled channel hmem]
    rfl

theorem get_database (h : channel ∈ rows.channels.rows) :
    rows.database.channels.get channel.id = some channel.toChannel := by
  have hget := Table.get_of_mem h
  change (rows.channels.map CachedChannel.toChannel fun _ => rfl).get channel.id = _
  rw [Table.get_map, hget]
  rfl

theorem mem_filterAbilities (requestPath : String) {abilities : List Ability} {a : Ability}
    (hchannel : channel ∈ rows.channels.rows) (hid : a.channelId = channel.id) :
    a ∈ rows.database.filterAbilitiesByRequestPath abilities requestPath ↔ a ∈ abilities ∧ rows.serves requestPath channel = true := by
  unfold filterAbilitiesByRequestPath serves
  by_cases hpath : (requestPath == "") = true
  · rw [hpath]
    simp
  · rw [if_neg hpath, mem_filter, hid, get_database hchannel]
    have hconfig : rows.database.advancedCustom channel.id = rows.advancedCustom channel.id := rfl
    rw [hconfig]
    by_cases htype : channel.type = channelTypeAdvancedCustom
    · cases rows.advancedCustom channel.id <;> simp_all
    · simp [htype]

theorem database_returns_iff (hlive : rows.Live) (group model : String) (retry : ℕ) (requestPath : String) (found : Channel) :
    (∃ draw, rows.database.getChannel group model retry requestPath draw = (some found, none)) ↔
      ∃ channel ∈ rows.tabled group model, channel.toChannel = found ∧ rows.serves requestPath channel = true ∧
        channel.getPriority = levelOf ((rows.tabled group model).map fun channel => channel.getPriority) retry := by
  by_cases hnone : rows.database.enabledAbilities group model = []
  · refine iff_of_false (fun ⟨draw, hdraw⟩ => ?_) fun ⟨channel, hchannel, _⟩ => ?_
    · have hnothing := getChannel_without_rows rows.database group model retry hnone requestPath draw
      rw [hdraw] at hnothing
      cases hnothing
    have hmem := (mem_enabledAbilities hlive).mpr ⟨channel, hchannel, rfl⟩
    rw [hnone] at hmem
    cases hmem
  · have hlevel : levelOf ((rows.database.enabledAbilities group model).map Ability.priority) retry =
        levelOf ((rows.tabled group model).map fun channel => channel.getPriority) retry := by
      refine levelOf_congr (fun p => ?_) retry
      rw [mem_map, mem_map]
      constructor
      · rintro ⟨a, ha, rfl⟩
        obtain ⟨channel, hchannel, rfl⟩ := (mem_enabledAbilities hlive).mp ha
        exact ⟨channel, hchannel, rfl⟩
      · rintro ⟨channel, hchannel, rfl⟩
        exact ⟨_, (mem_enabledAbilities hlive).mpr ⟨channel, hchannel, rfl⟩, rfl⟩
    rw [getChannel_iff _ _ _ _ hnone, hlevel]
    constructor
    · rintro ⟨a, ha, hget⟩
      have hrow := mem_of_mem_filter ((mem_filterAbilitiesByRequestPath rows.database).mp ha).1
      obtain ⟨channel, hchannel, rfl⟩ := (mem_enabledAbilities hlive).mp hrow
      have hmem := mem_of_mem_filter hchannel
      rw [get_database hmem] at hget
      cases hget
      obtain ⟨htier, hserves⟩ := (mem_filterAbilities requestPath hmem rfl).mp ha
      exact ⟨channel, hchannel, rfl, hserves, of_decide_eq_true (mem_filter.mp htier).2⟩
    · rintro ⟨channel, hchannel, rfl, hserves, hpriority⟩
      have hmem := mem_of_mem_filter hchannel
      have hrow := (mem_enabledAbilities hlive).mpr ⟨channel, hchannel, rfl⟩
      exact ⟨_, (mem_filterAbilities requestPath hmem rfl).mpr ⟨mem_filter.mpr ⟨hrow, decide_eq_true hpriority⟩, hserves⟩,
        get_database hmem⟩

end ChannelRows

/-! ## The cached path -/

section Cached
variable {rows : ChannelRows} {cache : SyncedCache} {channel : CachedChannel} {channels : List Channel}

def ChannelRows.candidates (rows : ChannelRows) (group model requestPath : String) : List CachedChannel :=
  if rows.serving group model requestPath = [] then rows.serving group (formatMatchingModelName model) requestPath
  else rows.serving group model requestPath

theorem candidates_subset {group model requestPath : String}
    (h : channel ∈ rows.candidates group model requestPath) : channel ∈ rows.channels.rows := by
  unfold candidates at h
  split at h
  · exact mem_of_mem_filter (mem_of_mem_filter h)
  · exact mem_of_mem_filter (mem_of_mem_filter h)

section
variable (hlive : rows.Live) (hinit : initChannelCache rows = some cache)
include hinit

theorem get_cache (h : channel ∈ rows.channels.rows) :
    cache.toChannelCache.channelsIDM.get channel.id = some channel.toChannel := by
  unfold initChannelCache at hinit
  dsimp only at hinit
  split at hinit
  · cases hinit
  · cases hinit
    exact get_database h

theorem servesPath_cache (h : channel ∈ rows.channels.rows) (requestPath : String) :
    cache.toChannelCache.servesPath requestPath channel.toChannel ↔ rows.serves requestPath channel = true := by
  have hconfig : channel.type = channelTypeAdvancedCustom →
      cache.toChannelCache.channel2advancedCustomConfig channel.id = rows.advancedCustom channel.id := by
    intro htype
    unfold initChannelCache at hinit
    dsimp only at hinit
    split at hinit
    · cases hinit
    · cases hinit
      dsimp only [SyncedCache.toChannelCache]
      rw [Table.get_of_mem h]
      exact if_pos htype
  unfold ChannelCache.servesPath serves
  rw [Bool.or_eq_true, Bool.or_eq_true, beq_iff_eq, decide_eq_true_eq, or_assoc]
  refine or_congr_right ?_
  by_cases htype : channel.type = channelTypeAdvancedCustom
  · rw [hconfig htype, Option.any_eq_true]
  · exact iff_of_true (Or.inl htype) (Or.inl htype)

include hlive

theorem mem_index (group model : String) (id : ℤ) :
    id ∈ cache.toChannelCache.group2model2channels group model ↔ ∃ channel ∈ rows.naming group model, channel.id = id := by
  unfold initChannelCache at hinit
  dsimp only at hinit
  split at hinit
  · cases hinit
  · cases hinit
    change id ∈ (indexChannels rows.channels group model).insertionSort _ ↔ _
    rw [mem_insertionSort, ← count_pos_iff, count_indexChannels]
    constructor
    · intro hpos
      cases hget : rows.channels.get id with
      | none =>
        rw [hget] at hpos
        cases hpos
      | some channel =>
        rw [hget, Option.map_some, CachedChannel.listings] at hpos
        have hmem := (rows.channels.get_eq_some_iff id channel).mp hget
        rw [if_neg (not_not_intro (hlive.enabled channel hmem.1))] at hpos
        obtain ⟨hgroup, hmodel⟩ := CanonicallyOrderedAdd.mul_pos.mp hpos
        exact ⟨channel, mem_filter.mpr ⟨hmem.1, decide_eq_true ⟨count_pos_iff.mp hgroup, count_pos_iff.mp hmodel⟩⟩,
          hmem.2⟩
    · rintro ⟨channel, hchannel, rfl⟩
      obtain ⟨hmem, hnames⟩ := mem_filter.mp hchannel
      obtain ⟨hgroup, hmodel⟩ := of_decide_eq_true hnames
      rw [Table.get_of_mem hmem, Option.map_some, CachedChannel.listings,
        if_neg (not_not_intro (hlive.enabled channel hmem))]
      exact Nat.mul_pos (count_pos_iff.mpr hgroup) (count_pos_iff.mpr hmodel)

theorem mem_filterChannels (group model requestPath : String) (id : ℤ) :
    id ∈ cache.toChannelCache.filterChannelsByRequestPath (cache.toChannelCache.group2model2channels group model) requestPath ↔
      ∃ channel ∈ rows.serving group model requestPath, channel.id = id := by
  have hlisted := mem_index hlive hinit group model id
  constructor
  · intro hid
    have hmem : id ∈ cache.toChannelCache.group2model2channels group model := by
      unfold ChannelCache.filterChannelsByRequestPath at hid
      split at hid
      · exact hid
      · exact mem_of_mem_filter hid
    obtain ⟨channel, hchannel, rfl⟩ := hlisted.mp hmem
    have hrow := mem_of_mem_filter hchannel
    have hserves := ((servesPath_iff (get_cache hinit hrow) requestPath _).mp hid).2
    exact ⟨channel, mem_filter.mpr ⟨hchannel, (servesPath_cache hinit hrow requestPath).mp hserves⟩, rfl⟩
  · rintro ⟨channel, hchannel, rfl⟩
    obtain ⟨hnaming, hserves⟩ := mem_filter.mp hchannel
    have hrow := mem_of_mem_filter hnaming
    exact (servesPath_iff (get_cache hinit hrow) requestPath _).mpr
      ⟨hlisted.mpr ⟨channel, hnaming, rfl⟩, (servesPath_cache hinit hrow requestPath).mpr hserves⟩

theorem mem_candidates_cache (group model requestPath : String) (id : ℤ) :
    id ∈ cache.toChannelCache.candidates group model requestPath ↔
      ∃ channel ∈ rows.candidates group model requestPath, channel.id = id := by
  have hnil : cache.toChannelCache.filterChannelsByRequestPath (cache.toChannelCache.group2model2channels group model) requestPath = [] ↔
      rows.serving group model requestPath = [] := by
    rw [eq_nil_iff_forall_not_mem, eq_nil_iff_forall_not_mem]
    refine ⟨fun h channel hchannel => h channel.id ((mem_filterChannels hlive hinit _ _ _ _).mpr ⟨channel, hchannel, rfl⟩),
      fun h id hid => ?_⟩
    obtain ⟨channel, hchannel, -⟩ := (mem_filterChannels hlive hinit _ _ _ _).mp hid
    exact h channel hchannel
  unfold ChannelCache.candidates candidates
  by_cases hempty : rows.serving group model requestPath = []
  · rw [if_pos (hnil.mpr hempty), if_pos hempty]
    exact mem_filterChannels hlive hinit ..
  · rw [if_neg (hnil.not.mpr hempty), if_neg hempty]
    exact mem_filterChannels hlive hinit ..

theorem mem_channelsOf (group model requestPath : String) (found : Channel) :
    found ∈ cache.toChannelCache.channelsOf (cache.toChannelCache.candidates group model requestPath) ↔
      ∃ channel ∈ rows.candidates group model requestPath, channel.toChannel = found := by
  rw [ChannelCache.channelsOf, mem_filterMap]
  constructor
  · rintro ⟨id, hid, hget⟩
    obtain ⟨channel, hchannel, rfl⟩ := (mem_candidates_cache hlive hinit ..).mp hid
    rw [get_cache hinit (candidates_subset hchannel)] at hget
    exact ⟨channel, hchannel, Option.some.inj hget⟩
  · rintro ⟨channel, hchannel, rfl⟩
    exact ⟨channel.id, (mem_candidates_cache hlive hinit ..).mpr ⟨channel, hchannel, rfl⟩, get_cache hinit (candidates_subset hchannel)⟩

theorem candidate_of_offers {group model requestPath : String}
    {found : Channel} (hknown : cache.toChannelCache.channelsIDM.get found.id = some found)
    (hoffers : cache.toChannelCache.offers group model requestPath found)
    (hserves : cache.toChannelCache.servesPath requestPath found) :
    ∃ channel ∈ rows.candidates group model requestPath, channel.toChannel = found := by
  have hserving : ∀ name, found.id ∈ cache.toChannelCache.group2model2channels group name →
      ∃ channel ∈ rows.serving group name requestPath, channel.toChannel = found := by
    intro name hid
    obtain ⟨channel, hchannel, heq⟩ := (mem_index hlive hinit group name found.id).mp hid
    have hrow := mem_of_mem_filter hchannel
    have hget := get_cache hinit hrow
    rw [heq, hknown] at hget
    cases hget
    exact ⟨channel, mem_filter.mpr ⟨hchannel, (servesPath_cache hinit hrow requestPath).mp hserves⟩, rfl⟩
  unfold candidates
  rcases hoffers with hid | ⟨hid, hnone⟩
  · obtain ⟨channel, hchannel, heq⟩ := hserving model hid
    rw [if_neg (ne_nil_of_mem hchannel)]
    exact ⟨channel, hchannel, heq⟩
  · have hempty : rows.serving group model requestPath = [] := by
      refine eq_nil_iff_forall_not_mem.mpr fun channel hchannel => ?_
      obtain ⟨hnaming, hchannelServes⟩ := mem_filter.mp hchannel
      have hrow := mem_of_mem_filter hnaming
      exact hnone channel.id ((mem_index hlive hinit ..).mpr ⟨channel, hnaming, rfl⟩) channel.toChannel (get_cache hinit hrow)
        ((servesPath_cache hinit hrow requestPath).mpr hchannelServes)
    rw [if_pos hempty]
    exact hserving _ hid

end

/-! ## Every channel of a tier can be drawn -/

theorem adjustedWeights_pos (scoring : Scoring) (cache : ChannelCache) (group model : String)
    (h : ∀ channel ∈ channels, 0 < channel.getWeight) : ∀ weight ∈ adjustedWeights scoring cache group model channels, 0 < weight := by
  intro weight hweight
  unfold adjustedWeights Engine.calculate baseWeights at hweight
  rw [zipWith_map_right, zipWith_self, map_map, map_map] at hweight
  obtain ⟨channel, hchannel, rfl⟩ := mem_map.mp hweight
  have hpos := h channel hchannel
  refine score_finalWeight_pos scoring.engine _ _ ?_
  dsimp only
  split <;> split <;> omega

theorem exists_drawChannel {σ : Type*} {g : Guards σ} (hmark : ∀ id s, (markChannelSelected g id s).1 = true) (s : σ)
    {weights : List ℤ} (hlength : weights.length = channels.length) (hpos : ∀ weight ∈ weights, 0 < weight)
    {channel : Channel} (hchannel : channel ∈ channels) :
    ∃ v : ℕ, (v : ℤ) < weights.sum ∧ (drawChannel g (channels.zip weights) v s).1 = some channel := by
  induction channels generalizing weights with
  | nil => cases hchannel
  | cons first rest ih =>
    cases weights with
    | nil => cases hlength
    | cons weight weights =>
      obtain ⟨hweight, hweights⟩ := forall_mem_cons.mp hpos
      obtain ⟨n, rfl⟩ : ∃ n : ℕ, weight = n := ⟨weight.toNat, by omega⟩
      have hsum : 0 ≤ weights.sum := sum_nonneg fun w hw => (hweights w hw).le
      rw [sum_cons, zip_cons_cons]
      rcases mem_cons.mp hchannel with rfl | hrest
      · refine ⟨0, ?_, drawChannel_below hmark channel n _ (by omega) s⟩
        omega
      · obtain ⟨v, hv, hdrawn⟩ := ih (Nat.succ.inj hlength) hweights hrest
        refine ⟨n + v, by omega, ?_⟩
        rw [drawChannel_above, hdrawn]

structure Limits.Off (limits : Limits) : Prop where
  breaker : limits.breaker.enabled = false
  limiter : limits.limiter.enabled = false

variable {limits : Limits}

theorem Limits.Off.selectable (hoff : limits.Off) (id : ℤ) (s : Shared) :
    (channelSelectable (sharedGuards limits) id s).1 = true := by
  have hlimits : limits.limiter.limits id = false := by
    rw [Limiter.ChannelLimiterSetting.limits, hoff.limiter]
    rfl
  rw [sharedGuards_selectable, canAcquire_fst, hlimits]
  unfold CircuitBreaker.canSelect CircuitBreaker.withBreaker
  rw [hoff.breaker]
  rfl

theorem Limits.Off.mark (hoff : limits.Off) (id : ℤ) (s : Shared) :
    (markChannelSelected (sharedGuards limits) id s).1 = true :=
  (sharedGuards_undisturbed limits).mark_of_selectable id s (hoff.selectable id s)

theorem selectByPriority_returns (hoff : limits.Off) (scoring : Scoring) (cache : ChannelCache) (group model : String)
    (retry : ℕ) (hweights : ∀ channel ∈ channels, 0 < channel.getWeight) (s : Shared) {channel : Channel}
    (hchannel : channel ∈ channels) (hpriority : channel.getPriority = targetPriority channels retry) :
    ∃ draw, (selectByPriority (sharedGuards limits) scoring cache group model retry draw channels s).1.1 = some channel := by
  obtain ⟨htargets, -⟩ := targetChannels_spec (sharedGuards_undisturbed limits) (targetPriority channels retry) channels s
  have hmem : channel ∈ (targetChannels (sharedGuards limits) (targetPriority channels retry) channels s).1 := by
    rw [htargets, mem_filter, decide_eq_true_eq]
    exact ⟨hchannel, hpriority, hoff.selectable _ _⟩
  have hne := ne_nil_of_mem hmem
  obtain ⟨hlength, -⟩ := adjustedWeights_sum_pos scoring cache group model hne
  have hpos := adjustedWeights_pos scoring cache group model
    (fun c (hc : c ∈ (targetChannels (sharedGuards limits) (targetPriority channels retry) channels s).1) =>
      hweights c (mem_of_targetChannels hc))
  obtain ⟨v, hv, hdrawn⟩ := exists_drawChannel hoff.mark
    (targetChannels (sharedGuards limits) (targetPriority channels retry) channels s).2 hlength hpos hmem
  refine ⟨v, ?_⟩
  unfold selectByPriority
  dsimp only
  rw [if_neg hne, if_neg (by omega), Int.emod_eq_of_lt (by omega) hv]
  generalize drawChannel _ _ _ _ = drawn at hdrawn ⊢
  obtain ⟨result, s'⟩ := drawn
  dsimp only at hdrawn
  rw [hdrawn]

theorem cache_returns_iff (hlive : rows.Live) (hinit : initChannelCache rows = some cache) (hoff : limits.Off)
    (scoring : Scoring) (group model : String) (retry : ℕ) (requestPath : String) (s : Shared) (found : Channel) :
    (∃ draw, (getRandomSatisfiedChannel (sharedGuards limits) scoring cache.toChannelCache group model retry requestPath draw s).1.1 =
        some found) ↔
      ∃ channel ∈ rows.candidates group model requestPath, channel.toChannel = found ∧
        channel.getPriority = levelOf ((rows.candidates group model requestPath).map fun channel => channel.getPriority) retry := by
  have hof := mem_channelsOf hlive hinit group model requestPath
  have hmap : ∀ p, p ∈ (cache.toChannelCache.channelsOf (cache.toChannelCache.candidates group model requestPath)).map
      Channel.getPriority ↔ p ∈ (rows.candidates group model requestPath).map fun channel => channel.getPriority := by
    intro p
    rw [mem_map, mem_map]
    constructor
    · rintro ⟨c, hc, rfl⟩
      obtain ⟨channel, hchannel, rfl⟩ := (hof c).mp hc
      exact ⟨channel, hchannel, rfl⟩
    · rintro ⟨channel, hchannel, rfl⟩
      exact ⟨channel.toChannel, (hof _).mpr ⟨channel, hchannel, rfl⟩, rfl⟩
  have hlevel : ∀ c ∈ cache.toChannelCache.channelsOf (cache.toChannelCache.candidates group model requestPath),
      targetPriority (cache.toChannelCache.channelsOf (cache.toChannelCache.candidates group model requestPath)) retry =
        levelOf ((rows.candidates group model requestPath).map fun channel => channel.getPriority) retry := by
    intro c hc
    rw [targetPriority_eq_levelOf (ne_nil_of_mem hc), levelOf_congr hmap]
  have hlisted : ∀ id ∈ cache.toChannelCache.candidates group model requestPath, cache.toChannelCache.channelsIDM.get id ≠ none := by
    intro id hid
    obtain ⟨channel, hchannel, rfl⟩ := (mem_candidates_cache hlive hinit ..).mp hid
    rw [get_cache hinit (candidates_subset hchannel)]
    exact Option.some_ne_none _
  constructor
  · rintro ⟨draw, hdraw⟩
    have hsound := selection_sound limits scoring cache.toChannelCache group model retry requestPath draw s
    generalize getRandomSatisfiedChannel (sharedGuards limits) scoring cache.toChannelCache group model retry requestPath draw s =
      result at hdraw hsound
    obtain ⟨⟨picked, err⟩, s'⟩ := result
    cases hdraw
    obtain ⟨-, hfound⟩ := hsound
    obtain ⟨channel, hchannel, rfl⟩ := candidate_of_offers hlive hinit hfound.known hfound.offered hfound.serves
    have hmem := (hof channel.toChannel).mpr ⟨channel, hchannel, rfl⟩
    have htarget := (targetPriority_level (ne_nil_of_mem hmem) retry).symm.trans hfound.level
    exact ⟨channel, hchannel, rfl, (Option.some.inj htarget).symm.trans (hlevel _ hmem)⟩
  · rintro ⟨channel, hchannel, rfl, hpriority⟩
    have hmem := (hof channel.toChannel).mpr ⟨channel, hchannel, rfl⟩
    have htarget := hpriority.trans (hlevel _ hmem).symm
    have hweights : ∀ c ∈ cache.toChannelCache.channelsOf (cache.toChannelCache.candidates group model requestPath), 0 < c.getWeight := by
      intro c hc
      obtain ⟨channel, hchannel, rfl⟩ := (hof c).mp hc
      exact hlive.weighted channel (candidates_subset hchannel)
    unfold getRandomSatisfiedChannel
    generalize cache.toChannelCache.candidates group model requestPath = ids at hmem htarget hweights hlisted
    match ids, hmem, htarget, hweights, hlisted with
    | [], hmem, _, _, _ => cases hmem
    | [id], hmem, _, _, _ =>
      obtain ⟨i, hi, hget⟩ := mem_filterMap.mp hmem
      cases mem_singleton.mp hi
      refine ⟨0, ?_⟩
      dsimp only
      rw [hget]
      dsimp only
      rw [hoff.selectable, hoff.mark]
      rfl
    | first :: second :: rest, hmem, htarget, hweights, hlisted =>
      dsimp only
      rw [lookupAll_of_listed _ _ hlisted]
      exact selectByPriority_returns hoff scoring _ group model retry hweights s hmem htarget

def SameChoice (limits : Limits) (scoring : Scoring) (cache : SyncedCache) (rows : ChannelRows) (group model : String) (retry : ℕ)
    (requestPath : String) (s : Shared) : Prop :=
  ∀ found, (∃ draw, (getRandomSatisfiedChannel (sharedGuards limits) scoring cache.toChannelCache group model retry requestPath
      draw s).1.1 = some found) ↔
    ∃ draw, rows.database.getChannel group model retry requestPath draw = (some found, none)

/-- No channel serves the path under either name, or the retry points at the same priority with and without the others, and its
channels have their rows. -/
def ChannelRows.SameLevel (rows : ChannelRows) (group model : String) (retry : ℕ) (requestPath : String) : Prop :=
  if rows.serving group model requestPath = [] then rows.serving group (formatMatchingModelName model) requestPath = []
  else levelOf ((rows.tabled group model).map fun channel => channel.getPriority) retry =
      levelOf ((rows.serving group model requestPath).map fun channel => channel.getPriority) retry ∧
    ∀ channel ∈ rows.serving group model requestPath,
      channel.getPriority = levelOf ((rows.serving group model requestPath).map fun channel => channel.getPriority) retry →
        channel ∈ rows.tabled group model

theorem exists_of_level {channels : List CachedChannel} (h : channels ≠ []) (retry : ℕ) :
    ∃ channel ∈ channels, channel.getPriority = levelOf (channels.map fun channel => channel.getPriority) retry := by
  have hne : (channels.map fun channel => channel.getPriority) ≠ [] := fun hnil => h (map_eq_nil_iff.mp hnil)
  obtain ⟨channel, hchannel, heq⟩ := mem_map.mp (levelOf_mem hne retry)
  exact ⟨channel, hchannel, heq⟩

/-- Cache and database can return the same channels exactly if both look at the same priority level of the rows. -/
theorem sameChoice_iff (hlive : rows.Live) (hinit : initChannelCache rows = some cache) {limits : Limits} (hoff : limits.Off)
    (scoring : Scoring) (group model : String) (retry : ℕ) (requestPath : String) (s : Shared) :
    SameChoice limits scoring cache rows group model retry requestPath s ↔ rows.SameLevel group model retry requestPath := by
  unfold SameChoice ChannelRows.SameLevel
  simp only [cache_returns_iff hlive hinit hoff, database_returns_iff hlive]
  unfold candidates
  by_cases hempty : rows.serving group model requestPath = []
  · -- the database path returns nothing here
    have hdatabase : ∀ found, ¬∃ channel ∈ rows.tabled group model, channel.toChannel = found ∧ rows.serves requestPath channel = true ∧
        channel.getPriority = levelOf ((rows.tabled group model).map fun channel => channel.getPriority) retry := by
      rintro - ⟨channel, hchannel, -, hserves, -⟩
      have hserving : channel ∈ rows.serving group model requestPath :=
        mem_filter.mpr ⟨rows.tabled_subset hchannel, hserves⟩
      rw [hempty] at hserving
      cases hserving
    simp only [if_pos hempty, hdatabase, iff_false]
    constructor
    · intro hnone
      by_contra hother
      obtain ⟨channel, hchannel, hpriority⟩ := exists_of_level hother retry
      exact hnone channel.toChannel ⟨channel, hchannel, rfl, hpriority⟩
    · rintro hother - ⟨channel, hchannel, -⟩
      rw [hother] at hchannel
      cases hchannel
  · simp only [if_neg hempty]
    have hrow : ∀ channel ∈ rows.serving group model requestPath, channel ∈ rows.channels.rows := fun channel hchannel =>
      mem_of_mem_filter (mem_of_mem_filter hchannel)
    have hserves : ∀ channel ∈ rows.serving group model requestPath, rows.serves requestPath channel = true := fun channel hchannel =>
      (mem_filter.mp hchannel).2
    constructor
    · intro hsame
      have hrows : ∀ channel ∈ rows.serving group model requestPath,
          channel.getPriority = levelOf ((rows.serving group model requestPath).map fun channel => channel.getPriority) retry →
            channel ∈ rows.tabled group model ∧
              channel.getPriority = levelOf ((rows.tabled group model).map fun channel => channel.getPriority) retry := by
        intro channel hchannel hpriority
        obtain ⟨other, hother, heq, -, hlevel⟩ := (hsame channel.toChannel).mp ⟨channel, hchannel, rfl, hpriority⟩
        cases Table.eq_of_key (mem_of_mem_filter hother) (hrow channel hchannel) (congrArg Channel.id heq)
        exact ⟨hother, hlevel⟩
      obtain ⟨channel, hchannel, hpriority⟩ := exists_of_level hempty retry
      exact ⟨(hrows channel hchannel hpriority).2.symm.trans hpriority, fun c hc hp => (hrows c hc hp).1⟩
    · rintro ⟨hlevel, hrows⟩ -
      rw [hlevel]
      constructor
      · rintro ⟨channel, hchannel, rfl, hpriority⟩
        exact ⟨channel, hrows channel hchannel hpriority, rfl, hserves channel hchannel, hpriority⟩
      · rintro ⟨channel, hchannel, rfl, hservesPath, hpriority⟩
        exact ⟨channel, mem_filter.mpr ⟨rows.tabled_subset hchannel, hservesPath⟩, rfl, hpriority⟩

end Cached

section Samples
open CircuitBreaker Limiter

/-- Channel 1 has the higher priority and serves no path but its own; channel 2 serves all. -/
def customFirst : ChannelRows where
  channels := ⟨[⟨⟨1, 58, some 10, some 10, 0, none, none⟩, .enabled, "default", "gpt"⟩,
    ⟨⟨2, 1, some 10, some 0, 0, none, none⟩, .enabled, "default", "gpt"⟩], by decide⟩
  abilities := [⟨"default", "gpt", 1, none, none⟩]
  advancedCustom _ := some ⟨["/custom"]⟩

def offLimits : Limits where
  breaker := getCircuitBreakerSetting ⟨false, 60, 10, 1 / 2, 10, 30, 1, 1⟩
  limiter := ⟨false, 1⟩
  now := 0

def untouched : Shared := ⟨fun _ => none, fun _ => none⟩

theorem customFirst_live : customFirst.Live := ⟨by decide, by decide⟩

/-- On the custom path both priorities are there on both sides. -/
theorem sameChoice_iff_custom : ∃ cache, initChannelCache customFirst = some cache ∧
    SameChoice offLimits sampleScoring cache customFirst "default" "gpt" 0 "/custom" untouched := by
  obtain ⟨cache, hinit⟩ := Option.isSome_iff_exists.mp (by decide +kernel : (initChannelCache customFirst).isSome = true)
  refine ⟨cache, hinit, (sameChoice_iff customFirst_live hinit ⟨rfl, rfl⟩ sampleScoring "default" "gpt" 0 "/custom" untouched).mpr ?_⟩
  unfold ChannelRows.SameLevel
  decide +kernel

/-- On any other path the cache returns channel 2 at the first attempt, and the database path finds nothing. -/
theorem customFirst_differs :
    ((initChannelCache customFirst).map fun cache => (getRandomSatisfiedChannel (sharedGuards offLimits) sampleScoring
      cache.toChannelCache "default" "gpt" 0 "/v1/responses" 0 untouched).1.1.map Channel.id) = some (some 2) ∧
    ∀ draw, customFirst.database.getChannel "default" "gpt" 0 "/v1/responses" draw = (none, none) := by
  refine ⟨by decide +kernel, fun draw => ?_⟩
  have hquery : customFirst.database.getChannelQuery "default" "gpt" 0 = .ok [⟨"default", "gpt", 1, true, 10, 10⟩] := by
    decide +kernel
  have hfiltered : customFirst.database.filterAbilitiesByRequestPath
      ([⟨"default", "gpt", 1, true, 10, 10⟩].insertionSort fun a b => b.weight ≤ a.weight) "/v1/responses" = [] := by
    decide +kernel
  unfold getChannel
  rw [hquery]
  dsimp only
  rw [hfiltered, if_pos rfl]

end Samples

end HotAI.Routing
