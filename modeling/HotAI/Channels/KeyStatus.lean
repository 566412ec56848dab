import HotAI.Channels.MultiKey

/-! # Disabling single keys (`model/channel.go`)

`UpdateChannelStatus` changes a channel twice, first the cached object and then the stored row, and
`GetNextEnabledKey` hands out keys of the cached one. -/
namespace HotAI.Channels
open HotAI.Lib HotAI.Routing Function List

/-! ## Handing out a key -/

def enabledIdx (keys : List String) (info : ChannelInfo) : List ℕ :=
  (List.range keys.length).filter fun i => info.getStatus i = .enabled

def pollingOrder (start : ℤ) (size : ℕ) : List ℕ :=
  let start := if start < 0 ∨ (size : ℤ) ≤ start then 0 else start.toNat
  (List.range size).map fun i => (start + i) % size

/-- `GetNextEnabledKey` on a cached channel: key and position or error, and the new polling index; `draw` is random. -/
def getNextEnabledKey (channel : KeyedChannel) (draw : ℕ) : Except String (String × ℕ) × KeyedChannel :=
  if !channel.info.isMultiKey then (.ok (channel.key, 0), channel)
  else
    let keys := getKeys channel.key
    if keys = [] then (.error "no keys available", channel)
    else match enabledIdx keys channel.info with
      | [] => (.error "no enabled keys", channel)
      | first :: rest =>
          let handOut (i : ℕ) : Except String (String × ℕ) := .ok (keys.getD i "", i)
          match channel.info.multiKeyMode with
          | .random => (handOut ((first :: rest).getD (draw % (first :: rest).length) first), channel)
          | .polling =>
              match (pollingOrder channel.info.multiKeyPollingIndex keys.length).find?
                  (fun i => channel.info.getStatus i = .enabled) with
              | some i => (handOut i,
                  { channel with info := { channel.info with multiKeyPollingIndex := ((i + 1) % keys.length : ℕ) } })
              | none => (handOut first, channel)
          | .other => (handOut first, channel)

/-! ## Changing the status of a key -/

def hasEnabledMultiKey (keys : List String) (statusList : ℕ → Option ChannelStatus) : Bool :=
  (List.range keys.length).any fun i => (statusList i).getD .enabled = .enabled

def ChannelInfo.setStatus (info : ChannelInfo) (i : ℕ) (status : ChannelStatus) (reason : String) (now : ℤ) : ChannelInfo :=
  if status = .enabled then
    { info with multiKeyStatusList := Function.update info.multiKeyStatusList i none }
  else
    { info with
      multiKeyStatusList := Function.update info.multiKeyStatusList i (some status)
      multiKeyDisabledReason := Function.update info.multiKeyDisabledReason i (some reason)
      multiKeyDisabledTime := Function.update info.multiKeyDisabledTime i (some now) }

def handlerMultiKeyUpdate (channel : KeyedChannel) (usingKey : String) (status : ChannelStatus) (reason : String)
    (now : ℤ) : KeyedChannel :=
  let keys := getKeys channel.key
  if keys = [] then { channel with status }
  else match keys.idxOf? usingKey with
    | none => if usingKey ≠ "" then channel else { channel with status }
    | some i =>
        let info := channel.info.setStatus i status reason now
        if !hasEnabledMultiKey keys info.multiKeyStatusList then { channel with info, status := .autoDisabled }
        else if status = .enabled then { channel with info, status := .enabled }
        else { channel with info }

/-- A channel in the memory cache and in the database, and the keys that were disabled last. -/
structure KeyState where
  cached : KeyedChannel
  stored : KeyedChannel
  off : String → Bool

/-- `UpdateChannelStatus` with the memory cache. A stored channel with the status already is not looked at further. -/
def updateChannelStatus (s : KeyState) (usingKey : String) (status : ChannelStatus) (reason : String) (now : ℤ) : KeyState :=
  if !s.cached.info.isMultiKey && s.cached.status = status then s
  else
    { s with
      cached := if s.cached.info.isMultiKey then handlerMultiKeyUpdate s.cached usingKey status reason now
        else { s.cached with status }
      stored := if s.stored.status = status then s.stored
        else if s.stored.info.isMultiKey then handlerMultiKeyUpdate s.stored usingKey status reason now
        else { s.stored with status } }

inductive KeyCall where
  | getNextEnabledKey (draw : ℕ)
  | updateChannelStatus (usingKey : String) (status : ChannelStatus) (reason : String) (now : ℤ)
deriving DecidableEq, Repr

def keyStep (s : KeyState) : KeyCall → KeyState
  | .getNextEnabledKey draw => { s with cached := (Channels.getNextEnabledKey s.cached draw).2 }
  | .updateChannelStatus usingKey status reason now =>
      { Channels.updateChannelStatus s usingKey status reason now with
        off := Function.update s.off usingKey (status ≠ .enabled) }

/-! ## What is expected of every state -/

/-- The channel is enabled exactly when one of its keys is. -/
def KeyedChannel.Agrees (channel : KeyedChannel) : Prop :=
  channel.status = .enabled ↔ hasEnabledMultiKey (getKeys channel.key) channel.info.multiKeyStatusList = true

instance (channel : KeyedChannel) : Decidable channel.Agrees := inferInstanceAs (Decidable (_ ↔ _))

structure KeysSound (s : KeyState) : Prop where
  withheld : ∀ draw key i, (getNextEnabledKey s.cached draw).1 = .ok (key, i) → s.off key = false
  agrees : s.cached.Agrees
  sameStatus : s.cached.status = s.stored.status
  sameList : s.cached.info.multiKeyStatusList = s.stored.info.multiKeyStatusList

/-- What a call must meet. A key of the channel: a disabled one is listed only once, if the stored channel has the status
already so has the key, and its keys give a channel that status. Otherwise the call is about the whole channel, unless the key
is not known: the status must then fit the keys. -/
def respectsKeys (s : KeyState) : KeyCall → Bool
  | .getNextEnabledKey _ => true
  | .updateChannelStatus usingKey status _ _ =>
      let keys := getKeys s.cached.key
      match keys.idxOf? usingKey with
      | some i => (status = .enabled || keys.count usingKey = 1) &&
          (s.stored.status ≠ status ||
            ((status = .enabled || status = .autoDisabled) &&
              s.cached.info.multiKeyStatusList i = if status = .enabled then none else some status))
      | none => keys ≠ [] && usingKey ≠ "" ||
          decide (status = .enabled) = hasEnabledMultiKey keys s.cached.info.multiKeyStatusList

/-! ## What a call does -/

structure SameCore (a b : KeyedChannel) : Prop where
  status : a.status = b.status
  key : a.key = b.key
  isMultiKey : a.info.isMultiKey = b.info.isMultiKey
  statusList : a.info.multiKeyStatusList = b.info.multiKeyStatusList

theorem getNextEnabledKey_core (channel : KeyedChannel) (draw : ℕ) :
    SameCore (getNextEnabledKey channel draw).2 channel := by
  have hself : SameCore channel channel := ⟨rfl, rfl, rfl, rfl⟩
  unfold getNextEnabledKey
  split
  · exact hself
  dsimp only
  split
  · exact hself
  split
  · exact hself
  split
  · exact hself
  · split
    · exact ⟨rfl, rfl, rfl, rfl⟩
    · exact hself
  · exact hself

variable {keys : List String} {i : ℕ}

theorem mem_enabledIdx {info : ChannelInfo} : i ∈ enabledIdx keys info ↔ i < keys.length ∧ info.getStatus i = .enabled := by
  simp [enabledIdx]

theorem lt_of_mem_pollingOrder {start : ℤ} {size : ℕ} (h : i ∈ pollingOrder start size) : i < size := by
  obtain ⟨j, hj, rfl⟩ := mem_map.mp h
  exact Nat.mod_lt _ ((Nat.zero_le j).trans_lt (mem_range.mp hj))

variable {statusList : ℕ → Option ChannelStatus} {key : String}

theorem getNextEnabledKey_ok {channel : KeyedChannel} (hmulti : channel.info.isMultiKey = true) {draw : ℕ}
    (h : (getNextEnabledKey channel draw).1 = .ok (key, i)) :
    (getKeys channel.key)[i]? = some key ∧ channel.info.getStatus i = .enabled := by
  have hhand : ∀ {j : ℕ}, j < (getKeys channel.key).length → channel.info.getStatus j = .enabled →
      (.ok ((getKeys channel.key).getD j "", j) : Except String (String × ℕ)) = .ok (key, i) →
      (getKeys channel.key)[i]? = some key ∧ channel.info.getStatus i = .enabled := by
    intro j hj henabled heq
    cases heq
    exact ⟨by rw [getD_eq_getElem _ _ hj, getElem?_eq_getElem hj], henabled⟩
  unfold getNextEnabledKey at h
  rw [hmulti] at h
  simp only [Bool.not_true, Bool.false_eq_true, if_false] at h
  split at h
  · cases h
  split at h
  · cases h
  next first rest hidx =>
  have hmem : ∀ j ∈ first :: rest, j < (getKeys channel.key).length ∧ channel.info.getStatus j = .enabled := by
    intro j hj
    exact mem_enabledIdx.mp (hidx ▸ hj)
  have hfirst := hmem first (mem_cons_self ..)
  split at h
  · have hlt : draw % (first :: rest).length < (first :: rest).length := Nat.mod_lt _ (Nat.succ_pos _)
    rw [getD_eq_getElem _ _ hlt] at h
    obtain ⟨hpos, henabled⟩ := hmem _ (getElem_mem hlt)
    exact hhand hpos henabled h
  · split at h
    · next j hj =>
      have henabled : channel.info.getStatus j = .enabled := by simpa using find?_some hj
      exact hhand (lt_of_mem_pollingOrder (mem_of_find?_eq_some hj)) henabled h
    · exact hhand hfirst.1 hfirst.2 h
  · exact hhand hfirst.1 hfirst.2 h

def statusEntry (status : ChannelStatus) : Option ChannelStatus := if status = .enabled then none else some status

theorem setStatus_list (info : ChannelInfo) (i : ℕ) (status : ChannelStatus) (reason : String) (now : ℤ) :
    (info.setStatus i status reason now).multiKeyStatusList = update info.multiKeyStatusList i (statusEntry status) := by
  unfold ChannelInfo.setStatus statusEntry
  split <;> rfl

theorem setStatus_isMultiKey (info : ChannelInfo) (i : ℕ) (status : ChannelStatus) (reason : String) (now : ℤ) :
    (info.setStatus i status reason now).isMultiKey = info.isMultiKey := by
  unfold ChannelInfo.setStatus
  split <;> rfl

def statusAfter (keys : List String) (statusList : ℕ → Option ChannelStatus) (status old : ChannelStatus) : ChannelStatus :=
  if !hasEnabledMultiKey keys statusList then .autoDisabled else if status = .enabled then .enabled else old

section Handler

variable {channel : KeyedChannel} {usingKey : String} (status : ChannelStatus) (reason : String) (now : ℤ)

theorem handlerMultiKeyUpdate_found (h : (getKeys channel.key).idxOf? usingKey = some i) :
    SameCore (handlerMultiKeyUpdate channel usingKey status reason now)
      { channel with
        status := statusAfter (getKeys channel.key)
          (update channel.info.multiKeyStatusList i (statusEntry status)) status channel.status
        info := { channel.info with
          multiKeyStatusList := update channel.info.multiKeyStatusList i (statusEntry status) } } := by
  have hne : getKeys channel.key ≠ [] := by
    intro hnil
    rw [hnil] at h
    cases h
  unfold handlerMultiKeyUpdate statusAfter
  simp only [if_neg hne, h, setStatus_list]
  split
  · exact ⟨rfl, rfl, setStatus_isMultiKey .., setStatus_list ..⟩
  split
  · exact ⟨rfl, rfl, setStatus_isMultiKey .., setStatus_list ..⟩
  · exact ⟨rfl, rfl, setStatus_isMultiKey .., setStatus_list ..⟩

theorem handlerMultiKeyUpdate_missing (h : (getKeys channel.key).idxOf? usingKey = none) :
    handlerMultiKeyUpdate channel usingKey status reason now =
      if getKeys channel.key ≠ [] ∧ usingKey ≠ "" then channel else { channel with status } := by
  unfold handlerMultiKeyUpdate
  by_cases hnil : getKeys channel.key = []
  · simp [hnil]
  · simp [hnil, h]

end Handler

variable {a b : KeyedChannel}

theorem handlerMultiKeyUpdate_congr (hab : SameCore a b) (usingKey : String)
    (status : ChannelStatus) (reason : String) (now : ℤ) :
    SameCore (handlerMultiKeyUpdate a usingKey status reason now) (handlerMultiKeyUpdate b usingKey status reason now) := by
  obtain ⟨hstatus, hkey, hmulti, hlist⟩ := hab
  cases hfind : (getKeys a.key).idxOf? usingKey with
  | none =>
    rw [handlerMultiKeyUpdate_missing status reason now hfind,
      handlerMultiKeyUpdate_missing status reason now (hkey ▸ hfind), hkey]
    split
    · exact ⟨hstatus, hkey, hmulti, hlist⟩
    · exact ⟨rfl, rfl, hmulti, hlist⟩
  | some i =>
    obtain ⟨astatus, akey, amulti, alist⟩ := handlerMultiKeyUpdate_found status reason now hfind
    obtain ⟨bstatus, bkey, bmulti, blist⟩ := handlerMultiKeyUpdate_found status reason now (hkey ▸ hfind)
    refine ⟨astatus.trans (.trans ?_ bstatus.symm), akey.trans (hkey.trans bkey.symm),
      amulti.trans (hmulti.trans bmulti.symm), alist.trans (.trans ?_ blist.symm)⟩
    · simp only [hstatus, hkey, hlist]
    · simp only [hlist]

/-! ## Every call keeps the two copies together -/

structure KeyInv (s : KeyState) : Prop where
  isMultiKey : s.cached.info.isMultiKey = true
  copies : SameCore s.cached s.stored
  agrees : s.cached.Agrees
  withheld : ∀ i key, (getKeys s.cached.key)[i]? = some key → s.off key = true →
    s.cached.info.getStatus i ≠ .enabled

theorem KeyInv.sound {s : KeyState} (h : KeyInv s) : KeysSound s where
  withheld draw key i hok := by
    obtain ⟨hkey, henabled⟩ := getNextEnabledKey_ok h.isMultiKey hok
    by_contra hoff
    exact h.withheld i key hkey (by simpa using hoff) henabled
  agrees := h.agrees
  sameStatus := h.copies.status
  sameList := h.copies.statusList

theorem getStatus_congr (h : SameCore a b) (i : ℕ) : a.info.getStatus i = b.info.getStatus i := by
  unfold ChannelInfo.getStatus
  rw [h.statusList]

theorem agrees_congr (h : SameCore a b) : a.Agrees ↔ b.Agrees := by
  unfold KeyedChannel.Agrees
  rw [h.status, h.key, h.statusList]

theorem SameCore.trans {c : KeyedChannel} (hab : SameCore a b) (hbc : SameCore b c) : SameCore a c :=
  ⟨hab.status.trans hbc.status, hab.key.trans hbc.key, hab.isMultiKey.trans hbc.isMultiKey,
    hab.statusList.trans hbc.statusList⟩

theorem inv_getNextEnabledKey {s : KeyState} (h : KeyInv s) (draw : ℕ) : KeyInv (keyStep s (.getNextEnabledKey draw)) := by
  have hcore := getNextEnabledKey_core s.cached draw
  refine ⟨hcore.isMultiKey.trans h.isMultiKey, hcore.trans h.copies, (agrees_congr hcore).mpr h.agrees, ?_⟩
  intro i key hkey hoff
  change (getKeys (getNextEnabledKey s.cached draw).2.key)[i]? = some key at hkey
  rw [hcore.key] at hkey
  change (getNextEnabledKey s.cached draw).2.info.getStatus i ≠ .enabled
  rw [getStatus_congr hcore]
  exact h.withheld i key hkey hoff

theorem hasEnabledMultiKey_of_update {status : ChannelStatus} (hstatus : status ≠ .enabled)
    (h : hasEnabledMultiKey keys (update statusList i (statusEntry status)) = true) :
    hasEnabledMultiKey keys statusList = true := by
  simp only [hasEnabledMultiKey, any_eq_true, mem_range, decide_eq_true_eq] at h ⊢
  obtain ⟨j, hj, henabled⟩ := h
  refine ⟨j, hj, ?_⟩
  by_cases hji : j = i
  · rw [hji, update_self, statusEntry, if_neg hstatus] at henabled
    exact absurd henabled hstatus
  · rwa [update_of_ne hji] at henabled

theorem statusAfter_agrees {status old : ChannelStatus} (hold : old = .enabled ↔ hasEnabledMultiKey keys statusList = true) :
    statusAfter keys (update statusList i (statusEntry status)) status old = .enabled ↔
      hasEnabledMultiKey keys (update statusList i (statusEntry status)) = true := by
  unfold statusAfter
  cases hany : hasEnabledMultiKey keys (update statusList i (statusEntry status)) with
  | false => simp
  | true =>
    by_cases hstatus : status = .enabled
    · simp [hstatus]
    · simp [hstatus, hold.mpr (hasEnabledMultiKey_of_update hstatus hany)]

theorem statusAfter_self {status : ChannelStatus} (hold : status = .enabled ↔ hasEnabledMultiKey keys statusList = true)
    (hstatus : status = .enabled ∨ status = .autoDisabled) : statusAfter keys statusList status status = status := by
  unfold statusAfter
  rcases hstatus with rfl | rfl
  · simp [hold.mp rfl]
  · have hnone : hasEnabledMultiKey keys statusList = false := by
      rw [← Bool.not_eq_true, ← hold]
      decide
    simp [hnone]

theorem position_unique (hcount : keys.count key = 1) {j : ℕ}
    (hi : keys[i]? = some key) (hj : keys[j]? = some key) : i = j := by
  obtain ⟨hi', hki⟩ := List.getElem?_eq_some_iff.mp hi
  obtain ⟨hj', hkj⟩ := List.getElem?_eq_some_iff.mp hj
  have hlt : ∀ {a b : ℕ} (ha : a < keys.length) (hb : b < keys.length), keys[a] = key → keys[b] = key → ¬ a < b := by
    intro a b ha hb hka hkb hab
    have hdup : List.Duplicate key keys :=
      List.duplicate_iff_exists_distinct_get.mpr ⟨⟨a, ha⟩, ⟨b, hb⟩, hab, hka.symm, hkb.symm⟩
    have htwo := List.duplicate_iff_two_le_count.mp hdup
    omega
  have h1 := hlt hi' hj' hki hkj
  have h2 := hlt hj' hi' hkj hki
  omega

section Update

variable {s : KeyState} (h : KeyInv s) {usingKey : String} {status : ChannelStatus} (reason : String) (now : ℤ)
include h

theorem updateChannelStatus_eq : updateChannelStatus s usingKey status reason now =
    { s with
      cached := handlerMultiKeyUpdate s.cached usingKey status reason now
      stored := if s.stored.status = status then s.stored
        else handlerMultiKeyUpdate s.stored usingKey status reason now } := by
  have hstored : s.stored.info.isMultiKey = true := h.copies.isMultiKey ▸ h.isMultiKey
  unfold updateChannelStatus
  simp [h.isMultiKey, hstored]

theorem copies_updateChannelStatus (hshort : s.stored.status = status →
      SameCore (handlerMultiKeyUpdate s.cached usingKey status reason now) s.cached) :
    SameCore (updateChannelStatus s usingKey status reason now).cached
      (updateChannelStatus s usingKey status reason now).stored := by
  rw [updateChannelStatus_eq h]
  by_cases hstatus : s.stored.status = status
  · simp only [if_pos hstatus]
    exact (hshort hstatus).trans h.copies
  · simp only [if_neg hstatus]
    exact handlerMultiKeyUpdate_congr h.copies ..

theorem inv_update_found (hfind : (getKeys s.cached.key).idxOf? usingKey = some i)
    (hok : respectsKeys s (.updateChannelStatus usingKey status reason now) = true) :
    KeyInv (keyStep s (.updateChannelStatus usingKey status reason now)) := by
  have hcore := handlerMultiKeyUpdate_found status reason now hfind
  simp only [respectsKeys, hfind, Bool.and_eq_true, Bool.or_eq_true, decide_eq_true_eq] at hok
  obtain ⟨honce, hshort⟩ := hok
  obtain ⟨hi, hkey, -⟩ := List.idxOf?_eq_some_iff.mp hfind
  have hposition : (getKeys s.cached.key)[i]? = some usingKey := List.getElem?_eq_some_iff.mpr ⟨hi, hkey⟩
  have hcached : (keyStep s (.updateChannelStatus usingKey status reason now)).cached =
      handlerMultiKeyUpdate s.cached usingKey status reason now := by
    simp only [keyStep, updateChannelStatus_eq h]
  refine ⟨?_, copies_updateChannelStatus h reason now fun hstatus => ?_, ?_, ?_⟩
  · rw [hcached, hcore.isMultiKey]
    exact h.isMultiKey
  · -- the stored channel is left alone, and the cached one does not change either
    obtain ⟨hkind, hentry⟩ := hshort.resolve_left (by simpa using hstatus)
    have hlist : update s.cached.info.multiKeyStatusList i (statusEntry status) =
        s.cached.info.multiKeyStatusList := update_eq_self_iff.mpr hentry.symm
    rw [hlist] at hcore
    have hold : s.cached.status = status := h.copies.status.trans hstatus
    have hagrees := h.agrees
    unfold KeyedChannel.Agrees at hagrees
    rw [hold] at hagrees
    have hafter := statusAfter_self hagrees hkind
    exact ⟨hcore.status.trans (by rw [hold]; exact hafter), hcore.key, hcore.isMultiKey, hcore.statusList⟩
  · rw [hcached, agrees_congr hcore]
    exact statusAfter_agrees h.agrees
  · intro j key hj hoff
    rw [hcached] at hj ⊢
    rw [hcore.key] at hj
    rw [getStatus_congr hcore]
    change update s.off usingKey (decide (status ≠ .enabled)) key = true at hoff
    change ((update s.cached.info.multiKeyStatusList i (statusEntry status)) j).getD .enabled ≠ .enabled
    by_cases hsame : key = usingKey
    · subst hsame
      rw [update_self, decide_eq_true_eq] at hoff
      rw [position_unique (honce.resolve_left hoff) hj hposition, update_self, statusEntry, if_neg hoff]
      exact hoff
    · rw [update_of_ne hsame] at hoff
      have hji : j ≠ i := by
        rintro rfl
        exact hsame (Option.some.inj (hj.symm.trans hposition))
      rw [update_of_ne hji]
      exact h.withheld j key hj hoff

theorem inv_update_missing (hfind : (getKeys s.cached.key).idxOf? usingKey = none)
    (hok : respectsKeys s (.updateChannelStatus usingKey status reason now) = true) :
    KeyInv (keyStep s (.updateChannelStatus usingKey status reason now)) := by
  have hhandler := handlerMultiKeyUpdate_missing status reason now hfind
  simp only [respectsKeys, hfind, Bool.and_eq_true, Bool.or_eq_true, decide_eq_true_eq] at hok
  have hcached : (keyStep s (.updateChannelStatus usingKey status reason now)).cached =
      handlerMultiKeyUpdate s.cached usingKey status reason now := by
    simp only [keyStep, updateChannelStatus_eq h]
  have hinfo : (handlerMultiKeyUpdate s.cached usingKey status reason now).info = s.cached.info ∧
      (handlerMultiKeyUpdate s.cached usingKey status reason now).key = s.cached.key := by
    rw [hhandler]
    split <;> exact ⟨rfl, rfl⟩
  refine ⟨?_, copies_updateChannelStatus h reason now fun hstatus => ?_, ?_, ?_⟩
  · rw [hcached, hinfo.1]
    exact h.isMultiKey
  · refine ⟨?_, hinfo.2, congrArg _ hinfo.1, congrArg _ hinfo.1⟩
    rw [hhandler]
    split
    · rfl
    · exact hstatus.symm.trans h.copies.status.symm
  · rw [hcached, hhandler]
    split
    · exact h.agrees
    · next hnot =>
      have hfits := hok.resolve_left (by simpa using hnot)
      unfold KeyedChannel.Agrees
      rw [← hfits]
      simp
  · intro j key hj hoff
    rw [hcached] at hj ⊢
    rw [hinfo.2] at hj
    rw [hinfo.1]
    change update s.off usingKey (decide (status ≠ .enabled)) key = true at hoff
    have hne : key ≠ usingKey := by
      rintro rfl
      exact idxOf?_eq_none_iff.mp hfind (mem_of_getElem? hj)
    rw [update_of_ne hne] at hoff
    exact h.withheld j key hj hoff

end Update

theorem keyStep_inv (s : KeyState) (call : KeyCall) (h : KeyInv s) (hok : respectsKeys s call = true) :
    KeyInv (keyStep s call) := by
  cases call with
  | getNextEnabledKey draw => exact inv_getNextEnabledKey h draw
  | updateChannelStatus usingKey status reason now =>
    cases hfind : (getKeys s.cached.key).idxOf? usingKey with
    | none => exact inv_update_missing h reason now hfind hok
    | some i => exact inv_update_found h reason now hfind hok

/-- From a multi-key channel whose status fits its keys, cached as stored, runs of calls that respect the keys keep all this.
-/
theorem disabled_key_stays_withheld {channel : KeyedChannel} (hmulti : channel.info.isMultiKey = true)
    (hagrees : channel.Agrees) (calls : List KeyCall)
    (hok : Along keyStep (fun s call => respectsKeys s call = true) ⟨channel, channel, fun _ => false⟩ calls) :
    KeysSound (run keyStep ⟨channel, channel, fun _ => false⟩ calls) := by
  have hstart : KeyInv ⟨channel, channel, fun _ => false⟩ :=
    ⟨hmulti, ⟨rfl, rfl, rfl, rfl⟩, hagrees, fun _ _ _ hoff => absurd hoff Bool.false_ne_true⟩
  exact (run_invariant keyStep_inv hstart hok).sound

def samplePair (key : String) : KeyedChannel where
  status := .enabled
  key := key
  info := ⟨true, 2, fun _ => none, fun _ => none, fun _ => none, 0, .polling⟩

def sampleCallsOfKeys : List KeyCall :=
  [.updateChannelStatus "a" .autoDisabled "quota" 1, .getNextEnabledKey 0,
    .updateChannelStatus "b" .autoDisabled "quota" 2, .updateChannelStatus "a" .enabled "" 3]

theorem disabled_key_stays_withheld_two_keys :
    KeysSound (run keyStep ⟨samplePair "a\nb", samplePair "a\nb", fun _ => false⟩ sampleCallsOfKeys) :=
  disabled_key_stays_withheld rfl (by decide +kernel) sampleCallsOfKeys (by decide +kernel)

/-- A key listed twice is handed out although disabled; one enabled again in an enabled channel stays disabled when stored.
-/
theorem disabled_key_handed_out_again : (getNextEnabledKey (keyStep ⟨samplePair "a\na", samplePair "a\na", fun _ => false⟩
        (.updateChannelStatus "a" .autoDisabled "quota" 1)).cached 0).1 = .ok ("a", 1) ∧
      (run keyStep ⟨samplePair "a\nb", samplePair "a\nb", fun _ => false⟩
        [.updateChannelStatus "a" .autoDisabled "quota" 1, .updateChannelStatus "a" .enabled "" 2]).cached.info.getStatus
          0 = .enabled ∧
      (run keyStep ⟨samplePair "a\nb", samplePair "a\nb", fun _ => false⟩
        [.updateChannelStatus "a" .autoDisabled "quota" 1, .updateChannelStatus "a" .enabled "" 2]).stored.info.getStatus
          0 = .autoDisabled := by
  refine ⟨?_, ?_, ?_⟩
  · rfl
  · decide +kernel
  · decide +kernel

end HotAI.Channels
