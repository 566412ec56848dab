import HotAI.Channels.MultiKey

/-! # Deleting keys of a channel (`controller/channel.go`)

`ManageMultiKeys` deletes one key or all that were disabled automatically. The others are joined with line breaks, and what
was noted about them moves to their new positions. -/
namespace HotAI.Channels
open HotAI.Lib HotAI.Routing Option List

/-! ## The loop over the keys -/

/-- `remainingKeys` and the three new maps. -/
structure Reindexed where
  remainingKeys : List String
  statusList : ℕ → Option ChannelStatus
  disabledTime : ℕ → Option ℤ
  disabledReason : ℕ → Option String

def Reindexed.empty : Reindexed := ⟨[], fun _ => none, fun _ => none, fun _ => none⟩

/-- A key that stays, with the entries it takes along. -/
structure Kept where
  key : String
  status : Option ChannelStatus
  disabledTime : Option ℤ
  disabledReason : Option String

def Reindexed.keep (r : Reindexed) (kept : Kept) : Reindexed where
  remainingKeys := r.remainingKeys ++ [kept.key]
  statusList := Function.update r.statusList r.remainingKeys.length kept.status
  disabledTime := Function.update r.disabledTime r.remainingKeys.length kept.disabledTime
  disabledReason := Function.update r.disabledReason r.remainingKeys.length kept.disabledReason

/-- The entries of the key at a position: a status unless that of an enabled key, its time and reason if `notes` says so. -/
def ChannelInfo.keptAt (info : ChannelInfo) (notes : ℕ → Bool) (key : String) (i : ℕ) : Kept where
  key := key
  status := (info.multiKeyStatusList i).filter fun status => status ≠ .enabled
  disabledTime := if notes i then info.multiKeyDisabledTime i else none
  disabledReason := if notes i then info.multiKeyDisabledReason i else none

def reindex (info : ChannelInfo) (drops notes : ℕ → Bool) : List String → ℕ → Reindexed → Reindexed
  | [], _, r => r
  | key :: keys, i, r =>
      if drops i then reindex info drops notes keys (i + 1) r
      else reindex info drops notes keys (i + 1) (r.keep (info.keptAt notes key i))

/-! ## Writing the channel back -/

/-- The keys as `Channel.Update` counts them: an empty array is taken as a line. -/
def countedKeys (key : String) : List String :=
  if key = "" then []
  else match jsonKeys key with
    | some (first :: rest) => first :: rest
    | _ => lineKeys key

/-- `Channel.Update` on a database row. `Updates` skips zero values, so an empty key text is not written. -/
def KeyedChannel.update (stored channel : KeyedChannel) : KeyedChannel :=
  let key := if channel.key = "" then stored.key else channel.key
  let size := (countedKeys key).length
  { channel with
    key
    info := if !channel.info.isMultiKey then channel.info else
      { channel.info with
        multiKeySize := size
        multiKeyStatusList := fun i => if i < size then channel.info.multiKeyStatusList i else none } }

def KeyedChannel.withKeys (channel : KeyedChannel) (r : Reindexed) : KeyedChannel :=
  { channel with
    key := "\n".intercalate r.remainingKeys
    info := { channel.info with
      multiKeySize := r.remainingKeys.length
      multiKeyStatusList := r.statusList
      multiKeyDisabledTime := r.disabledTime
      multiKeyDisabledReason := r.disabledReason } }

/-! ## The two requests -/

inductive DeleteRequest where
  | deleteKey (keyIndex : Option ℤ)
  | deleteDisabledKeys
deriving DecidableEq, Repr

def DeleteRequest.drops (request : DeleteRequest) (info : ChannelInfo) (i : ℕ) : Bool :=
  match request with
  | .deleteKey keyIndex => keyIndex = some (i : ℤ)
  | .deleteDisabledKeys => info.getStatus i = .autoDisabled

def DeleteRequest.notes (request : DeleteRequest) (info : ChannelInfo) (i : ℕ) : Bool :=
  match request with
  | .deleteKey _ => true
  | .deleteDisabledKeys => info.getStatus i ≠ .enabled

def DeleteRequest.remaining (request : DeleteRequest) (channel : KeyedChannel) : Reindexed :=
  reindex channel.info (request.drops channel.info) (request.notes channel.info) (getKeys channel.key) 0 .empty

def deleteKey (channel : KeyedChannel) (keyIndex : Option ℤ) : Except String KeyedChannel :=
  match keyIndex with
  | none => .error "未指定要删除的密钥索引"
  | some index =>
      if index < 0 ∨ channel.info.multiKeySize ≤ index then .error "密钥索引超出范围"
      else
        let r := (DeleteRequest.deleteKey keyIndex).remaining channel
        if r.remainingKeys = [] then .error "不能删除最后一个密钥"
        else .ok (channel.update (channel.withKeys r))

def deletedCount (channel : KeyedChannel) : ℕ :=
  (getKeys channel.key).zipIdx.countP fun p => DeleteRequest.deleteDisabledKeys.drops channel.info p.2

def deleteDisabledKeys (channel : KeyedChannel) : Except String KeyedChannel :=
  if deletedCount channel = 0 then .error "没有需要删除的自动禁用密钥"
  else .ok (channel.update (channel.withKeys (DeleteRequest.deleteDisabledKeys.remaining channel)))

/-- `ManageMultiKeys` for the two deletions: a failure's message, or the channel as stored afterwards. -/
def manageMultiKeys (channel : KeyedChannel) (request : DeleteRequest) : Except String KeyedChannel :=
  if !channel.info.isMultiKey then .error "该渠道不是多密钥模式"
  else match request with
    | .deleteKey keyIndex => deleteKey channel keyIndex
    | .deleteDisabledKeys => deleteDisabledKeys channel

/-! ## What a deletion should do -/

def DeleteRequest.survivors (request : DeleteRequest) (channel : KeyedChannel) : List (String × ℕ) :=
  (getKeys channel.key).zipIdx.filter fun p => !request.drops channel.info p.2

structure KeepsOthers (request : DeleteRequest) (before after : KeyedChannel) : Prop where
  keys : getKeys after.key = (request.survivors before).map Prod.fst
  status : ∀ j p, (request.survivors before)[j]? = some p → after.info.getStatus j = before.info.getStatus p.2
  disabledTime : ∀ j p, (request.survivors before)[j]? = some p →
    after.info.multiKeyDisabledTime j = before.info.multiKeyDisabledTime p.2
  disabledReason : ∀ j p, (request.survivors before)[j]? = some p →
    after.info.multiKeyDisabledReason j = before.info.multiKeyDisabledReason p.2
  usable : ∀ j key, (getKeys after.key)[j]? = some key → after.info.getStatus j = .enabled →
    ∃ p ∈ request.survivors before, p.1 = key ∧ before.info.getStatus p.2 = .enabled
  size : after.info.multiKeySize = (getKeys after.key).length

/-- The keys that stay can be joined and read again; or the only key is the empty one and the index is
that of no key. -/
def ReadsBack (request : DeleteRequest) (channel : KeyedChannel) : Prop :=
  Rejoins ((request.survivors channel).map Prod.fst) ∨
    (request.survivors channel).map Prod.fst = [""] ∧ getKeys channel.key = [""]

/-- A key whose disabled time and reason are not taken along has none. -/
def NoteFree (request : DeleteRequest) (channel : KeyedChannel) : Prop :=
  ∀ p ∈ request.survivors channel, request.notes channel.info p.2 = false →
    channel.info.multiKeyDisabledTime p.2 = none ∧ channel.info.multiKeyDisabledReason p.2 = none

/-! ## The loop -/

/-- The lists hold the kept keys in order, each map has their entries and no others. -/
structure Holds (r : Reindexed) (kept : List Kept) : Prop where
  keys : r.remainingKeys = kept.map Kept.key
  status : ∀ j, r.statusList j = kept[j]?.bind Kept.status
  disabledTime : ∀ j, r.disabledTime j = kept[j]?.bind Kept.disabledTime
  disabledReason : ∀ j, r.disabledReason j = kept[j]?.bind Kept.disabledReason

theorem getElem?_concat {α : Type*} (l : List α) (a : α) (j : ℕ) :
    (l ++ [a])[j]? = if j = l.length then some a else l[j]? := by
  rcases lt_trichotomy j l.length with hj | rfl | hj
  · rw [getElem?_append_left hj, if_neg hj.ne]
  · rw [getElem?_concat_length, if_pos rfl]
  · rw [if_neg hj.ne', getElem?_eq_none hj.le, getElem?_eq_none (by simp; omega)]

theorem update_concat {α β : Type*} {l : List α} {m : ℕ → Option β} {f : α → Option β}
    (h : ∀ j, m j = l[j]?.bind f) (a : α) (j : ℕ) :
    Function.update m l.length (f a) j = (l ++ [a])[j]?.bind f := by
  rw [getElem?_concat]
  by_cases hj : j = l.length
  · rw [hj, Function.update_self, if_pos rfl, bind_some]
  · rw [Function.update_of_ne hj, if_neg hj, h]

variable {kept : List Kept} {r : Reindexed}

theorem holds_keep (h : Holds r kept) (k : Kept) : Holds (r.keep k) (kept ++ [k]) := by
  have hlen : r.remainingKeys.length = kept.length := by rw [h.keys, length_map]
  unfold Reindexed.keep
  rw [hlen]
  refine ⟨?_, update_concat h.status k, update_concat h.disabledTime k, update_concat h.disabledReason k⟩
  rw [h.keys, map_append, map_singleton]

theorem holds_reindex (info : ChannelInfo) (drops notes : ℕ → Bool) (keys : List String) (i : ℕ) (h : Holds r kept) :
    Holds (reindex info drops notes keys i r)
      (kept ++ ((keys.zipIdx i).filter fun p => !drops p.2).map fun p => info.keptAt notes p.1 p.2) := by
  induction keys generalizing i r kept with
  | nil => simpa [reindex] using h
  | cons key keys ih =>
    rw [reindex, zipIdx_cons]
    by_cases hdrop : drops i = true
    · rw [if_pos hdrop, filter_cons_of_neg (by simp [hdrop])]
      exact ih (i + 1) h
    · rw [if_neg hdrop, filter_cons_of_pos (by simp [hdrop])]
      have hrest := ih (i + 1) (holds_keep h (info.keptAt notes key i))
      rwa [append_assoc] at hrest

theorem holds_remaining (request : DeleteRequest) (channel : KeyedChannel) :
    Holds (request.remaining channel) ((request.survivors channel).map fun p =>
      channel.info.keptAt (request.notes channel.info) p.1 p.2) := by
  have hempty : Holds .empty [] := ⟨rfl, fun _ => rfl, fun _ => rfl, fun _ => rfl⟩
  exact holds_reindex channel.info _ _ (getKeys channel.key) 0 hempty

theorem remainingKeys_eq (request : DeleteRequest) (channel : KeyedChannel) :
    (request.remaining channel).remainingKeys = (request.survivors channel).map Prod.fst := by
  rw [(holds_remaining request channel).keys, List.map_map]
  rfl

/-! ## The stored channel -/

theorem manageMultiKeys_ok {channel after : KeyedChannel} {request : DeleteRequest}
    (h : manageMultiKeys channel request = .ok after) :
    channel.info.isMultiKey = true ∧ getKeys channel.key ≠ [] ∧
      after = channel.update (channel.withKeys (request.remaining channel)) := by
  unfold manageMultiKeys at h
  split at h
  · cases h
  next hmulti =>
  refine ⟨by simpa using hmulti, ?_⟩
  split at h
  · unfold deleteKey at h
    split at h
    · cases h
    next index =>
    split at h
    · cases h
    dsimp only at h
    split at h
    · cases h
    next hsome =>
    cases h
    refine ⟨fun hnil => hsome ?_, rfl⟩
    rw [remainingKeys_eq, DeleteRequest.survivors, hnil]
    rfl
  · unfold deleteDisabledKeys at h
    split at h
    · cases h
    next hcount =>
    cases h
    refine ⟨fun hnil => hcount ?_, rfl⟩
    rw [deletedCount, hnil]
    rfl

theorem countedKeys_eq {key : String} (h : getKeys key ≠ []) : countedKeys key = getKeys key := by
  unfold countedKeys getKeys at *
  split at h
  · exact absurd rfl h
  next hkey =>
  cases hjson : jsonKeys key with
  | none => rw [getD_none]
  | some items =>
    rw [hjson] at h
    cases items with
    | nil => exact absurd rfl h
    | cons first rest => rfl

section Stored

variable (request : DeleteRequest) (channel : KeyedChannel)

def DeleteRequest.stored : KeyedChannel := channel.update (channel.withKeys (request.remaining channel))

theorem getKeys_stored_iff (hkeys : getKeys channel.key ≠ []) :
    getKeys (request.stored channel).key = (request.survivors channel).map Prod.fst ↔ ReadsBack request channel := by
  have hkey : (request.stored channel).key =
      if "\n".intercalate ((request.survivors channel).map Prod.fst) = "" then channel.key
      else "\n".intercalate ((request.survivors channel).map Prod.fst) := by
    rw [← remainingKeys_eq]
    rfl
  rw [hkey]
  unfold ReadsBack
  generalize (request.survivors channel).map Prod.fst = keys
  by_cases hnil : keys = []
  · -- nothing stays, and the old text is kept
    subst hnil
    have hleft : ¬ getKeys channel.key = [] := hkeys
    simp [Rejoins, hleft]
  · by_cases htext : "\n".intercalate keys = ""
    · have hempty := eq_of_intercalate_eq_empty hnil htext
      rw [hempty]
      simp [Rejoins]
    · rw [if_neg htext, getKeys_intercalate_iff hnil]
      refine ⟨.inl, fun h => h.resolve_right ?_⟩
      rintro ⟨rfl, -⟩
      exact htext rfl

theorem stored_size (hmulti : channel.info.isMultiKey = true) (hne : getKeys (request.stored channel).key ≠ []) :
    (request.stored channel).info.multiKeySize = (getKeys (request.stored channel).key).length := by
  rw [← countedKeys_eq hne]
  unfold DeleteRequest.stored KeyedChannel.update KeyedChannel.withKeys
  simp [hmulti]

theorem getD_filter_enabled (entry : Option ChannelStatus) :
    (entry.filter fun status => status ≠ .enabled).getD .enabled = entry.getD .enabled := by
  cases entry with
  | none => rfl
  | some status => by_cases h : status = .enabled <;> simp [Option.filter, h]

section Survivor

variable {request channel} {j : ℕ} {p : String × ℕ} (hp : (request.survivors channel)[j]? = some p)
include hp

theorem kept_getElem? : ((request.survivors channel).map fun p =>
    channel.info.keptAt (request.notes channel.info) p.1 p.2)[j]? =
      some (channel.info.keptAt (request.notes channel.info) p.1 p.2) := by
  rw [getElem?_map, hp, map_some]

theorem stored_getStatus (hmulti : channel.info.isMultiKey = true)
    (hkeys : getKeys (request.stored channel).key = (request.survivors channel).map Prod.fst) :
    (request.stored channel).info.getStatus j = channel.info.getStatus p.2 := by
  obtain ⟨hj, -⟩ := List.getElem?_eq_some_iff.mp hp
  have hlen : (getKeys (request.stored channel).key).length = (request.survivors channel).length := by
    rw [hkeys, List.length_map]
  have hcounted : countedKeys (request.stored channel).key = getKeys (request.stored channel).key :=
    countedKeys_eq (List.ne_nil_of_length_pos (by omega))
  have hentry : (request.stored channel).info.multiKeyStatusList j =
      if j < (countedKeys (request.stored channel).key).length then (request.remaining channel).statusList j
      else none := by
    unfold DeleteRequest.stored KeyedChannel.update KeyedChannel.withKeys
    simp [hmulti]
  rw [hcounted, hlen, if_pos hj, (holds_remaining request channel).status, kept_getElem? hp] at hentry
  unfold ChannelInfo.getStatus
  rw [hentry]
  exact getD_filter_enabled (channel.info.multiKeyStatusList p.2)

theorem stored_notes : (request.stored channel).info.multiKeyDisabledTime j =
        (if request.notes channel.info p.2 then channel.info.multiKeyDisabledTime p.2 else none) ∧
      (request.stored channel).info.multiKeyDisabledReason j =
        if request.notes channel.info p.2 then channel.info.multiKeyDisabledReason p.2 else none := by
  have hsame : (request.stored channel).info.multiKeyDisabledTime j = (request.remaining channel).disabledTime j ∧
      (request.stored channel).info.multiKeyDisabledReason j = (request.remaining channel).disabledReason j := by
    unfold DeleteRequest.stored KeyedChannel.update
    dsimp only
    split <;> exact ⟨rfl, rfl⟩
  obtain ⟨-, -, htime, hreason⟩ := holds_remaining request channel
  rw [hsame.1, hsame.2, htime, hreason, kept_getElem? hp]
  exact ⟨rfl, rfl⟩

end Survivor
end Stored

theorem keepsOthers_of_readsBack {request : DeleteRequest} {channel : KeyedChannel} (hmulti : channel.info.isMultiKey = true)
    (hkeys : getKeys (request.stored channel).key = (request.survivors channel).map Prod.fst)
    (hsome : getKeys (request.stored channel).key ≠ []) (hnotes : NoteFree request channel) :
    KeepsOthers request channel (request.stored channel) where
  keys := hkeys
  status _ _ hp := stored_getStatus hp hmulti hkeys
  disabledTime j p hp := by
    rw [(stored_notes hp).1]
    cases hnote : request.notes channel.info p.2 with
    | true => rfl
    | false => exact (hnotes p (mem_of_getElem? hp) hnote).1.symm
  disabledReason j p hp := by
    rw [(stored_notes hp).2]
    cases hnote : request.notes channel.info p.2 with
    | true => rfl
    | false => exact (hnotes p (mem_of_getElem? hp) hnote).2.symm
  usable j key hkey henabled := by
    rw [hkeys, getElem?_map] at hkey
    obtain ⟨p, hp, rfl⟩ := map_eq_some_iff.mp hkey
    refine ⟨p, mem_of_getElem? hp, rfl, ?_⟩
    rw [← stored_getStatus hp hmulti hkeys]
    exact henabled
  size := stored_size request channel hmulti hsome

/-- The other keys stay intact exactly if they can be read back and nothing is noted about a key whose notes are dropped. -/
theorem delete_keeps_other_keys_iff {channel after : KeyedChannel} {request : DeleteRequest}
    (h : manageMultiKeys channel request = .ok after) :
    KeepsOthers request channel after ↔ ReadsBack request channel ∧ NoteFree request channel := by
  obtain ⟨hmulti, hkeys, rfl⟩ := manageMultiKeys_ok h
  constructor
  · intro hkeep
    refine ⟨(getKeys_stored_iff request channel hkeys).mp hkeep.keys, ?_⟩
    intro p hp hnote
    obtain ⟨j, hj⟩ := mem_iff_getElem?.mp hp
    have htime := hkeep.disabledTime j p hj
    have hreason := hkeep.disabledReason j p hj
    change (request.stored channel).info.multiKeyDisabledTime j = _ at htime
    change (request.stored channel).info.multiKeyDisabledReason j = _ at hreason
    rw [(stored_notes hj).1, hnote] at htime
    rw [(stored_notes hj).2, hnote] at hreason
    exact ⟨htime.symm, hreason.symm⟩
  · rintro ⟨hback, hnotes⟩
    have hread := (getKeys_stored_iff request channel hkeys).mpr hback
    have hsome : getKeys (request.stored channel).key ≠ [] := by
      rw [hread]
      rcases hback with hjoin | ⟨hone, -⟩
      · exact hjoin.1
      · rw [hone]
        exact cons_ne_nil _ _
    exact keepsOthers_of_readsBack hmulti hread hsome hnotes

def sampleKeys (key : String) (size : ℤ) (status : List (ℕ × ChannelStatus)) : KeyedChannel where
  status := .enabled
  key := key
  info := ⟨true, size, fun i => status.lookup i, fun _ => none, fun _ => none, 0, .random⟩

theorem delete_keeps_other_keys_middle : KeepsOthers (.deleteKey (some 1)) (sampleKeys "a\nb\nc" 3 [(2, .manuallyDisabled)])
      ((DeleteRequest.deleteKey (some 1)).stored (sampleKeys "a\nb\nc" 3 [(2, .manuallyDisabled)])) :=
  (delete_keeps_other_keys_iff rfl).mpr ⟨.inl (by decide +kernel), fun _ _ _ => ⟨rfl, rfl⟩⟩

/-- All keys are disabled and deleted. The empty text is not written, the states are gone: both keys are there, enabled. -/
theorem deleted_keys_come_back : DeleteRequest.deleteDisabledKeys.survivors
        (sampleKeys "a\nb" 2 [(0, .autoDisabled), (1, .autoDisabled)]) = [] ∧
      (manageMultiKeys (sampleKeys "a\nb" 2 [(0, .autoDisabled), (1, .autoDisabled)]) .deleteDisabledKeys).map
        (fun after => (getKeys after.key, after.info.multiKeySize, [0, 1].map after.info.getStatus)) =
        .ok (["a", "b"], 2, [.enabled, .enabled]) := by
  constructor
  · decide +kernel
  · rfl

end HotAI.Channels
