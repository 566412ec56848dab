import HotAI.Channels.KeyStatus

/-! # Polling shares the keys of a channel

The keys of a channel in polling mode are tried in a ring that begins at the polling index, and a call turns the ring so
that it begins behind the key that was handed out. -/
namespace HotAI.Channels
open HotAI.Lib HotAI.Routing List

/-- A call on the cached channel, after keys were enabled and disabled. -/
def pollCached (draw : ℕ) (channel : KeyedChannel) (statuses : ℕ → Option ChannelStatus) :
    Except String (String × ℕ) × KeyedChannel :=
  getNextEnabledKey { channel with info.multiKeyStatusList := statuses } draw

/-- What consecutive calls on the cached channel return. -/
def pollRun (draw : ℕ) (channel : KeyedChannel) : List (ℕ → Option ChannelStatus) → List (Except String (String × ℕ))
  | [] => []
  | statuses :: rest =>
      (pollCached draw channel statuses).1 :: pollRun draw (pollCached draw channel statuses).2 rest

structure Polls (channel : KeyedChannel) : Prop where
  isMultiKey : channel.info.isMultiKey = true
  polling : channel.info.multiKeyMode = .polling

def enabledIn (statuses : ℕ → Option ChannelStatus) (i : ℕ) : Bool := (statuses i).getD .enabled = .enabled

/-! ## One call -/

def KeyedChannel.ring (channel : KeyedChannel) : List ℕ :=
  pollingOrder channel.info.multiKeyPollingIndex (getKeys channel.key).length

theorem rotate_range (size k : ℕ) : (List.range size).map (fun i => (k + i) % size) = (List.range size).rotate k := by
  refine ext_getElem (by simp) fun i _ _ => ?_
  simp [getElem_rotate, Nat.add_comm]

theorem pollingOrder_natCast {k size : ℕ} (h : k < size) : pollingOrder k size = (List.range size).rotate k := by
  rw [pollingOrder, if_neg (by omega), Int.toNat_natCast, rotate_range]

theorem exists_pollingOrder (start : ℤ) (size : ℕ) : ∃ k, pollingOrder start size = (List.range size).rotate k :=
  ⟨_, rotate_range ..⟩

variable {draw : ℕ} {channel : KeyedChannel} {statuses : ℕ → Option ChannelStatus}

theorem mem_ring {i : ℕ} : i ∈ channel.ring ↔ i < (getKeys channel.key).length := by
  obtain ⟨k, hk⟩ := exists_pollingOrder channel.info.multiKeyPollingIndex (getKeys channel.key).length
  rw [KeyedChannel.ring, hk, mem_rotate, mem_range]

/-- The ring after the key `idx` was handed out. -/
theorem ring_next {before after : List ℕ} {idx : ℕ} (hring : channel.ring = before ++ idx :: after) :
    pollingOrder ((idx + 1) % (getKeys channel.key).length : ℕ) (getKeys channel.key).length =
      after ++ (before ++ [idx]) := by
  have hidx : idx < (getKeys channel.key).length := mem_ring.mp (by simp [hring])
  have hlt := Nat.mod_lt (idx + 1) (Nat.zero_lt_of_lt hidx)
  obtain ⟨start, hstart⟩ := exists_pollingOrder channel.info.multiKeyPollingIndex (getKeys channel.key).length
  rw [KeyedChannel.ring, hstart] at hring
  rw [pollingOrder_natCast hlt]
  generalize (getKeys channel.key).length = n at *
  have hget : (before.length + start) % n = idx := by
    have helem := congrArg (·[before.length]?) hring
    have hbefore : before.length < n := by
      have hlength := congrArg length hring
      simp at hlength
      omega
    simpa [getElem?_rotate, hbefore, Nat.mod_lt _ (Nat.zero_lt_of_lt hidx)] using helem
  calc (range n).rotate ((idx + 1) % n)
      = ((range n).rotate start).rotate (before.length + 1) := by
        rw [rotate_rotate, ← rotate_mod, ← rotate_mod _ (_ + _), length_range, Nat.mod_mod, ← hget,
          Nat.mod_add_mod]
        congr 2
        omega
    _ = after ++ (before ++ [idx]) := by
        have hlength : (before ++ [idx]).length = before.length + 1 := by simp
        rw [hring, append_cons, ← hlength, rotate_append_length_eq]

theorem getNextEnabledKey_polling (h : Polls channel) {idx : ℕ}
    (hfind : channel.ring.find? (fun i => channel.info.getStatus i = .enabled) = some idx) :
    getNextEnabledKey channel draw = (.ok ((getKeys channel.key).getD idx "", idx),
      { channel with info.multiKeyPollingIndex := ((idx + 1) % (getKeys channel.key).length : ℕ) }) := by
  have hlt := mem_ring.mp (mem_of_find?_eq_some hfind)
  obtain ⟨first, rest, hcons⟩ : ∃ first rest, enabledIdx (getKeys channel.key) channel.info = first :: rest :=
    exists_cons_of_ne_nil (ne_nil_of_mem (mem_filter.mpr ⟨mem_range.mpr hlt, by simpa using find?_some hfind⟩))
  rw [KeyedChannel.ring] at hfind
  simp only [getNextEnabledKey, h.isMultiKey, h.polling, Bool.not_true, Bool.false_eq_true, if_false,
    ne_nil_of_length_pos (Nat.zero_lt_of_lt hlt), hcons, hfind]

/-- The first enabled key of the ring is handed out. -/
theorem pollCached_spec (draw : ℕ) (h : Polls channel) {i : ℕ} (hi : i ∈ channel.ring) (hen : enabledIn statuses i = true) :
    ∃ before idx after, channel.ring = before ++ idx :: after ∧ enabledIn statuses idx = true ∧
      (∀ j ∈ before, enabledIn statuses j = false) ∧
      (pollCached draw channel statuses).1 = .ok ((getKeys channel.key).getD idx "", idx) ∧
      Polls (pollCached draw channel statuses).2 ∧ (pollCached draw channel statuses).2.key = channel.key ∧
      (pollCached draw channel statuses).2.ring = after ++ (before ++ [idx]) := by
  obtain ⟨idx, hfind⟩ := Option.isSome_iff_exists.mp (find?_isSome.mpr ⟨i, hi, hen⟩)
  obtain ⟨hidx, before, after, hring, hbefore⟩ := find?_eq_some_iff_append.mp hfind
  have hcall : pollCached draw channel statuses = _ :=
    @getNextEnabledKey_polling draw { channel with info.multiKeyStatusList := statuses } ⟨h.isMultiKey, h.polling⟩ idx hfind
  refine ⟨before, idx, after, hring, hidx, fun j hj => by simpa using hbefore j hj, ?_⟩
  rw [hcall]
  exact ⟨rfl, ⟨h.isMultiKey, h.polling⟩, rfl, ring_next hring⟩

/-! ## Consecutive calls -/

theorem pollRun_fixed (h : Polls channel) (k : ℕ) (hk : k ≤ (channel.ring.filter (enabledIn statuses)).length) :
    pollRun draw channel (List.replicate k statuses) = ((channel.ring.filter (enabledIn statuses)).take k).map fun idx =>
        .ok ((getKeys channel.key).getD idx "", idx) := by
  induction k generalizing channel with
  | zero => rfl
  | succ k ih =>
    obtain ⟨i, hi⟩ := exists_mem_of_length_pos (Nat.lt_of_lt_of_le (Nat.succ_pos k) hk)
    obtain ⟨hi, hen⟩ := mem_filter.mp hi
    obtain ⟨before, idx, after, hring, hidx, hbefore, hfirst, hpolls, hkey, hnext⟩ := pollCached_spec draw h hi hen
    have hnone : before.filter (enabledIn statuses) = [] :=
      filter_eq_nil_iff.mpr fun j hj => by simp [hbefore j hj]
    have hfilter : channel.ring.filter (enabledIn statuses) = idx :: after.filter (enabledIn statuses) := by
      simp [hring, hnone, hidx]
    have hfilter' : (pollCached draw channel statuses).2.ring.filter (enabledIn statuses) =
        after.filter (enabledIn statuses) ++ [idx] := by
      simp [hnext, hnone, hidx]
    rw [hfilter, length_cons] at hk
    rw [replicate_succ, pollRun, hfirst, ih hpolls (by rw [hfilter']; simp; omega), hfilter', hkey, hfilter,
      take_succ_cons, map_cons, take_append_of_le_length (by omega)]

theorem pollRun_returns (h : Polls channel) {i t : ℕ} {calls : List (ℕ → Option ChannelStatus)}
    (hi : channel.ring[t]? = some i) (ht : t < calls.length) (hen : ∀ statuses ∈ calls, enabledIn statuses i = true) :
    .ok ((getKeys channel.key).getD i "", i) ∈ pollRun draw channel calls := by
  induction calls generalizing channel t with
  | nil => simp at ht
  | cons statuses rest ih =>
    rw [List.forall_mem_cons] at hen
    obtain ⟨before, idx, after, hring, hidx, hbefore, hfirst, hpolls, hkey, hnext⟩ :=
      pollCached_spec draw h (List.mem_of_getElem? hi) hen.1
    rw [pollRun, hfirst]
    by_cases heq : idx = i
    · simp [heq]
    -- the key is not among those passed over, so it is behind the one that was found
    rw [hring, List.getElem?_append] at hi
    split_ifs at hi with hlt
    · simp [hbefore i (List.mem_of_getElem? hi)] at hen
    obtain ⟨u, hu⟩ : ∃ u, t = before.length + (u + 1) := by
      refine ⟨t - before.length - 1, ?_⟩
      have hne : t ≠ before.length := by
        rintro rfl
        simp [heq] at hi
      omega
    have hafter : after[u]? = some i := by simpa [hu] using hi
    have hring' : (pollCached draw channel statuses).2.ring[u]? = some i := by
      rw [hnext, List.getElem?_append_left (List.getElem?_eq_some_iff.mp hafter).1, hafter]
    rw [List.length_cons] at ht
    exact List.mem_cons_of_mem _ (hkey ▸ ih hpolls hring' (by omega) hen.2)

theorem exists_filter_rotate {α : Type*} (p : α → Bool) (l : List α) (k : ℕ) :
    ∃ m, (l.rotate k).filter p = (l.filter p).rotate m := by
  have hsplit : l.filter p = (l.take (k % l.length)).filter p ++ (l.drop (k % l.length)).filter p := by
    rw [← filter_append, take_append_drop]
  refine ⟨((l.take (k % l.length)).filter p).length, ?_⟩
  rw [hsplit, rotate_append_length_eq, rotate_eq_drop_append_take_mod, filter_append]

/-- With fixed states each enabled key comes once in as many calls as there are such keys, in index order; a key that stays
enabled comes within as many calls as there are keys. -/
theorem polling_shares_keys (draw : ℕ) {channel : KeyedChannel} (h : Polls channel) :
    let keys := getKeys channel.key
    let enabled := enabledIdx keys channel.info
    (∃ m, pollRun draw channel (List.replicate enabled.length channel.info.multiKeyStatusList) =
      (enabled.rotate m).map fun idx => .ok (keys.getD idx "", idx)) ∧
    ∀ calls : List (ℕ → Option ChannelStatus), calls.length = keys.length → ∀ i < keys.length,
      (∀ statuses ∈ calls, enabledIn statuses i = true) →
        .ok (keys.getD i "", i) ∈ pollRun draw channel calls := by
  intro keys enabled
  constructor
  · obtain ⟨m, hm⟩ : ∃ m, channel.ring.filter (enabledIn channel.info.multiKeyStatusList) = enabled.rotate m := by
      obtain ⟨k, hk⟩ := exists_pollingOrder channel.info.multiKeyPollingIndex keys.length
      rw [KeyedChannel.ring, hk]
      exact exists_filter_rotate ..
    refine ⟨m, ?_⟩
    rw [pollRun_fixed h _ (by rw [hm, List.length_rotate]), hm, List.take_of_length_le (by rw [List.length_rotate])]
  · intro calls hcalls i hi hen
    obtain ⟨t, ht⟩ := List.mem_iff_getElem?.mp (mem_ring.mpr hi)
    have hlength : channel.ring.length = keys.length := by simp [KeyedChannel.ring, pollingOrder, keys]
    have hlt := (List.getElem?_eq_some_iff.mp ht).1
    exact pollRun_returns h ht (by omega) hen

def threeKeys : KeyedChannel where
  status := .enabled
  key := "a\nb\nc"
  info := ⟨true, 3, fun i => if i = 1 then some .manuallyDisabled else none, fun _ => none, fun _ => none, -7, .polling⟩

theorem polling_of_three_keys : ∃ m, pollRun 0 threeKeys
    (List.replicate (enabledIdx (getKeys threeKeys.key) threeKeys.info).length threeKeys.info.multiKeyStatusList) =
      ((enabledIdx (getKeys threeKeys.key) threeKeys.info).rotate m).map fun idx =>
        .ok ((getKeys threeKeys.key).getD idx "", idx) :=
  (polling_shares_keys 0 ⟨rfl, rfl⟩).1

end HotAI.Channels
