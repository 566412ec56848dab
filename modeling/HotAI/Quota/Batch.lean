import HotAI.Lib.Threads
import HotAI.Billing.Store

/-! # Batched quota updates

With `BatchUpdateEnabled`, `addNewRecord` sums a change of a quota column up in one of five stores, and `batchUpdate` takes the
stores away one by one and writes what it found. -/
namespace HotAI.Quota
open HotAI.Lib List

/-! ## The quota columns -/

structure UserRow where
  quota : ℤ
  usedQuota : ℤ
  requestCount : ℤ
deriving DecidableEq, Repr

structure TokenRow where
  remainQuota : ℤ
  usedQuota : ℤ
deriving DecidableEq, Repr

structure ChannelRow where
  usedQuota : ℤ
deriving DecidableEq, Repr

structure Columns where
  users : ℤ → Option UserRow
  tokens : ℤ → Option TokenRow
  channels : ℤ → Option ChannelRow

/-- `UPDATE … WHERE id = ?`: nothing happens if there is no such row. -/
def updateAt {ρ : Type} (rows : ℤ → Option ρ) (id : ℤ) (f : ρ → ρ) : ℤ → Option ρ :=
  fun i => if i = id then (rows i).map f else rows i

namespace Columns

/-! The unexported functions of `model/user.go` and `model/token.go`. -/

def increaseUserQuota (db : Columns) (id quota : ℤ) : Columns :=
  { db with users := updateAt db.users id fun row => { row with quota := row.quota + quota } }

def decreaseUserQuota (db : Columns) (id quota : ℤ) : Columns :=
  { db with users := updateAt db.users id fun row => { row with quota := row.quota - quota } }

def increaseTokenQuota (db : Columns) (id quota : ℤ) : Columns :=
  { db with tokens := updateAt db.tokens id fun row =>
      ⟨row.remainQuota + quota, row.usedQuota - quota⟩ }

def decreaseTokenQuota (db : Columns) (id quota : ℤ) : Columns :=
  { db with tokens := updateAt db.tokens id fun row =>
      ⟨row.remainQuota - quota, row.usedQuota + quota⟩ }

def updateUserUsedQuotaAndRequestCount (db : Columns) (id quota count : ℤ) : Columns :=
  { db with users := updateAt db.users id fun row =>
      { row with usedQuota := row.usedQuota + quota, requestCount := row.requestCount + count } }

def updateUserQuotaUsedQuotaAndRequestCount (db : Columns) (id quota usedQuota requestCount : ℤ) : Columns :=
  if quota = 0 ∧ usedQuota = 0 ∧ requestCount = 0 then db
  else { db with users := updateAt db.users id fun row =>
      ⟨row.quota + quota, row.usedQuota + usedQuota, row.requestCount + requestCount⟩ }

def updateChannelUsedQuota (db : Columns) (id quota : ℤ) : Columns :=
  { db with channels := updateAt db.channels id fun row => ⟨row.usedQuota + quota⟩ }

end Columns

/-- The rows of the user and the token that `Billing.Store` is about. -/
structure Columns.Shows (db : Columns) (userId tokenId : ℤ) (store : Billing.Store) : Prop where
  user : (db.users userId).map UserRow.quota = some store.userQuota
  token : db.tokens tokenId = some ⟨store.tokenRemainQuota, store.tokenUsedQuota⟩

/-- The exported functions of `Billing.Store` check the amount and write these columns. -/
theorem Columns.Shows.written {db : Columns} {userId tokenId : ℤ} {store store' : Billing.Store} (h : db.Shows userId tokenId store)
    (quota : ℤ) :
    (Billing.increaseUserQuota store quota = .ok store' → (db.increaseUserQuota userId quota).Shows userId tokenId store') ∧
      (Billing.decreaseUserQuota store quota = .ok store' → (db.decreaseUserQuota userId quota).Shows userId tokenId store') ∧
      (Billing.increaseTokenQuota store quota = .ok store' → (db.increaseTokenQuota tokenId quota).Shows userId tokenId store') ∧
      (Billing.decreaseTokenQuota store quota = .ok store' → (db.decreaseTokenQuota tokenId quota).Shows userId tokenId store') := by
  obtain ⟨huser, htoken⟩ := h
  obtain ⟨row, hrow, hquota⟩ := Option.map_eq_some_iff.mp huser
  refine ⟨fun hok => ?_, fun hok => ?_, fun hok => ?_, fun hok => ?_⟩
  · unfold Billing.increaseUserQuota at hok
    split at hok <;> cases hok
    exact ⟨by simp [increaseUserQuota, updateAt, hrow, hquota], htoken⟩
  · unfold Billing.decreaseUserQuota at hok
    split at hok <;> cases hok
    exact ⟨by simp [decreaseUserQuota, updateAt, hrow, hquota], htoken⟩
  · unfold Billing.increaseTokenQuota at hok
    split at hok <;> cases hok
    exact ⟨huser, by simp [increaseTokenQuota, updateAt, htoken]⟩
  · unfold Billing.decreaseTokenQuota at hok
    split at hok <;> cases hok
    exact ⟨huser, by simp [decreaseTokenQuota, updateAt, htoken]⟩

/-! ## The stores and the flush -/

inductive BatchType where
  | userQuota
  | tokenQuota
  | usedQuota
  | channelUsedQuota
  | requestCount
deriving DecidableEq, Repr

def batchTypes : List BatchType := [.userQuota, .tokenQuota, .usedQuota, .channelUsedQuota, .requestCount]

/-- One of `batchUpdateStores`: the summed changes by id. -/
abbrev BatchStore := Table (ℤ × ℤ) Prod.fst

def BatchStore.amount (store : BatchStore) (id : ℤ) : ℤ := ((store.get id).map Prod.snd).getD 0

def BatchStore.record (store : BatchStore) (id value : ℤ) : BatchStore :=
  match store.get id with
  | none => store.add (id, value)
  | some entry => store.put (id, entry.2 + value)

inductive Update where
  | token (id value : ℤ)
  | channel (id value : ℤ)
  | user (id quota usedQuota requestCount : ℤ)
deriving DecidableEq, Repr

def Update.apply (db : Columns) : Update → Columns
  | .token id value => db.increaseTokenQuota id value
  | .channel id value => db.updateChannelUsedQuota id value
  | .user id quota usedQuota requestCount =>
      db.updateUserQuotaUsedQuotaAndRequestCount id quota usedQuota requestCount

def userIDs (taken : BatchType → BatchStore) : Table ℤ id where
  rows := (((taken .userQuota).rows ++ (taken .usedQuota).rows ++ (taken .requestCount).rows).map Prod.fst).dedup
  unique := by
    rw [List.map_id]
    exact List.nodup_dedup _

def userUpdate (taken : BatchType → BatchStore) (id : ℤ) : Update :=
  .user id ((taken .userQuota).amount id) ((taken .usedQuota).amount id) ((taken .requestCount).amount id)

def updatesOf (taken : BatchType → BatchStore) : List Update :=
  (taken .tokenQuota).rows.map (fun entry => .token entry.1 entry.2) ++
    ((taken .channelUsedQuota).rows.map (fun entry => .channel entry.1 entry.2) ++
      (userIDs taken).rows.map (userUpdate taken))

/-- `batchUpdate`'s loop that swaps the stores: the types to come and what was taken of the others. -/
structure Swap where
  left : List BatchType
  taken : BatchType → BatchStore
  nodup : left.Nodup
  fresh : ∀ t ∈ left, taken t = Table.empty

def Swap.start : Swap := ⟨batchTypes, fun _ => Table.empty, by decide, fun _ _ => rfl⟩

theorem fresh_of_cons {t : BatchType} {left : List BatchType} {taken : BatchType → BatchStore}
    (nodup : (t :: left).Nodup) (fresh : ∀ u ∈ t :: left, taken u = Table.empty) (store : BatchStore) :
    ∀ u ∈ left, Function.update taken t store u = Table.empty := by
  intro u hu
  have hne : u ≠ t := fun h => (nodup_cons.mp nodup).1 (h ▸ hu)
  rw [Function.update_of_ne hne]
  exact fresh u (mem_cons_of_mem t hu)

/-- Where the loop of `InitBatchUpdater` is in `batchUpdate`. -/
inductive Flusher where
  | idle
  | checking (left : List BatchType)
  | swapping (swap : Swap)
  | applying (updates : List Update)

structure Batched where
  db : Columns
  stores : BatchType → BatchStore
  flusher : Flusher

def Batched.start (db : Columns) : Batched := ⟨db, fun _ => Table.empty, .idle⟩

def Batched.addNewRecord (b : Batched) (t : BatchType) (id value : ℤ) : Batched :=
  { b with stores := Function.update b.stores t ((b.stores t).record id value) }

/-- The next step of `batchUpdate`. Go leaves the order of a map open; `pick` is the next update. -/
def batchUpdateStep (b : Batched) (pick : ℕ) : Batched :=
  match b.flusher with
  | .idle => { b with flusher := .checking batchTypes }
  | .checking [] => { b with flusher := .idle }
  | .checking (t :: left) =>
      if (b.stores t).rows = [] then { b with flusher := .checking left }
      else { b with flusher := .swapping .start }
  | .swapping ⟨[], taken, _, _⟩ => { b with flusher := .applying (updatesOf taken) }
  | .swapping ⟨t :: left, taken, nodup, fresh⟩ =>
      { b with
        stores := Function.update b.stores t Table.empty
        flusher := .swapping ⟨left, Function.update taken t (b.stores t), nodup.of_cons,
          fresh_of_cons nodup fresh _⟩ }
  | .applying [] => { b with flusher := .idle }
  | .applying (first :: rest) =>
      match (first :: rest)[pick]? with
      | none => b
      | some update =>
          { b with db := update.apply b.db, flusher := .applying ((first :: rest).eraseIdx pick) }

/-! ## The two modes

`UpdateUserUsedQuotaAndRequestCount` makes two records, so it is two steps. -/

inductive QuotaStep where
  | increaseUserQuota (id quota : ℤ) (db : Bool)
  | decreaseUserQuota (id quota : ℤ) (db : Bool)
  | increaseTokenQuota (id quota : ℤ)
  | decreaseTokenQuota (id quota : ℤ)
  | addUsedQuota (id quota : ℤ)
  | addRequestCount (id : ℤ)
  | updateChannelUsedQuota (id quota : ℤ)
  | flush (pick : ℕ)
deriving DecidableEq, Repr

def batchedStep (b : Batched) : QuotaStep → Batched
  | .increaseUserQuota id quota db =>
      if quota < 0 then b
      else if db then { b with db := b.db.increaseUserQuota id quota }
      else b.addNewRecord .userQuota id quota
  | .decreaseUserQuota id quota db =>
      if quota < 0 then b
      else if db then { b with db := b.db.decreaseUserQuota id quota }
      else b.addNewRecord .userQuota id (-quota)
  | .increaseTokenQuota id quota => if quota < 0 then b else b.addNewRecord .tokenQuota id quota
  | .decreaseTokenQuota id quota => if quota < 0 then b else b.addNewRecord .tokenQuota id (-quota)
  | .addUsedQuota id quota => b.addNewRecord .usedQuota id quota
  | .addRequestCount id => b.addNewRecord .requestCount id 1
  | .updateChannelUsedQuota id quota => b.addNewRecord .channelUsedQuota id quota
  | .flush pick => batchUpdateStep b pick

def directStep (db : Columns) : QuotaStep → Columns
  | .increaseUserQuota id quota _ => if quota < 0 then db else db.increaseUserQuota id quota
  | .decreaseUserQuota id quota _ => if quota < 0 then db else db.decreaseUserQuota id quota
  | .increaseTokenQuota id quota => if quota < 0 then db else db.increaseTokenQuota id quota
  | .decreaseTokenQuota id quota => if quota < 0 then db else db.decreaseTokenQuota id quota
  | .addUsedQuota id quota => db.updateUserUsedQuotaAndRequestCount id quota 0
  | .addRequestCount id => db.updateUserUsedQuotaAndRequestCount id 0 1
  | .updateChannelUsedQuota id quota => db.updateChannelUsedQuota id quota
  | .flush _ => db

/-! ## What is still to be written -/

def single (t : BatchType) (id value : ℤ) : BatchType → ℤ → ℤ :=
  fun u i => if u = t ∧ i = id then value else 0

def Update.amount : Update → BatchType → ℤ → ℤ
  | .token id value => single .tokenQuota id value
  | .channel id value => single .channelUsedQuota id value
  | .user id quota usedQuota requestCount =>
      single .userQuota id quota + single .usedQuota id usedQuota + single .requestCount id requestCount

def Flusher.pending : Flusher → BatchType → ℤ → ℤ
  | .idle, _, _ => 0
  | .checking _, _, _ => 0
  | .swapping swap, t, id => (swap.taken t).amount id
  | .applying updates, t, id => total (fun update => update.amount t id) updates

def Batched.pending (b : Batched) (t : BatchType) (id : ℤ) : ℤ :=
  (b.stores t).amount id + b.flusher.pending t id

/-- The columns with pending amounts added. A token's amount moves between its two columns. -/
def Columns.plus (db : Columns) (pending : BatchType → ℤ → ℤ) : Columns where
  users id := (db.users id).map fun row =>
    ⟨row.quota + pending .userQuota id, row.usedQuota + pending .usedQuota id,
      row.requestCount + pending .requestCount id⟩
  tokens id := (db.tokens id).map fun row =>
    ⟨row.remainQuota + pending .tokenQuota id, row.usedQuota - pending .tokenQuota id⟩
  channels id := (db.channels id).map fun row => ⟨row.usedQuota + pending .channelUsedQuota id⟩

theorem amount_record (store : BatchStore) (id value i : ℤ) :
    (store.record id value).amount i = store.amount i + if i = id then value else 0 := by
  unfold BatchStore.record
  split
  · next hnone =>
    by_cases hi : i = id
    · subst hi
      have hself : (store.add (i, value)).get i = some (i, value) := Table.get_add_self hnone
      simp only [BatchStore.amount, hself, hnone, if_pos]
      simp
    · have hother : (store.add (id, value)).get i = store.get i := Table.get_add_of_ne hi
      simp [BatchStore.amount, hother, if_neg hi]
  · next entry hsome =>
    by_cases hi : i = id
    · subst hi
      have hself : (store.put (i, entry.2 + value)).get i = some (i, entry.2 + value) :=
        Table.get_put_self hsome
      simp only [BatchStore.amount, hself, hsome, if_pos]
      simp
    · have hother : (store.put (id, entry.2 + value)).get i = store.get i := Table.get_put_of_ne hi
      simp [BatchStore.amount, hother, if_neg hi]

theorem amount_empty (id : ℤ) : BatchStore.amount Table.empty id = 0 := rfl

theorem total_entries (store : BatchStore) (id : ℤ) :
    total (fun entry => if entry.1 = id then entry.2 else 0) store.rows = store.amount id :=
  store.sum_ite_key id Prod.snd

theorem amount_eq_zero {store : BatchStore} {id : ℤ} (h : id ∉ store.rows.map Prod.fst) : store.amount id = 0 := by
  unfold BatchStore.amount
  cases hget : store.get id with
  | none => rfl
  | some entry =>
    obtain ⟨hmem, rfl⟩ := (store.get_eq_some_iff id entry).mp hget
    exact absurd (mem_map_of_mem hmem) h

theorem total_userIDs (taken : BatchType → BatchStore) (t : BatchType) (id : ℤ)
    (ht : t = .userQuota ∨ t = .usedQuota ∨ t = .requestCount) :
    total (fun i => if i = id then (taken t).amount i else 0) (userIDs taken).rows = (taken t).amount id := by
  refine ((userIDs taken).sum_ite_key id (taken t).amount).trans ?_
  cases hget : (userIDs taken).get id with
  | some i =>
    obtain ⟨-, rfl⟩ := ((userIDs taken).get_eq_some_iff id i).mp hget
    rfl
  | none =>
    have hids := Table.not_mem_keys_of_get_eq_none hget
    rw [map_id] at hids
    refine (amount_eq_zero fun hmem => hids ?_).symm
    simp only [userIDs, mem_dedup, map_append, mem_append]
    rcases ht with rfl | rfl | rfl
    · exact .inl (.inl hmem)
    · exact .inl (.inr hmem)
    · exact .inr hmem

theorem total_updatesOf (taken : BatchType → BatchStore) (t : BatchType) (id : ℤ) :
    total (fun update => update.amount t id) (updatesOf taken) = (taken t).amount id := by
  unfold updatesOf
  simp only [total_append, total_map, Update.amount, userUpdate, Pi.add_apply, single, eq_comm (a := id)]
  cases t with
  | tokenQuota =>
    simp only [reduceCtorEq, false_and, true_and, if_false, total_entries]
    simp [total]
  | channelUsedQuota =>
    simp only [reduceCtorEq, false_and, true_and, if_false, total_entries]
    simp [total]
  | userQuota =>
    simp only [reduceCtorEq, false_and, true_and, if_false, add_zero,
      total_userIDs taken .userQuota id (by decide)]
    simp [total]
  | usedQuota =>
    simp only [reduceCtorEq, false_and, true_and, if_false, add_zero, zero_add,
      total_userIDs taken .usedQuota id (by decide)]
    simp [total]
  | requestCount =>
    simp only [reduceCtorEq, false_and, true_and, if_false, zero_add,
      total_userIDs taken .requestCount id (by decide)]
    simp [total]

/-! ## Every write adds amounts

The functions that write the columns are all of the form `plus`, and amounts add up. -/

theorem updateAt_eq_map {ρ : Type} {rows : ℤ → Option ρ} {id : ℤ} {f : ρ → ρ} {g : ℤ → ρ → ρ}
    (hself : ∀ row, f row = g id row) (hother : ∀ i row, i ≠ id → g i row = row) :
    updateAt rows id f = fun i => (rows i).map (g i) := by
  funext i
  unfold updateAt
  by_cases hi : i = id
  · rw [if_pos hi, hi, funext hself]
  · rw [if_neg hi, funext fun row => hother i row hi]
    exact Option.map_id'.symm

namespace Columns

theorem plus_zero (db : Columns) : db.plus 0 = db := by
  simp [plus]

theorem plus_plus (db : Columns) (p q : BatchType → ℤ → ℤ) : (db.plus p).plus q = db.plus (p + q) := by
  simp only [plus, Option.map_map, Function.comp_def, Pi.add_apply, add_assoc, sub_sub]

section Writes

variable (db : Columns) (id quota usedQuota requestCount : ℤ)

theorem increaseUserQuota_eq : db.increaseUserQuota id quota = db.plus (single .userQuota id quota) := by
  simp only [increaseUserQuota, plus, single, reduceCtorEq, false_and, true_and, if_false, add_zero, sub_zero,
    Option.map_id_fun', id_eq]
  congr 1
  refine updateAt_eq_map (fun row => ?_) (fun i row hi => ?_)
  · rw [if_pos rfl]
  · rw [if_neg hi, add_zero]

theorem decreaseUserQuota_eq : db.decreaseUserQuota id quota = db.plus (single .userQuota id (-quota)) := by
  rw [← increaseUserQuota_eq]
  rfl

theorem increaseTokenQuota_eq : db.increaseTokenQuota id quota = db.plus (single .tokenQuota id quota) := by
  simp only [increaseTokenQuota, plus, single, reduceCtorEq, false_and, true_and, if_false, add_zero,
    Option.map_id_fun', id_eq]
  congr 1
  refine updateAt_eq_map (fun row => ?_) (fun i row hi => ?_)
  · rw [if_pos rfl]
  · rw [if_neg hi, add_zero, sub_zero]

theorem decreaseTokenQuota_eq : db.decreaseTokenQuota id quota = db.plus (single .tokenQuota id (-quota)) := by
  rw [← increaseTokenQuota_eq]
  simp only [decreaseTokenQuota, increaseTokenQuota, sub_eq_add_neg, neg_neg]

theorem updateChannelUsedQuota_eq : db.updateChannelUsedQuota id quota = db.plus (single .channelUsedQuota id quota) := by
  simp only [updateChannelUsedQuota, plus, single, reduceCtorEq, false_and, true_and, if_false, add_zero,
    sub_zero, Option.map_id_fun', id_eq]
  congr 1
  refine updateAt_eq_map (fun row => ?_) (fun i row hi => ?_)
  · rw [if_pos rfl]
  · rw [if_neg hi, add_zero]

theorem updateUserQuotaUsedQuotaAndRequestCount_eq :
    db.updateUserQuotaUsedQuotaAndRequestCount id quota usedQuota requestCount =
      db.plus (Update.user id quota usedQuota requestCount).amount := by
  unfold updateUserQuotaUsedQuotaAndRequestCount
  split
  · -- an update of nothing is left out
    next hzero =>
    obtain ⟨rfl, rfl, rfl⟩ := hzero
    have hnothing : (Update.user id 0 0 0).amount = 0 := by
      funext t i
      simp [Update.amount, single]
    rw [hnothing, plus_zero]
  · simp only [plus, Update.amount, Pi.add_apply, single, reduceCtorEq, false_and, true_and, if_false, add_zero,
      zero_add, sub_zero, Option.map_id_fun', id_eq]
    congr 1
    refine updateAt_eq_map (fun row => ?_) (fun i row hi => ?_)
    · simp
    · simp [if_neg hi]

theorem updateUserUsedQuotaAndRequestCount_eq : db.updateUserUsedQuotaAndRequestCount id usedQuota requestCount =
      db.plus (single .usedQuota id usedQuota + single .requestCount id requestCount) := by
  simp only [updateUserUsedQuotaAndRequestCount, plus, Pi.add_apply, single, reduceCtorEq, false_and, true_and,
    if_false, add_zero, zero_add, sub_zero, Option.map_id_fun', id_eq]
  congr 1
  refine updateAt_eq_map (fun row => ?_) (fun i row hi => ?_)
  · simp
  · simp [if_neg hi]

end Writes
end Columns

theorem Update.apply_eq (db : Columns) (update : Update) : update.apply db = db.plus update.amount := by
  cases update with
  | token id value => exact db.increaseTokenQuota_eq id value
  | channel id value => exact db.updateChannelUsedQuota_eq id value
  | user id quota usedQuota requestCount => exact db.updateUserQuotaUsedQuotaAndRequestCount_eq ..

end HotAI.Quota
