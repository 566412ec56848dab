import HotAI.Pricing.GroupRatio
import HotAI.Relay.Request

/-! # What a remix is charged (`relay/relay_task.go`)

`ResolveOriginTask` runs once and puts the ratios of the original video into `info.PriceData`. Every attempt prices anew:
`ModelPriceHelperPerCall` makes a fresh `PriceData`, the adaptor may add ratios, and the quota is multiplied by them. Prices
and ratios are exact rationals. -/
namespace HotAI.Tasks
open HotAI.Lib HotAI.Pricing
open HotAI.Routing (truncate truncate_of_nonneg)

/-- A `map[string]float64`; the order of the rows is the order in which a loop meets them. -/
abbrev Ratios := Table (String × ℚ) Prod.fst

def Ratios.set (ratios : Ratios) (key : String) (ratio : ℚ) : Ratios :=
  if (ratios.get key).isSome then ratios.put (key, ratio) else ratios.add (key, ratio)

def Ratios.values (ratios : Ratios) : List ℚ := ratios.rows.map Prod.snd

structure PriceData where
  freeModel : Bool
  modelPrice : ℚ
  modelRatio : ℚ
  otherRatios : Ratios
  usePrice : Bool
  quota : ℤ
  groupRatioInfo : GroupRatioInfo

def PriceData.addOtherRatio (p : PriceData) (key : String) (ratio : ℚ) : PriceData :=
  if ratio ≤ 0 then p else { p with otherRatios := p.otherRatios.set key ratio }

/-- The settings that prices of tasks are read from, with what is found under a model's name. -/
structure TaskSettings extends Settings where
  getModelPrice : String → Option ℚ
  defaultModelPrice : String → Option ℚ
  getModelRatio : String → ℚ × Bool
  taskPricePatches : List String

/-- `dto.TaskError` without its text, or a panic. -/
inductive Failure where
  | taskError (code : String) (statusCode : ℕ)
  | panicked
deriving DecidableEq, Repr

/-- `RelayInfo` of a task; the embedded `*ChannelMeta` is nil until `InitChannelMeta`. -/
structure TaskRelayInfo where
  relay : RelayInfo
  action : String
  originTaskID : String
  originModelName : String
  acceptUnsetRatioModel : Bool
  /-- `ChannelMeta.ChannelId` -/
  channelMeta : Option ℤ
  lockedChannel : Option ℤ
  priceData : PriceData
  /-- `info.Billing != nil` -/
  preConsumed : Bool

def remixAction : String := "remixGenerate"

/-! ## The original task -/

structure OriginTask where
  channelId : ℤ
  originModelName : String
  upstreamModelName : String
  /-- `BillingContext.OtherRatios` -/
  billingContext : Option Ratios
  /-- The fields of the task data that are strings. -/
  dataModel : Option String
  dataSeconds : Option String
  dataSize : Option String

structure Channel where
  enabled : Bool
  /-- `GetNextEnabledKey` finds one. -/
  hasKey : Bool

structure RemixRequest where
  path : String
  videoID : String
  /-- `GetByTaskId`, which may also fail. -/
  getByTaskId : String → Except Unit (Option OriginTask)
  getChannelById : ℤ → Option Channel
  platform : String

/-- `strconv.Atoi` without its error: no number gives 0, one out of range the nearest `int`. -/
def atoi (s : String) : ℤ :=
  let (sign, digits) : ℤ × List Char := match s.toList with
    | '-' :: digits => (-1, digits)
    | '+' :: digits => (1, digits)
    | digits => (1, digits)
  if digits = [] ∨ !digits.all Char.isDigit then 0
  else
    let value := sign * digits.foldl (fun n c => 10 * n + (c.toNat - '0'.toNat : ℕ)) 0
    max (-2 ^ 63) (min value (2 ^ 63 - 1))

def sizeRatio (size : String) : ℚ := if size = "1792x1024" ∨ size = "1024x1792" then 1666667 / 1000000 else 1

def OriginTask.seconds (task : OriginTask) : ℤ :=
  let seconds := atoi (task.dataSeconds.getD "")
  if seconds ≤ 0 then 4 else seconds

def addRemixRatios (task : OriginTask) (p : PriceData) : PriceData :=
  match task.billingContext with
  | some ratios => ratios.rows.foldl (fun p entry => p.addOtherRatio entry.1 entry.2) p
  | none =>
      { p with otherRatios := (p.otherRatios.set "seconds" task.seconds).set "size" (sizeRatio (task.dataSize.getD "")) }

def OriginTask.modelName (task : OriginTask) : String :=
  if task.originModelName ≠ "" then task.originModelName
  else if task.upstreamModelName ≠ "" then task.upstreamModelName
  else task.dataModel.getD ""

/-- `ResolveOriginTask` once the original task is found. -/
def followOriginTask (req : RemixRequest) (originTask : OriginTask) (info : TaskRelayInfo) : Except Failure TaskRelayInfo :=
  let info := { info with originModelName := if info.originModelName = "" then originTask.modelName else info.originModelName }
  match req.getChannelById originTask.channelId with
  | none => .error (.taskError "channel_not_found" 400)
  | some ch =>
      if !ch.enabled then .error (.taskError "task_channel_disable" 400)
      else
        let info := { info with lockedChannel := some originTask.channelId }
        -- `info.ChannelId` reads through the embedded pointer
        match info.channelMeta with
        | none => .error .panicked
        | some channelId =>
            if originTask.channelId ≠ channelId ∧ !ch.hasKey then .error (.taskError "channel_no_available_key" 500)
            else
              let info := { info with channelMeta := some originTask.channelId }
              .ok (if info.action = remixAction then { info with priceData := addRemixRatios originTask info.priceData }
                else info)

def resolveOriginTask (req : RemixRequest) (info : TaskRelayInfo) : Except Failure TaskRelayInfo :=
  let isRemix := contains req.path "/v1/videos/" && hasSuffix req.path "/remix"
  let info := { info with action := if isRemix then remixAction else info.action }
  if info.action = remixAction ∧ trimSpace req.videoID = "" then .error (.taskError "invalid_request" 400)
  else
    let info := { info with originTaskID := if info.action = remixAction then req.videoID else info.originTaskID }
    if info.originTaskID = "" then .ok info
    else match req.getByTaskId info.originTaskID with
      | .error _ => .error (.taskError "get_origin_task_failed" 500)
      | .ok none => .error (.taskError "task_not_exist" 400)
      | .ok (some originTask) => followOriginTask req originTask info

/-- What `Relay.Request` keeps of a remix: the channel of the original task, or that the request ends before it is used. -/
def RemixRequest.origin (req : RemixRequest) (channelMeta : Option ℤ) : Relay.OriginTask :=
  if trimSpace req.videoID = "" then .unusable
  else match req.getByTaskId req.videoID with
    | .ok (some task) => match req.getChannelById task.channelId with
        | some ch =>
            if ch.enabled && (ch.hasKey || channelMeta.all (task.channelId = ·)) then .found task.channelId else .unusable
        | none => .unusable
    | _ => .unusable

/-- The `resolveOriginTask` of `Relay.Request` is this one without the price. -/
theorem resolveOriginTask_relay (req : RemixRequest) (info : TaskRelayInfo)
    (hremix : (contains req.path "/v1/videos/" && hasSuffix req.path "/remix") = true) :
    Relay.resolveOriginTask info.channelMeta.isSome (req.origin info.channelMeta) =
      match resolveOriginTask req info with
      | .ok info => .ok (info.lockedChannel.getD 0)
      | .error .panicked => .error .panicked
      | .error (.taskError ..) => .error .returned := by
  unfold resolveOriginTask RemixRequest.origin
  rw [hremix]
  by_cases hid : trimSpace req.videoID = ""
  · simp [hid, Relay.resolveOriginTask]
  have hne : req.videoID ≠ "" := fun h => hid (by rw [h]; rfl)
  simp only [hid, if_true, if_false, and_false, hne]
  cases hfound : req.getByTaskId req.videoID with
  | error => simp [Relay.resolveOriginTask]
  | ok task? => cases task? with
    | none => simp [Relay.resolveOriginTask]
    | some task =>
      simp only [followOriginTask]
      cases req.getChannelById task.channelId with
      | none => simp [Relay.resolveOriginTask]
      | some ch =>
        obtain ⟨enabled, hasKey⟩ := ch
        cases hmeta : info.channelMeta with
        | none => cases enabled <;> cases hasKey <;> simp [Relay.resolveOriginTask]
        | some channelId =>
          by_cases hsame : task.channelId = channelId <;> cases enabled <;> cases hasKey <;>
            simp [Relay.resolveOriginTask, hsame]

/-! ## Pricing -/

/-- `ModelPriceHelperPerCall` after the group ratio is known. -/
def perCallPrice (s : TaskSettings) (modelName : String) (acceptUnsetRatio : Bool) (groupRatioInfo : GroupRatioInfo) :
    Option PriceData :=
  let groupRatio := groupRatioInfo.groupRatio
  match (s.getModelPrice modelName).or (s.defaultModelPrice modelName) with
  | some modelPrice =>
      let free := !s.enableFreeModelPreConsume && (groupRatio = 0 || modelPrice = 0)
      some ⟨free, modelPrice, 0, Table.empty, true,
        if free then 0 else truncate (modelPrice * s.quotaPerUnit * groupRatio), groupRatioInfo⟩
  | none =>
      let (modelRatio, ratioSuccess) := s.getModelRatio modelName
      if !ratioSuccess && !acceptUnsetRatio then none
      else
        let free := !s.enableFreeModelPreConsume && (groupRatio = 0 || modelRatio = 0)
        some ⟨free, -1, modelRatio, Table.empty, false,
          if free then 0 else truncate (modelRatio / 2 * s.quotaPerUnit * groupRatio), groupRatioInfo⟩

def modelPriceHelperPerCall (s : TaskSettings) (info : TaskRelayInfo) : Option PriceData × TaskRelayInfo :=
  let (groupRatioInfo, relay) := handleGroupRatio s.toSettings info.relay
  (perCallPrice s info.originModelName info.acceptUnsetRatioModel groupRatioInfo, { info with relay := relay })

structure TaskAdaptor where
  estimateBilling : TaskRelayInfo → Ratios
  adjustBillingOnSubmit : TaskRelayInfo → Ratios

structure VideoRequest where
  seconds : String
  duration : ℤ
  size : String

def estimateSora (body : Option VideoRequest) (info : TaskRelayInfo) : Ratios :=
  if info.action = remixAction then Table.empty
  else match body with
    | none => Table.empty
    | some req =>
        let seconds := if atoi req.seconds = 0 then req.duration else atoi req.seconds
        let seconds := if seconds ≤ 0 then 4 else seconds
        (Ratios.set Table.empty "seconds" seconds).set "size" (sizeRatio req.size)

def sora (body : Option VideoRequest) : TaskAdaptor := ⟨estimateSora body, fun _ => Table.empty⟩

structure Attempt where
  /-- `InitChannelMeta` -/
  channelId : ℤ
  invalid : Option Failure
  preConsume : ℤ → Option Failure
  upstream : Option Failure

def applyRatios (quota : ℤ) (ratios : Ratios) : ℤ :=
  ratios.values.foldl (fun quota ra => if ra ≠ 1 then truncate (quota * ra) else quota) quota

def recalcQuotaFromRatios (p : PriceData) (ratios : Ratios) : ℤ :=
  let baseQuota := p.otherRatios.values.foldl
    (fun base ra => if ra ≠ 1 ∧ ra > 0 then truncate ((base : ℚ) / ra) else base) p.quota
  truncate (ratios.values.foldl (fun result ra => if ra ≠ 1 then result * ra else result) (baseQuota : ℚ))

def coverTaskActionToModelName (platform action : String) : String := platform.toLower ++ "_" ++ action.toLower

def TaskRelayInfo.modelName (info : TaskRelayInfo) (platform : String) : String :=
  if info.originModelName = "" then coverTaskActionToModelName platform info.action else info.originModelName

/-- `RelayTaskSubmit` from the model name to the quota that the ratios are applied to. -/
def submitPrice (s : TaskSettings) (adaptor : TaskAdaptor) (platform : String) (info : TaskRelayInfo) :
    Option PriceData × TaskRelayInfo :=
  let modelName := info.modelName platform
  match modelPriceHelperPerCall s { info with originModelName := modelName } with
  | (none, info) => (none, info)
  | (some priceData, info) =>
      let priceData := (adaptor.estimateBilling { info with priceData := priceData }).rows.foldl
        (fun p entry => p.addOtherRatio entry.1 entry.2) priceData
      let quota := if modelName ∈ s.taskPricePatches then priceData.quota
        else applyRatios priceData.quota priceData.otherRatios
      (some { priceData with quota := quota }, info)

/-- `RelayTaskSubmit` from the pre-consumption on. -/
def submitPriced (adaptor : TaskAdaptor) (attempt : Attempt) (info : TaskRelayInfo) : TaskRelayInfo × Except Failure ℤ :=
  match if !info.preConsumed && !info.priceData.freeModel then attempt.preConsume info.priceData.quota else none with
  | some failure => (info, .error failure)
  | none =>
      let info := { info with preConsumed := info.preConsumed || !info.priceData.freeModel }
      match attempt.upstream with
      | some failure => (info, .error failure)
      | none =>
          let adjusted := adaptor.adjustBillingOnSubmit info
          if adjusted.rows ≠ [] then
            let finalQuota := recalcQuotaFromRatios info.priceData adjusted
            ({ info with priceData := { info.priceData with otherRatios := adjusted, quota := finalQuota } }, .ok finalQuota)
          else (info, .ok info.priceData.quota)

def relayTaskSubmit (s : TaskSettings) (adaptor : TaskAdaptor) (platform : String) (attempt : Attempt)
    (info : TaskRelayInfo) : TaskRelayInfo × Except Failure ℤ :=
  let info := { info with channelMeta := some attempt.channelId }
  match attempt.invalid with
  | some failure => (info, .error failure)
  | none =>
      match submitPrice s adaptor platform info with
      | (none, info) => (info, .error (.taskError "model_price_error" 400))
      | (some priceData, info) => submitPriced adaptor attempt { info with priceData := priceData }

/-- The attempts of `RelayTask`, up to the first that succeeds; its quota is settled. -/
def submitLoop (s : TaskSettings) (adaptor : TaskAdaptor) (platform : String) :
    List Attempt → TaskRelayInfo → Except Failure ℤ
  | [], _ => .error (.taskError "no_available_channel" 503)
  | attempt :: rest, info =>
      match relayTaskSubmit s adaptor platform attempt info with
      | (_, .ok quota) => .ok quota
      | (info, .error _) => submitLoop s adaptor platform rest info

def relayTask (s : TaskSettings) (adaptor : TaskAdaptor) (req : RemixRequest) (attempts : List Attempt)
    (info : TaskRelayInfo) : Except Failure ℤ := do
  let info ← resolveOriginTask req info
  submitLoop s adaptor req.platform attempts info

/-! ## A remix that is in order -/

theorem handleGroupRatio_again (s : Settings) (relay : RelayInfo) :
    (handleGroupRatio s (handleGroupRatio s relay).2).1 = (handleGroupRatio s relay).1 := by
  obtain ⟨autoGroup, userGroup, usingGroup, -, -, -, -, -⟩ := relay
  unfold handleGroupRatio
  cases autoGroup with
  | none =>
      cases h : s.groupGroupRatio userGroup usingGroup <;> simp only [h]
  | some group =>
      cases h : s.groupGroupRatio userGroup group <;> simp only [h]

theorem otherRatios_perCallPrice {s : TaskSettings} {modelName : String} {accept : Bool} {g : GroupRatioInfo}
    {price : PriceData} (h : perCallPrice s modelName accept g = some price) : price.otherRatios = Table.empty := by
  unfold perCallPrice at h
  dsimp only at h
  split at h
  · obtain rfl := Option.some.inj h
    rfl
  · split at h
    · cases h
    · obtain rfl := Option.some.inj h
      rfl

structure Priced (s : TaskSettings) (platform : String) (price : PriceData) (info : TaskRelayInfo) : Prop where
  remix : info.action = remixAction
  price : perCallPrice s (info.modelName platform) info.acceptUnsetRatioModel
    (handleGroupRatio s.toSettings info.relay).1 = some price

structure Attempt.Succeeds (attempt : Attempt) : Prop where
  valid : attempt.invalid = none
  funded : ∀ quota, attempt.preConsume quota = none
  accepted : attempt.upstream = none

section Attempts
variable {s : TaskSettings} {platform : String} {price : PriceData} (body : Option VideoRequest)

theorem modelName_again (info : TaskRelayInfo) (platform : String) :
    { info with originModelName := info.modelName platform }.modelName platform = info.modelName platform := by
  unfold TaskRelayInfo.modelName
  split_ifs with horigin hcover
  · rfl
  · rfl
  · rfl

theorem submitPrice_remix {info : TaskRelayInfo} (h : Priced s platform price info) :
    submitPrice s (sora body) platform info = (some price,
      { info with
        originModelName := info.modelName platform
        relay := (handleGroupRatio s.toSettings info.relay).2 }) := by
  have hestimate (p : PriceData) : (sora body).estimateBilling
      { info with
        originModelName := info.modelName platform
        relay := (handleGroupRatio s.toSettings info.relay).2
        priceData := p } = Table.empty := if_pos h.remix
  have hratios := otherRatios_perCallPrice h.price
  unfold submitPrice modelPriceHelperPerCall
  dsimp only
  rw [h.price]
  dsimp only
  rw [hestimate]
  obtain ⟨freeModel, modelPrice, modelRatio, otherRatios, usePrice, quota, groupRatioInfo⟩ := price
  obtain rfl : otherRatios = Table.empty := hratios
  have hquota : applyRatios quota Table.empty = quota := rfl
  simp only [Table.empty, List.foldl_nil] at hquota ⊢
  rw [hquota, ite_self]

theorem Priced.again {info info' : TaskRelayInfo} (h : Priced s platform price info) (haction : info'.action = info.action)
    (hname : info'.originModelName = info.modelName platform)
    (haccept : info'.acceptUnsetRatioModel = info.acceptUnsetRatioModel)
    (hrelay : info'.relay = (handleGroupRatio s.toSettings info.relay).2) : Priced s platform price info' := by
  refine ⟨haction.trans h.remix, ?_⟩
  have hmodel : info'.modelName platform = info.modelName platform := by
    have hsettled := modelName_again info platform
    unfold TaskRelayInfo.modelName at hsettled ⊢
    rw [haction]
    rw [hname]
    exact hsettled
  rw [hmodel, haccept, hrelay, handleGroupRatio_again]
  exact h.price

theorem relayTaskSubmit_remix (attempt : Attempt) {info : TaskRelayInfo} (h : Priced s platform price info) :
    Priced s platform price (relayTaskSubmit s (sora body) platform attempt info).1 ∧
    ((relayTaskSubmit s (sora body) platform attempt info).2 = .ok price.quota ∨
      ¬attempt.Succeeds ∧ ∃ failure, (relayTaskSubmit s (sora body) platform attempt info).2 = .error failure) := by
  have hpriced : Priced s platform price { info with channelMeta := some attempt.channelId } := ⟨h.remix, h.price⟩
  unfold relayTaskSubmit
  cases hinvalid : attempt.invalid with
  | some failure =>
      exact ⟨hpriced, Or.inr ⟨fun hs => (nomatch hinvalid.symm.trans hs.valid), failure, rfl⟩⟩
  | none =>
      dsimp only
      rw [submitPrice_remix body hpriced]
      dsimp only
      unfold submitPriced
      split
      · next failure hpre =>
          refine ⟨hpriced.again rfl rfl rfl rfl, Or.inr ⟨fun hs => ?_, failure, rfl⟩⟩
          split at hpre
          · exact nomatch hpre.symm.trans (hs.funded _)
          · cases hpre
      · cases hupstream : attempt.upstream with
        | some failure =>
            exact ⟨hpriced.again rfl rfl rfl rfl,
              Or.inr ⟨fun hs => (nomatch hupstream.symm.trans hs.accepted), failure, rfl⟩⟩
        | none => exact ⟨hpriced.again rfl rfl rfl rfl, Or.inl rfl⟩

theorem submitLoop_remix (attempts : List Attempt) {info : TaskRelayInfo} (h : Priced s platform price info)
    (hsucceeds : ∃ attempt ∈ attempts, attempt.Succeeds) :
    submitLoop s (sora body) platform attempts info = .ok price.quota := by
  induction attempts generalizing info with
  | nil => obtain ⟨attempt, hmem, -⟩ := hsucceeds; cases hmem
  | cons attempt rest ih =>
      obtain ⟨hpriced, hresult⟩ := relayTaskSubmit_remix body attempt h
      unfold submitLoop
      generalize relayTaskSubmit s (sora body) platform attempt info = outcome at hpriced hresult
      obtain ⟨info', result⟩ := outcome
      rcases hresult with hok | ⟨hfails, failure, herror⟩
      · obtain rfl : result = .ok price.quota := hok
        rfl
      · obtain rfl : result = .error failure := herror
        refine ih hpriced ?_
        obtain ⟨later, hmem, hlater⟩ := hsucceeds
        rcases List.mem_cons.mp hmem with rfl | hrest
        · exact absurd hlater hfails
        · exact ⟨later, hrest, hlater⟩

end Attempts

def TaskRelayInfo.asRemix (info : TaskRelayInfo) (videoID : String) (task : OriginTask) : TaskRelayInfo :=
  { info with
    action := remixAction
    originTaskID := videoID
    originModelName := if info.originModelName = "" then task.modelName else info.originModelName
    lockedChannel := some task.channelId }

/-- A remix of an existing video on a usable channel, of a model with a price, that is submitted in the end. -/
structure Remix where
  settings : TaskSettings
  body : Option VideoRequest
  req : RemixRequest
  info : TaskRelayInfo
  attempts : List Attempt
  task : OriginTask
  channel : Channel
  price : PriceData
  path : contains req.path "/v1/videos/" = true ∧ hasSuffix req.path "/remix" = true
  videoID : trimSpace req.videoID ≠ ""
  found : req.getByTaskId req.videoID = .ok (some task)
  usable : req.getChannelById task.channelId = some channel ∧ channel.enabled = true ∧ channel.hasKey = true
  priced : Priced settings req.platform price (info.asRemix req.videoID task)
  submitted : ∃ attempt ∈ attempts, attempt.Succeeds

namespace Remix
variable (r : Remix)

def charged : Except Failure ℤ := relayTask r.settings (sora r.body) r.req r.attempts r.info

/-- The parameters of the remixed video: those stored with its task, or else those that its data tell. -/
def ratios : List ℚ :=
  match r.task.billingContext with
  | some ratios => ratios.values
  | none => [(r.task.seconds : ℚ), sizeRatio (r.task.dataSize.getD "")]

theorem resolve_eq : resolveOriginTask r.req r.info =
    match r.info.channelMeta with
    | none => .error .panicked
    | some _ => .ok
        { r.info.asRemix r.req.videoID r.task with
          channelMeta := some r.task.channelId
          priceData := addRemixRatios r.task r.info.priceData } := by
  have hid : r.req.videoID ≠ "" := by
    intro hempty
    apply r.videoID
    rw [hempty]
    decide
  obtain ⟨hchannel, henabled, hkey⟩ := r.usable
  unfold resolveOriginTask
  dsimp only
  rw [r.path.1, r.path.2, Bool.and_self, if_pos rfl, if_neg (fun h => r.videoID h.2), if_pos rfl, if_neg hid, r.found]
  unfold followOriginTask
  dsimp only
  rw [hchannel]
  dsimp only
  rw [henabled, hkey]
  cases r.info.channelMeta with
  | none => rfl
  | some channelId =>
      dsimp only
      rw [if_neg (by decide), if_neg (fun h => by simp at h)]
      rfl

theorem charged_eq : r.charged = match r.info.channelMeta with
    | none => .error .panicked
    | some _ => .ok r.price.quota := by
  rw [charged, relayTask, r.resolve_eq]
  cases r.info.channelMeta with
  | none => rfl
  | some channelId => exact submitLoop_remix r.body r.attempts ⟨rfl, r.priced.price⟩ r.submitted

end Remix

/-! ## Multiplying by the ratios -/

theorem truncate_neg (x : ℚ) : truncate (-x) = -truncate x := by
  rw [truncate, truncate, Rat.neg_num, Rat.neg_den, Int.neg_tdiv]

theorem truncate_natCast_mul_eq_iff (n : ℕ) (x : ℚ) : truncate (n * x) = n ↔ (n : ℚ) ≤ n * x ∧ (n : ℚ) * x < n + 1 := by
  constructor
  · intro h
    by_cases hx : 0 ≤ (n : ℚ) * x
    · rw [truncate_of_nonneg hx, Int.floor_eq_iff] at h
      exact_mod_cast h
    · have hneg : 0 ≤ -((n : ℚ) * x) := by linarith
      have hfloor : 0 ≤ ⌊-((n : ℚ) * x)⌋ := Int.floor_nonneg.mpr hneg
      have hminus : truncate (n * x) = -⌊-((n : ℚ) * x)⌋ := by
        rw [← truncate_of_nonneg hneg, truncate_neg, neg_neg]
      have hzero : n = 0 := by omega
      subst hzero
      simp at hx
  · rintro ⟨hle, hlt⟩
    have hx : 0 ≤ (n : ℚ) * x := le_trans (Nat.cast_nonneg n) hle
    rw [truncate_of_nonneg hx, Int.floor_eq_iff]
    exact ⟨by exact_mod_cast hle, by exact_mod_cast hlt⟩

theorem truncate_mul_eq_iff (q : ℤ) (x : ℚ) :
    truncate (q * x) = q ↔ (q.natAbs : ℚ) ≤ q.natAbs * x ∧ (q.natAbs : ℚ) * x < q.natAbs + 1 := by
  rw [← truncate_natCast_mul_eq_iff]
  rcases Int.natAbs_eq q with hq | hq
  · nth_rewrite 1 2 [hq]
    rfl
  · nth_rewrite 1 2 [hq]
    rw [Int.cast_neg, Int.cast_natCast, neg_mul, truncate_neg, neg_inj]

/-- A remix is charged with the parameters of its video only where they make no difference. -/
theorem Remix.charged_with_ratios_iff (r : Remix) : r.charged = .ok (truncate (r.price.quota * r.ratios.prod)) ↔
      r.info.channelMeta ≠ none ∧ (r.price.quota.natAbs : ℚ) ≤ r.price.quota.natAbs * r.ratios.prod ∧
        (r.price.quota.natAbs : ℚ) * r.ratios.prod < r.price.quota.natAbs + 1 := by
  rw [← truncate_mul_eq_iff, r.charged_eq]
  cases r.info.channelMeta with
  | none => simp
  | some channelId =>
      simp only [ne_eq, reduceCtorEq, not_false_eq_true, true_and, Except.ok.injEq]
      exact eq_comm

def oneUnit : TaskSettings where
  groupRatio _ := 1
  groupGroupRatio _ _ := none
  quotaPerUnit := 500000
  quotaPerUnit_pos := by decide
  enableFreeModelPreConsume := true
  getModelPrice _ := some 1
  defaultModelPrice _ := none
  getModelRatio _ := (1, true)
  taskPricePatches := []

theorem perCallPrice_oneUnit (modelName : String) (accept : Bool) : perCallPrice oneUnit modelName accept ⟨1, -1, false⟩ =
      some ⟨false, 1, 0, Table.empty, true, 500000, ⟨1, -1, false⟩⟩ := by
  have hquota : truncate (1 * 500000 * 1) = 500000 := by decide +kernel
  simp only [perCallPrice, oneUnit, Option.some_or, Bool.not_true, Bool.false_and, Bool.false_eq_true, if_false, hquota]

def noPrice : PriceData := ⟨false, 0, 0, Table.empty, false, 0, ⟨1, -1, false⟩⟩

def longVideo (channelMeta : Option ℤ) : Remix where
  settings := oneUnit
  body := none
  req := ⟨"/v1/videos/task_1/remix", "task_1",
    fun _ => .ok (some ⟨7, "sora-2", "sora-2", some (Ratios.set Table.empty "seconds" 12), none, none, none⟩),
    fun _ => some ⟨true, true⟩, "55"⟩
  info := ⟨⟨none, "default", "default", ⟨1, -1, false⟩, false, 0, none, 0⟩, "", "", "", false, channelMeta, none, noPrice, false⟩
  attempts := [⟨7, none, fun _ => none, none⟩]
  task := ⟨7, "sora-2", "sora-2", some (Ratios.set Table.empty "seconds" 12), none, none, none⟩
  channel := ⟨true, true⟩
  price := ⟨false, 1, 0, Table.empty, true, 500000, ⟨1, -1, false⟩⟩
  path := by decide
  videoID := by decide
  found := rfl
  usable := ⟨rfl, rfl, rfl⟩
  priced := ⟨rfl, perCallPrice_oneUnit _ _⟩
  submitted := ⟨_, List.mem_singleton_self _, rfl, fun _ => rfl, rfl⟩

theorem longVideo_charged_as_short : (longVideo (some 7)).charged = .ok 500000 ∧ (longVideo (some 7)).ratios = [12] ∧
      (longVideo none).charged = .error .panicked := by
  refine ⟨(longVideo (some 7)).charged_eq, ?_, (longVideo none).charged_eq⟩
  decide

end HotAI.Tasks
