import HotAI.Pricing.TextQuota

/-! # Which group's ratio a request is settled with

Pricing happens once. When a retry takes a channel of another group, `getChannel` computes the group ratio again: ratio
billing settles with that one, the snapshot for expression billing keeps its own. Amounts are exact rationals. -/
namespace HotAI.Pricing
open HotAI.Lib

structure Settings where
  groupRatio : String → ℚ
  groupGroupRatio : String → String → Option ℚ
  quotaPerUnit : ℚ
  quotaPerUnit_pos : 0 < quotaPerUnit
  enableFreeModelPreConsume : Bool

structure GroupRatioInfo where
  groupRatio : ℚ
  groupSpecialRatio : ℚ
  hasSpecialRatio : Bool

structure BillingSnapshot where
  exprString : String
  groupRatio : ℚ
  estimatedQuotaBeforeGroup : ℚ
  estimatedQuotaAfterGroup : ℤ
  quotaPerUnit : ℚ

structure RelayInfo where
  autoGroup : Option String
  userGroup : String
  usingGroup : String
  groupRatioInfo : GroupRatioInfo
  freeModel : Bool
  quotaToPreConsume : ℤ
  tieredBillingSnapshot : Option BillingSnapshot
  finalPreConsumedQuota : ℤ

variable (s : Settings)

def Settings.ratio (userGroup group : String) : ℚ := (s.groupGroupRatio userGroup group).getD (s.groupRatio group)

def handleGroupRatio (info : RelayInfo) : GroupRatioInfo × RelayInfo :=
  let info := match info.autoGroup with
    | none => info
    | some group => { info with usingGroup := group }
  match s.groupGroupRatio info.userGroup info.usingGroup with
  | some userGroupRatio => (⟨userGroupRatio, userGroupRatio, true⟩, info)
  | none => (⟨s.groupRatio info.usingGroup, -1, false⟩, info)

/-- `modelPriceHelperTiered` on the estimated cost of the expression. -/
def modelPriceHelperTiered (exprString : String) (rawCost : ℚ) (groupRatioInfo : GroupRatioInfo) (info : RelayInfo) :
    RelayInfo :=
  let quotaBeforeGroup := rawCost / 1000000 * s.quotaPerUnit
  let preConsumedQuota := roundAway (quotaBeforeGroup * groupRatioInfo.groupRatio)
  let freeModel := !s.enableFreeModelPreConsume && groupRatioInfo.groupRatio = 0
  let preConsumedQuota := if freeModel then 0 else preConsumedQuota
  { info with
    tieredBillingSnapshot := some
      ⟨exprString, groupRatioInfo.groupRatio, quotaBeforeGroup, preConsumedQuota, s.quotaPerUnit⟩
    freeModel := freeModel
    groupRatioInfo := groupRatioInfo
    quotaToPreConsume := preConsumedQuota }

/-- How a model is billed: by an expression with its estimated cost, or by prices with the tokens to pre-consume. -/
inductive Billing where
  | tiered (exprString : String) (rawCost : ℚ)
  | byRatio (prices : PriceData) (preConsumedTokens : ℤ)

def modelPriceHelper (billing : Billing) (info : RelayInfo) : RelayInfo :=
  let (groupRatioInfo, info) := handleGroupRatio s info
  match billing with
  | .tiered exprString rawCost => modelPriceHelperTiered s exprString rawCost groupRatioInfo info
  | .byRatio prices preConsumedTokens =>
      let amount := if prices.usePrice then prices.modelPrice * s.quotaPerUnit * groupRatioInfo.groupRatio
        else preConsumedTokens * (prices.modelRatio * groupRatioInfo.groupRatio)
      let freeModel := !s.enableFreeModelPreConsume &&
        (groupRatioInfo.groupRatio = 0 || (if prices.usePrice then prices.modelPrice else prices.modelRatio) = 0)
      { info with
        freeModel := freeModel
        groupRatioInfo := groupRatioInfo
        -- `int(amount)` cuts towards zero
        quotaToPreConsume := if freeModel then 0 else if 0 ≤ amount then ⌊amount⌋ else ⌈amount⌉ }

/-- What `getChannel` of a retry does to the price, once a channel of `group` is selected. -/
def getChannelPrice (info : RelayInfo) (group : String) : RelayInfo :=
  let (groupRatioInfo, info) := handleGroupRatio s { info with autoGroup := some group }
  { info with groupRatioInfo := groupRatioInfo }

/-! ## Settlement -/

structure TieredResult where
  actualQuotaBeforeGroup : ℚ
  actualQuotaAfterGroup : ℤ

def computeTieredQuotaWithRequest (snap : BillingSnapshot) (cost : ℚ) : TieredResult :=
  let quotaBeforeGroup := cost / 1000000 * snap.quotaPerUnit
  ⟨quotaBeforeGroup, roundAway (quotaBeforeGroup * snap.groupRatio)⟩

/-- `TryTieredSettle`; `cost` is the result of the expression on the real usage, or nothing if it failed. -/
def tryTieredSettle (info : RelayInfo) (cost : Option ℚ) : Option (ℤ × Option TieredResult) :=
  info.tieredBillingSnapshot.map fun snap => match cost with
    | none => (if info.finalPreConsumedQuota ≤ 0 then snap.estimatedQuotaAfterGroup else info.finalPreConsumedQuota, none)
    | some cost =>
        let result := computeTieredQuotaWithRequest snap cost
        (result.actualQuotaAfterGroup, some result)

def composeTieredTextQuota (info : RelayInfo) (toolCallSurchargeQuota : ℚ) (tieredQuota : ℤ)
    (tieredResult : Option TieredResult) : ℤ :=
  if toolCallSurchargeQuota = 0 then tieredQuota
  else match tieredResult, info.tieredBillingSnapshot with
    | some result, some snap => roundAway (result.actualQuotaBeforeGroup * snap.groupRatio + toolCallSurchargeQuota)
    | _, _ => tieredQuota + roundAway toolCallSurchargeQuota

/-- What `PostTextConsumeQuota` settles for an expression-billed model. -/
def tieredQuota (info : RelayInfo) (toolCallSurchargeQuota : ℚ) (cost : Option ℚ) : Option ℤ :=
  (tryTieredSettle info cost).map fun x => composeTieredTextQuota info toolCallSurchargeQuota x.1 x.2

/-- What it settles for a model billed by prices; group ratios are not negative. -/
def ratioQuota (info : RelayInfo) (r : TextRequest) (p : PriceData) (u : Usage) : ℤ :=
  calculateTextQuotaSummary r p info.groupRatioInfo.groupRatio.toNNRat u

/-! ## Attempts -/

def attempts (billing : Billing) (info : RelayInfo) (first : String) (retries : List String) : RelayInfo :=
  run (getChannelPrice s) (modelPriceHelper s billing { info with autoGroup := some first }) retries

variable (info : RelayInfo)

theorem handleGroupRatio_auto (group : String) (h : info.autoGroup = some group) :
    (handleGroupRatio s info).1.groupRatio = s.ratio info.userGroup group ∧
      (handleGroupRatio s info).2 = { info with usingGroup := group } := by
  unfold handleGroupRatio Settings.ratio
  rw [h]
  cases hratio : s.groupGroupRatio info.userGroup group <;> simp [hratio]

theorem getChannelPrice_ratio (group : String) :
    (getChannelPrice s info group).groupRatioInfo.groupRatio = s.ratio info.userGroup group ∧
      (getChannelPrice s info group).userGroup = info.userGroup ∧
      (getChannelPrice s info group).tieredBillingSnapshot = info.tieredBillingSnapshot := by
  obtain ⟨hratio, hinfo⟩ := handleGroupRatio_auto s { info with autoGroup := some group } group rfl
  refine ⟨hratio, ?_, ?_⟩ <;> simp only [getChannelPrice, hinfo]

theorem retries_snapshot (retries : List String) :
    (run (getChannelPrice s) info retries).tieredBillingSnapshot = info.tieredBillingSnapshot := by
  induction retries generalizing info with
  | nil => rfl
  | cons group retries ih => rw [run_cons, ih, (getChannelPrice_ratio s info group).2.2]

theorem retries_ratio (retries : List String) (last : String) :
    (run (getChannelPrice s) info (retries ++ [last])).groupRatioInfo.groupRatio = s.ratio info.userGroup last := by
  induction retries generalizing info with
  | nil => exact (getChannelPrice_ratio s info last).1
  | cons group retries ih => rw [List.cons_append, run_cons, ih, (getChannelPrice_ratio s info group).2.1]

theorem modelPriceHelper_ratio (billing : Billing) (first : String) :
    (modelPriceHelper s billing { info with autoGroup := some first }).groupRatioInfo.groupRatio =
        s.ratio info.userGroup first ∧
      (modelPriceHelper s billing { info with autoGroup := some first }).userGroup = info.userGroup := by
  obtain ⟨hratio, hinfo⟩ := handleGroupRatio_auto s { info with autoGroup := some first } first rfl
  have huser := congrArg RelayInfo.userGroup hinfo
  cases billing <;> exact ⟨hratio, huser⟩

theorem attempts_ratio (billing : Billing) (first : String) (retries : List String) :
    (attempts s billing info first retries).groupRatioInfo.groupRatio =
      s.ratio info.userGroup (retries.getLast?.getD first) := by
  obtain ⟨hratio, huser⟩ := modelPriceHelper_ratio s info billing first
  rcases List.eq_nil_or_concat retries with rfl | ⟨before, last, rfl⟩
  · exact hratio
  · rw [attempts, List.concat_eq_append, retries_ratio, huser, List.getLast?_concat, Option.getD_some]

theorem attempts_snapshot (exprString : String) (estimate : ℚ) (info : RelayInfo) (first : String)
    (retries : List String) : ∃ snap, (attempts s (.tiered exprString estimate) info first retries).tieredBillingSnapshot = some snap ∧
      snap.groupRatio = s.ratio info.userGroup first ∧ snap.quotaPerUnit = s.quotaPerUnit := by
  obtain ⟨hratio, -⟩ := handleGroupRatio_auto s { info with autoGroup := some first } first rfl
  rw [attempts, retries_snapshot]
  exact ⟨_, rfl, hratio, rfl⟩

theorem tieredQuota_eq {info : RelayInfo} {snap : BillingSnapshot} (h : info.tieredBillingSnapshot = some snap)
    (surcharge cost : ℚ) : tieredQuota info surcharge (some cost) =
      some (roundAway (cost / 1000000 * snap.quotaPerUnit * snap.groupRatio + surcharge)) := by
  simp only [tieredQuota, tryTieredSettle, h, Option.map_some, composeTieredTextQuota, computeTieredQuotaWithRequest]
  split
  · rename_i hzero
    rw [hzero, add_zero]
  · rfl

theorem ratio_eq_of_rounded {unit a b : ℚ} (hunit : 0 < unit)
    (h : ∀ cost : ℚ, roundAway (cost / 1000000 * unit * a) = roundAway (cost / 1000000 * unit * b)) : a = b := by
  by_contra hne
  -- a cost for which the two products are two apart
  have hcost : 2 * 1000000 / unit / (b - a) / 1000000 * unit = 2 / (b - a) := by field_simp
  have hapart : 2 / (b - a) * a + 2 ≤ 2 / (b - a) * b := by
    have heq : 2 / (b - a) * b = 2 / (b - a) * a + 2 := by field_simp; ring
    exact heq.ge
  have heq := h (2 * 1000000 / unit / (b - a))
  rw [hcost] at heq
  exact roundAway_ne_of_two_le hapart heq

/-- A model billed by prices is settled with the ratio of the group that served the request, whatever groups were tried. One
billed by an expression is exactly if that ratio is the one of the group it was priced in. -/
theorem tiered_ratio_iff (exprString : String) (estimate : ℚ) (info : RelayInfo) (first : String) (retries : List String) :
    (∀ prices preConsumedTokens r u, ratioQuota (attempts s (.byRatio prices preConsumedTokens) info first retries) r prices u =
      calculateTextQuotaSummary r prices (s.ratio info.userGroup (retries.getLast?.getD first)).toNNRat u) ∧
    ((∀ surcharge cost : ℚ, tieredQuota (attempts s (.tiered exprString estimate) info first retries) surcharge (some cost) =
        some (roundAway (cost / 1000000 * s.quotaPerUnit *
          s.ratio info.userGroup (retries.getLast?.getD first) + surcharge))) ↔
      s.ratio info.userGroup (retries.getLast?.getD first) = s.ratio info.userGroup first) := by
  refine ⟨fun prices preConsumedTokens r u => by rw [ratioQuota, attempts_ratio], ?_⟩
  obtain ⟨snap, hsnap, hratio, hunit⟩ := attempts_snapshot s exprString estimate info first retries
  simp only [tieredQuota_eq hsnap, hratio, hunit, Option.some.injEq]
  constructor
  · intro h
    refine (ratio_eq_of_rounded s.quotaPerUnit_pos fun cost => ?_).symm
    simpa using h 0 cost
  · intro h surcharge cost
    rw [h]

/-- Priced in a group of ratio 1, served by a group of ratio 3. -/
theorem retried_group_underpaid : ∃ s : Settings, ∃ info : RelayInfo,
      tieredQuota (attempts s (.tiered "tier(\"a\", p * 2)" 2000000) info "default" ["vip"]) 0 (some 2000000) = some 1000000 ∧
      roundAway (2000000 / 1000000 * s.quotaPerUnit * s.ratio info.userGroup "vip") = 3000000 ∧
      (attempts s (.tiered "tier(\"a\", p * 2)" 2000000) info "default" ["vip"]).groupRatioInfo.groupRatio = 3 := by
  refine ⟨⟨fun group => if group = "vip" then 3 else 1, fun _ _ => none, 500000, by norm_num, false⟩,
    ⟨none, "default", "auto", ⟨1, -1, false⟩, false, 0, none, 0⟩, ?_, ?_, ?_⟩ <;> decide +kernel

end HotAI.Pricing
