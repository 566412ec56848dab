import HotAI.Lib.Threads

/-! # Channel scores (`pkg/routing`)

A channel's weight is scaled down by how slow it is against the fastest candidate, how dear against the cheapest, and how
often it failed of late. Floats are exact rationals; the integer part of each product is kept, and at least one of a
positive weight. -/
namespace HotAI.Routing
open List

structure ChannelData where
  channelID : ℤ
  baseWeight : ℤ
  responseTime : ℤ
  cost : ℚ
  successRate : ℚ
deriving DecidableEq, Repr

structure ChannelScore where
  channelID : ℤ
  finalWeight : ℤ
  baseWeight : ℤ
  latencyAdjustedWeight : ℤ
  costAdjustedWeight : ℤ
  successRateAdjustedWeight : ℤ
deriving DecidableEq, Repr

/-- The three settings as far as scoring reads them: a switch and a share of the weight. -/
structure FactorSetting where
  enabled : Bool
  weightFactor : ℚ
deriving DecidableEq, Repr

structure Engine where
  latencySetting : FactorSetting
  costSetting : FactorSetting
  successRateSetting : FactorSetting
deriving DecidableEq, Repr

/-- A factor outside `[0, 1]` is moved to the nearer end. -/
def clampFactor (factor : ℚ) : ℚ :=
  let low := if factor < 0 then 0 else factor
  if 1 < low then 1 else low

/-- `GetLatencyRoutingSetting` and its two siblings. -/
def FactorSetting.get (setting : FactorSetting) : FactorSetting :=
  { setting with weightFactor := clampFactor setting.weightFactor }

def newEngine (latency cost successRate : FactorSetting) : Engine :=
  ⟨latency.get, cost.get, successRate.get⟩

/-- `int(x)` for a float: the fraction is cut off towards zero. -/
def truncate (x : ℚ) : ℤ := x.num.tdiv x.den

/-- An idle weight stays idle, a factor without data changes nothing, a scaled weight does not fall below one. -/
def adjustedWeight (baseWeight : ℤ) (skip : Bool) (factor ratio : ℚ) : ℤ :=
  if baseWeight ≤ 0 then 0
  else if skip then baseWeight
  else
    let factor := clampFactor factor
    let adjusted := truncate (baseWeight * ((1 - factor) + factor * ratio))
    if adjusted < 1 then 1 else adjusted

def latencyAdjustedWeight (baseWeight responseTime fastestResponseTime : ℤ) (setting : FactorSetting) : ℤ :=
  adjustedWeight baseWeight (!setting.enabled || fastestResponseTime ≤ 0 || responseTime ≤ 0)
    setting.weightFactor (fastestResponseTime / responseTime)

def costAdjustedWeight (baseWeight : ℤ) (channelCost lowestCost : ℚ) (setting : FactorSetting) : ℤ :=
  let costRatio := lowestCost / channelCost
  adjustedWeight baseWeight (!setting.enabled || lowestCost ≤ 0 || channelCost ≤ 0)
    setting.weightFactor (if 1 < costRatio then 1 else costRatio)

def successRateAdjustedWeight (baseWeight : ℤ) (successRate : ℚ) (setting : FactorSetting) : ℤ :=
  adjustedWeight baseWeight (!setting.enabled || successRate < 0) setting.weightFactor successRate

def lowestPositive {α : Type*} [Zero α] [LinearOrder α] (values : List α) : α :=
  values.foldl (fun lowest value =>
    if value ≤ 0 then lowest else if lowest = 0 ∨ value < lowest then value else lowest) 0

def fastestPositiveResponseTime (channels : List ChannelData) : ℤ :=
  lowestPositive (channels.map ChannelData.responseTime)

def lowestPositiveCost (costs : List ℚ) : ℚ := lowestPositive costs

def Engine.score (e : Engine) (fastestRT : ℤ) (lowestCost : ℚ) (ch : ChannelData) : ChannelScore :=
  let latencyWeight := latencyAdjustedWeight ch.baseWeight ch.responseTime fastestRT e.latencySetting
  let costWeight := costAdjustedWeight latencyWeight ch.cost lowestCost e.costSetting
  let successRateWeight := successRateAdjustedWeight costWeight ch.successRate e.successRateSetting
  { channelID := ch.channelID
    finalWeight := successRateWeight
    baseWeight := ch.baseWeight
    latencyAdjustedWeight := latencyWeight
    costAdjustedWeight := costWeight
    successRateAdjustedWeight := successRateWeight }

def Engine.calculate (e : Engine) (channels : List ChannelData) : List ChannelScore :=
  let fastestRT := fastestPositiveResponseTime channels
  let lowestCost := lowestPositiveCost (channels.map ChannelData.cost)
  channels.map (e.score fastestRT lowestCost)

/-! ## A channel in use keeps a positive weight -/

theorem adjustedWeight_nonneg (baseWeight : ℤ) (skip : Bool) (factor ratio : ℚ) :
    0 ≤ adjustedWeight baseWeight skip factor ratio := by
  unfold adjustedWeight
  dsimp only
  split_ifs <;> omega

variable {factor ratio : ℚ} {baseWeight : ℤ} {skip : Bool} {ch : ChannelData}

theorem adjustedWeight_pos (h : 0 < baseWeight) (skip : Bool) (factor ratio : ℚ) :
    0 < adjustedWeight baseWeight skip factor ratio := by
  unfold adjustedWeight
  dsimp only
  split_ifs <;> omega

theorem score_finalWeight_nonneg (e : Engine) (fastestRT : ℤ) (lowestCost : ℚ) (ch : ChannelData) :
    0 ≤ (e.score fastestRT lowestCost ch).finalWeight :=
  adjustedWeight_nonneg ..

theorem score_finalWeight_pos (e : Engine) (fastestRT : ℤ) (lowestCost : ℚ)
    (h : 0 < ch.baseWeight) : 0 < (e.score fastestRT lowestCost ch).finalWeight := by
  have hlatency := adjustedWeight_pos h
  exact adjustedWeight_pos (adjustedWeight_pos (hlatency _ _ _) _ _ _) _ _ _

/-! ## Scores stay within the weight and follow the order of the candidates -/

theorem truncate_of_nonneg {x : ℚ} (h : 0 ≤ x) : truncate x = ⌊x⌋ := by
  rw [truncate, Rat.floor_def', Int.tdiv_eq_ediv_of_nonneg (Rat.num_nonneg.mpr h)]

def keptShare (factor ratio : ℚ) : ℚ := (1 - clampFactor factor) + clampFactor factor * ratio

theorem clampFactor_mem (factor : ℚ) : 0 ≤ clampFactor factor ∧ clampFactor factor ≤ 1 := by
  unfold clampFactor
  dsimp only
  split_ifs <;> constructor <;> linarith

theorem keptShare_nonneg (h : 0 ≤ ratio) : 0 ≤ keptShare factor ratio := by
  obtain ⟨hlow, hhigh⟩ := clampFactor_mem factor
  have := mul_nonneg hlow h
  unfold keptShare
  linarith

theorem keptShare_mono {factor low high : ℚ} (h : low ≤ high) : keptShare factor low ≤ keptShare factor high := by
  have := mul_le_mul_of_nonneg_left h (clampFactor_mem factor).1
  unfold keptShare
  linarith

theorem keptShare_one (factor : ℚ) : keptShare factor 1 = 1 := by
  unfold keptShare
  ring

theorem adjustedWeight_eq (h : 0 < baseWeight) (hratio : 0 ≤ ratio) :
    adjustedWeight baseWeight false factor ratio = max 1 ⌊baseWeight * keptShare factor ratio⌋ := by
  have hbase : (0 : ℚ) ≤ baseWeight := by exact_mod_cast h.le
  have hkept : 0 ≤ keptShare factor ratio := keptShare_nonneg hratio
  have hfloor := truncate_of_nonneg (mul_nonneg hbase hkept)
  unfold keptShare at hfloor
  simp only [adjustedWeight, if_neg (not_le.mpr h), Bool.false_eq_true, if_false, hfloor, keptShare]
  split_ifs <;> omega

theorem adjustedWeight_of_nonpos (h : baseWeight ≤ 0) : adjustedWeight baseWeight skip factor ratio = 0 :=
  if_pos h

theorem adjustedWeight_mono {low high : ℤ} {factor ratio ratio' : ℚ} (hbase : low ≤ high)
    (hratio : skip = false → 0 ≤ ratio ∧ ratio ≤ ratio') :
    adjustedWeight low skip factor ratio ≤ adjustedWeight high skip factor ratio' := by
  by_cases hlow : low ≤ 0
  · rw [adjustedWeight_of_nonpos hlow]
    exact adjustedWeight_nonneg ..
  have hpos : 0 < low := by omega
  cases skip with
  | true => simpa [adjustedWeight, hlow, (hpos.trans_le hbase).not_ge] using hbase
  | false =>
    obtain ⟨h0, hle⟩ := hratio rfl
    have hbase' : (low : ℚ) ≤ high := by exact_mod_cast hbase
    have hhigh : (0 : ℚ) ≤ high := by exact_mod_cast (hpos.trans_le hbase).le
    rw [adjustedWeight_eq hpos h0, adjustedWeight_eq (hpos.trans_le hbase) (h0.trans hle)]
    exact max_le_max_left 1 (Int.floor_le_floor
      (mul_le_mul hbase' (keptShare_mono hle) (keptShare_nonneg h0) hhigh))

theorem adjustedWeight_le (h : 0 < baseWeight) (hratio : skip = false → 0 ≤ ratio ∧ ratio ≤ 1) :
    adjustedWeight baseWeight skip factor ratio ≤ baseWeight := by
  calc adjustedWeight baseWeight skip factor ratio
      ≤ adjustedWeight baseWeight skip factor 1 := adjustedWeight_mono le_rfl hratio
    _ = baseWeight := by
      cases skip with
      | true => simp [adjustedWeight, h.not_ge]
      | false =>
        rw [adjustedWeight_eq h zero_le_one, keptShare_one, mul_one, Int.floor_intCast]
        omega

theorem lowestPositive_le {α : Type*} [Zero α] [LinearOrder α] {values : List α} {value : α}
    (hmem : value ∈ values) (hpos : 0 < value) :
    0 < lowestPositive values ∧ lowestPositive values ≤ value := by
  -- what has been found so far only gets smaller, and stays positive once it is
  have hfold : ∀ (values : List α) (lowest : α), 0 ≤ lowest →
      let least := values.foldl (fun lowest value =>
        if value ≤ 0 then lowest else if lowest = 0 ∨ value < lowest then value else lowest) lowest
      (0 < lowest → 0 < least ∧ least ≤ lowest) ∧ (value ∈ values → 0 < least ∧ least ≤ value) := by
    intro values
    induction values with
    | nil => exact fun lowest _ => ⟨fun h => ⟨h, le_rfl⟩, fun h => absurd h not_mem_nil⟩
    | cons first rest ih =>
      intro lowest h0
      simp only [foldl_cons, mem_cons]
      split_ifs with hskip hless
      · refine ⟨(ih lowest h0).1, fun h => (ih lowest h0).2 (h.resolve_left ?_)⟩
        rintro rfl
        exact hskip.not_gt hpos
      · obtain ⟨hfirst, hrest⟩ := ih first (not_le.mp hskip).le
        have hleast := hfirst (not_le.mp hskip)
        refine ⟨fun h => ⟨hleast.1, hleast.2.trans (hless.resolve_left h.ne').le⟩, fun h => ?_⟩
        rcases h with rfl | h
        · exact hleast
        · exact hrest h
      · obtain ⟨hlow, hrest⟩ := ih lowest h0
        refine ⟨hlow, fun h => h.elim ?_ hrest⟩
        rintro rfl
        have hleast := hlow (h0.lt_of_ne' (hless ∘ Or.inl))
        exact ⟨hleast.1, hleast.2.trans (not_lt.mp (hless ∘ Or.inr))⟩
  exact (hfold values 0 le_rfl).2 hmem


def ChannelData.RateValid (ch : ChannelData) : Prop :=
  ch.successRate < 0 ∨ 0 ≤ ch.successRate ∧ ch.successRate ≤ 1

structure ChannelData.Known (ch : ChannelData) : Prop where
  responseTime : 0 < ch.responseTime
  cost : 0 < ch.cost
  successRate : 0 ≤ ch.successRate

structure ChannelData.AtLeast (ch other : ChannelData) : Prop where
  baseWeight : other.baseWeight ≤ ch.baseWeight
  responseTime : ch.responseTime ≤ other.responseTime
  cost : ch.cost ≤ other.cost
  successRate : other.successRate ≤ ch.successRate

theorem ratio_mem {fastest time : ℚ} (h : 0 < fastest) (hle : fastest ≤ time) : 0 ≤ fastest / time ∧ fastest / time ≤ 1 :=
  ⟨div_nonneg h.le (h.le.trans hle), div_le_one_of_le₀ hle (h.le.trans hle)⟩

variable {e : Engine} {fastestRT : ℤ} {lowestCost : ℚ}

theorem score_le (hbase : 0 < ch.baseWeight) (hrate : ch.RateValid)
    (hfastest : 0 < ch.responseTime → fastestRT ≤ ch.responseTime) :
    (e.score fastestRT lowestCost ch).finalWeight ≤ ch.baseWeight := by
  have hlatency : latencyAdjustedWeight ch.baseWeight ch.responseTime fastestRT e.latencySetting ≤
      ch.baseWeight := by
    refine adjustedWeight_le hbase fun hskip => ?_
    simp only [Bool.or_eq_false_iff, decide_eq_false_iff_not, not_le] at hskip
    exact ratio_mem (by exact_mod_cast hskip.1.2) (by exact_mod_cast hfastest hskip.2)
  have hlatency_pos : 0 < latencyAdjustedWeight ch.baseWeight ch.responseTime fastestRT e.latencySetting :=
    adjustedWeight_pos hbase ..
  have hcost : costAdjustedWeight _ ch.cost lowestCost e.costSetting ≤ _ :=
    adjustedWeight_le hlatency_pos fun hskip => by
      simp only [Bool.or_eq_false_iff, decide_eq_false_iff_not, not_le] at hskip
      split_ifs with hratio
      · exact ⟨zero_le_one, le_rfl⟩
      · exact ⟨div_nonneg hskip.1.2.le hskip.2.le, not_lt.mp hratio⟩
  refine le_trans (adjustedWeight_le (adjustedWeight_pos hlatency_pos ..) fun hskip => ?_)
    (hcost.trans hlatency)
  simp only [Bool.or_eq_false_iff, decide_eq_false_iff_not] at hskip
  exact hrate.resolve_left hskip.2

theorem score_mono {ch other : ChannelData} (hch : ch.Known) (hother : other.Known) (h : ch.AtLeast other) :
    (e.score fastestRT lowestCost other).finalWeight ≤ (e.score fastestRT lowestCost ch).finalWeight := by
  have hlatency : latencyAdjustedWeight other.baseWeight other.responseTime fastestRT e.latencySetting ≤
      latencyAdjustedWeight ch.baseWeight ch.responseTime fastestRT e.latencySetting := by
    unfold latencyAdjustedWeight
    simp only [hch.responseTime.not_ge, hother.responseTime.not_ge, decide_false, Bool.or_false]
    refine adjustedWeight_mono h.baseWeight fun hskip => ?_
    simp only [Bool.or_eq_false_iff, decide_eq_false_iff_not, not_le] at hskip
    have hfast : (0 : ℚ) ≤ fastestRT := by exact_mod_cast hskip.2.le
    have hpos : (0 : ℚ) < ch.responseTime := by exact_mod_cast hch.responseTime
    have hle : (ch.responseTime : ℚ) ≤ other.responseTime := by exact_mod_cast h.responseTime
    exact ⟨div_nonneg hfast (hpos.le.trans hle), div_le_div_of_nonneg_left hfast hpos hle⟩
  have hcost : costAdjustedWeight (latencyAdjustedWeight other.baseWeight other.responseTime fastestRT
        e.latencySetting) other.cost lowestCost e.costSetting ≤
      costAdjustedWeight (latencyAdjustedWeight ch.baseWeight ch.responseTime fastestRT
        e.latencySetting) ch.cost lowestCost e.costSetting := by
    unfold costAdjustedWeight
    simp only [hch.cost.not_ge, hother.cost.not_ge, decide_false, Bool.or_false]
    refine adjustedWeight_mono hlatency fun hskip => ?_
    simp only [Bool.or_eq_false_iff, decide_eq_false_iff_not, not_le] at hskip
    have hle := div_le_div_of_nonneg_left hskip.2.le hch.cost h.cost
    have h0 := div_nonneg hskip.2.le hother.cost.le
    constructor <;> split_ifs <;> linarith
  change successRateAdjustedWeight _ _ _ ≤ successRateAdjustedWeight _ _ _
  unfold successRateAdjustedWeight
  simp only [hch.successRate.not_gt, hother.successRate.not_gt, decide_false, Bool.or_false]
  exact adjustedWeight_mono hcost fun _ => ⟨hother.successRate, h.successRate⟩

/-- Every channel gets a score, no more than its base weight and never less for a channel that is better in all respects. -/
theorem scores_bounded_and_monotone (e : Engine) (channels : List ChannelData) (hrates : ∀ ch ∈ channels, ch.RateValid) :
    (e.calculate channels).length = channels.length ∧ (∀ ch score, (ch, score) ∈ channels.zip (e.calculate channels) →
      (0 < ch.baseWeight → 1 ≤ score.finalWeight ∧ score.finalWeight ≤ ch.baseWeight) ∧
        (ch.baseWeight ≤ 0 → score.finalWeight = 0)) ∧
      ∀ ch score other score', (ch, score) ∈ channels.zip (e.calculate channels) →
        (other, score') ∈ channels.zip (e.calculate channels) →
        ch.Known → other.Known → ch.AtLeast other → score'.finalWeight ≤ score.finalWeight := by
  have hscore : ∀ {ch score}, (ch, score) ∈ channels.zip (e.calculate channels) → ch ∈ channels ∧
      score = e.score (fastestPositiveResponseTime channels)
        (lowestPositiveCost (channels.map ChannelData.cost)) ch := by
    intro ch score hmem
    rw [Engine.calculate, ← map_prod_left_eq_zip] at hmem
    obtain ⟨ch', hch, heq⟩ := mem_map.mp hmem
    cases heq
    exact ⟨hch, rfl⟩
  refine ⟨length_map _, ?_, ?_⟩
  · intro ch score hmem
    obtain ⟨hch, rfl⟩ := hscore hmem
    refine ⟨fun hbase => ⟨score_finalWeight_pos e _ _ hbase, ?_⟩, fun hbase => ?_⟩
    · refine score_le hbase (hrates ch hch) fun htime => ?_
      exact (lowestPositive_le (mem_map_of_mem hch) htime).2
    · exact adjustedWeight_of_nonpos (adjustedWeight_of_nonpos (adjustedWeight_of_nonpos hbase).le).le
  · intro ch score other score' hmem hmem' hknown hknown' hle
    obtain ⟨-, rfl⟩ := hscore hmem
    obtain ⟨-, rfl⟩ := hscore hmem'
    exact score_mono hknown hknown' hle

def twoCandidates : List ChannelData := [⟨1, 100, 200, 2, 1 / 2⟩, ⟨2, 50, 400, 4, -1⟩]

theorem scores_of_two_candidates : (∀ ch ∈ twoCandidates, ch.RateValid) ∧ ∀ ch score,
    (ch, score) ∈ twoCandidates.zip (Engine.calculate ⟨⟨true, 1⟩, ⟨true, 1 / 2⟩, ⟨true, 2⟩⟩ twoCandidates) →
      (0 < ch.baseWeight → 1 ≤ score.finalWeight ∧ score.finalWeight ≤ ch.baseWeight) ∧
        (ch.baseWeight ≤ 0 → score.finalWeight = 0) := by
  have hrates : ∀ ch ∈ twoCandidates, ch.RateValid := by
    simp only [twoCandidates, mem_cons, not_mem_nil, or_false]
    rintro ch (rfl | rfl) <;> norm_num [ChannelData.RateValid]
  exact ⟨hrates, (scores_bounded_and_monotone _ twoCandidates hrates).2.1⟩

end HotAI.Routing
