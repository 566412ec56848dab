import HotAI.Lib.GoStrings
import HotAI.Lib.Rounding
import Mathlib.Data.NNRat.Floor
import Mathlib.Algebra.BigOperators.Group.List.Basic
import Mathlib.Algebra.Order.BigOperators.Group.List
import Mathlib.Tactic.Positivity
import Mathlib.Tactic.Ring

/-! # The quota of a text request billed by ratios

Prompt tokens that were cached, written to a cache, images or audio are taken out of the prompt tokens and charged at their
own ratios, without a look at whether that many are there. Ratios and prices are non-negative by type, amounts exact
rationals. -/
namespace HotAI.Pricing
open HotAI.Lib

/-- Of `dto.Usage`. The cost is an `any`: what is not a number counts as absent. -/
structure Usage where
  promptTokens : ℕ
  completionTokens : ℕ
  cachedTokens : ℕ
  cachedCreationTokens : ℕ
  claudeCacheCreation5mTokens : ℕ
  claudeCacheCreation1hTokens : ℕ
  imageTokens : ℕ
  audioTokens : ℕ
  usageSemantic : String
  usageSource : String
  cost : Option ℚ

structure PriceData where
  usePrice : Bool
  modelPrice : ℚ≥0
  modelRatio : ℚ≥0
  completionRatio : ℚ≥0
  cacheRatio : ℚ≥0
  cacheCreationRatio : ℚ≥0
  cacheCreation5mRatio : ℚ≥0
  cacheCreation1hRatio : ℚ≥0
  imageRatio : ℚ≥0
  otherRatios : List ℚ≥0

structure ToolCalls where
  /-- `BuiltInTools` of `ResponsesUsageInfo`: the calls of `web_search_preview` and of `file_search`. -/
  responsesUsage : Option (ℕ × ℕ)
  claudeWebSearchRequests : ℕ
  imageGenerationCallPrice : Option ℚ≥0
  webSearchPreviewPrice : ℚ≥0
  webSearchPrice : ℚ≥0
  fileSearchPrice : ℚ≥0

structure TextRequest where
  originModelName : String
  /-- `GetFinalRequestRelayFormat() == RelayFormatClaude` -/
  claudeFormat : Bool
  /-- `ChannelMeta` is set and its type is OpenRouter. -/
  openRouter : Bool
  tools : ToolCalls
  defaultModelRatio : String → Option ℚ≥0
  quotaPerUnit : ℚ≥0

variable (r : TextRequest) (p : PriceData) (groupRatio : ℚ≥0) (u : Usage)

def usageSemanticFromUsage : String :=
  if u.usageSemantic ≠ "" then u.usageSemantic else if r.claudeFormat then "anthropic" else "openai"

def isClaudeUsageSemantic : Bool := usageSemanticFromUsage r u = "anthropic"

def isLegacyClaudeDerivedOpenAIUsage : Bool :=
  if r.claudeFormat then false
  else if u.usageSource ≠ "" || u.usageSemantic ≠ "" then false
  else u.claudeCacheCreation5mTokens > 0 || u.claudeCacheCreation1hTokens > 0

def hasCustomModelRatio (currentRatio : ℚ≥0) : Bool :=
  match r.defaultModelRatio r.originModelName with
  | none => true
  | some defaultRatio => currentRatio ≠ defaultRatio

def calcOpenRouterCacheCreateTokens : ℤ :=
  if p.cacheCreationRatio = 1 then 0
  else
    let quotaPrice : ℚ := p.modelRatio / r.quotaPerUnit
    let promptCacheCreatePrice := quotaPrice * p.cacheCreationRatio
    let promptCacheReadPrice := quotaPrice * p.cacheRatio
    let completionPrice := quotaPrice * p.completionRatio
    roundAway ((u.cost.getD 0 - u.promptTokens * quotaPrice + u.cachedTokens * (quotaPrice - promptCacheReadPrice) -
      u.completionTokens * completionPrice) / (promptCacheCreatePrice - quotaPrice))

def getGeminiInputAudioPricePerMillionTokens (modelName : String) : ℚ≥0 :=
  if hasPrefix modelName "gemini-2.5-flash-preview-native-audio" then 3
  else if hasPrefix modelName "gemini-2.5-flash-preview-lite" then 1 / 2
  else if hasPrefix modelName "gemini-2.5-flash-preview" then 1
  else if hasPrefix modelName "gemini-2.5-flash" then 1
  else if hasPrefix modelName "gemini-2.0-flash" then 7 / 10
  else if hasPrefix modelName "gemini-robotics-er-1.5" then 1
  else 0

def calculateTextToolCallSurcharge : ℚ :=
  let webSearch : ℚ := match r.tools.responsesUsage with
    | some (calls, _) => r.tools.webSearchPreviewPrice * calls / 1000 * groupRatio * r.quotaPerUnit
    | none =>
        if hasSuffix r.originModelName "search-preview" then
          r.tools.webSearchPreviewPrice / 1000 * groupRatio * r.quotaPerUnit
        else 0
  let claudeWebSearch : ℚ :=
    r.tools.webSearchPrice / 1000 * groupRatio * r.quotaPerUnit * r.tools.claudeWebSearchRequests
  let fileSearch : ℚ := match r.tools.responsesUsage with
    | some (_, calls) => r.tools.fileSearchPrice * calls / 1000 * groupRatio * r.quotaPerUnit
    | none => 0
  let imageGeneration : ℚ := match r.tools.imageGenerationCallPrice with
    | some price => price * groupRatio * r.quotaPerUnit
    | none => 0
  webSearch + claudeWebSearch + fileSearch + imageGeneration

/-- The summary's prompt and cache creation tokens. OpenRouter counts cached tokens into a Claude prompt; the creation tokens
are computed from the cost. -/
def summaryTokens : ℤ × ℤ :=
  if r.openRouter && isClaudeUsageSemantic r u then
    let promptTokens : ℤ := u.promptTokens - u.cachedTokens
    let isUsingCustomSettings := p.usePrice || hasCustomModelRatio r p.modelRatio
    -- `usage.Cost != 0` compares an `any` with an `int`: it is true of no cost and of the cost 0.0
    let cacheCreationTokens : ℤ :=
      if u.cachedCreationTokens = 0 ∧ p.cacheCreationRatio ≠ 1 ∧ !isUsingCustomSettings then
        let maybeCacheCreationTokens := calcOpenRouterCacheCreateTokens r p u
        if maybeCacheCreationTokens ≥ 0 ∧ promptTokens ≥ maybeCacheCreationTokens then maybeCacheCreationTokens
        else u.cachedCreationTokens
      else u.cachedCreationTokens
    (promptTokens - cacheCreationTokens, cacheCreationTokens)
  else (u.promptTokens, u.cachedCreationTokens)

def cacheInPrompt : Bool := !isClaudeUsageSemantic r u && !isLegacyClaudeDerivedOpenAIUsage r u

def hasSplitCacheCreationTokens : Bool := u.claudeCacheCreation5mTokens > 0 || u.claudeCacheCreation1hTokens > 0

def hasPricedAudio : Bool := u.audioTokens ≠ 0 && getGeminiInputAudioPricePerMillionTokens r.originModelName > 0

def baseTokens : ℤ :=
  let (promptTokens, cacheCreationTokens) := summaryTokens r p u
  let base := promptTokens
  let base := if u.cachedTokens ≠ 0 ∧ cacheInPrompt r u then base - u.cachedTokens else base
  let base :=
    if (cacheCreationTokens ≠ 0 ∨ hasSplitCacheCreationTokens u) ∧ cacheInPrompt r u then base - cacheCreationTokens
    else base
  let base := if u.imageTokens ≠ 0 then base - u.imageTokens else base
  if hasPricedAudio r u then base - u.audioTokens else base

def cachedTokensWithRatio : ℚ := if u.cachedTokens ≠ 0 then u.cachedTokens * p.cacheRatio else 0

def cachedCreationTokensWithRatio : ℚ :=
  let cacheCreationTokens := (summaryTokens r p u).2
  if cacheCreationTokens ≠ 0 ∨ hasSplitCacheCreationTokens u then
    if cacheInPrompt r u then cacheCreationTokens * p.cacheCreationRatio
    else
      let remaining := cacheCreationTokens - u.claudeCacheCreation5mTokens - u.claudeCacheCreation1hTokens
      let remaining := if remaining < 0 then 0 else remaining
      remaining * p.cacheCreationRatio + u.claudeCacheCreation5mTokens * p.cacheCreation5mRatio +
        u.claudeCacheCreation1hTokens * p.cacheCreation1hRatio
  else 0

def imageTokensWithRatio : ℚ := if u.imageTokens ≠ 0 then u.imageTokens * p.imageRatio else 0

def audioInputQuota : ℚ :=
  if hasPricedAudio r u then
    getGeminiInputAudioPricePerMillionTokens r.originModelName / 1000000 * u.audioTokens * groupRatio * r.quotaPerUnit
  else 0

def promptQuota : ℚ :=
  baseTokens r p u + cachedTokensWithRatio p u + imageTokensWithRatio p u + cachedCreationTokensWithRatio r p u

def quotaCalculateDecimal : ℚ :=
  let quota : ℚ :=
    if p.usePrice then p.modelPrice * r.quotaPerUnit * groupRatio + calculateTextToolCallSurcharge r groupRatio
    else
      (promptQuota r p u + u.completionTokens * p.completionRatio) * (p.modelRatio * groupRatio) +
        calculateTextToolCallSurcharge r groupRatio + audioInputQuota r groupRatio u
  p.otherRatios.foldl (fun (quota : ℚ) (otherRatio : ℚ≥0) => quota * otherRatio) quota

/-- The `Quota` of `calculateTextQuotaSummary`. -/
def calculateTextQuotaSummary : ℤ :=
  let ratio := p.modelRatio * groupRatio
  let decimal := quotaCalculateDecimal r p groupRatio u
  let decimal := if !p.usePrice && ratio ≠ 0 && decimal ≤ 0 then 1 else decimal
  let quota := roundAway decimal
  if u.promptTokens + u.completionTokens = 0 then 0
  else if ratio ≠ 0 ∧ quota = 0 then 1
  else quota

@[simps]
def Usage.withoutPrompt (u : Usage) : Usage :=
  { u with
    promptTokens := 0
    cachedTokens := 0
    cachedCreationTokens := 0
    claudeCacheCreation5mTokens := 0
    claudeCacheCreation1hTokens := 0
    imageTokens := 0
    audioTokens := 0 }

/-! ## The parts that are not about the prompt -/

theorem surcharge_linear :
    calculateTextToolCallSurcharge r groupRatio = groupRatio * calculateTextToolCallSurcharge r 1 := by
  unfold calculateTextToolCallSurcharge
  cases r.tools.responsesUsage <;> cases r.tools.imageGenerationCallPrice <;> dsimp only <;>
    (try split) <;> push_cast <;> ring

theorem surcharge_nonneg : 0 ≤ calculateTextToolCallSurcharge r groupRatio := by
  unfold calculateTextToolCallSurcharge
  cases r.tools.responsesUsage <;> cases r.tools.imageGenerationCallPrice <;> dsimp only <;>
    (try split) <;> positivity

theorem audioInputQuota_linear : audioInputQuota r groupRatio u = groupRatio * audioInputQuota r 1 u := by
  unfold audioInputQuota
  split
  · ring
  · rw [mul_zero]

theorem foldl_otherRatios (otherRatios : List ℚ≥0) (quota : ℚ) :
    otherRatios.foldl (fun (quota : ℚ) (otherRatio : ℚ≥0) => quota * otherRatio) quota = quota * otherRatios.prod := by
  induction otherRatios generalizing quota with
  | nil => simp
  | cons otherRatio otherRatios ih =>
    rw [List.foldl_cons, ih, List.prod_cons]
    push_cast
    ring

/-! ## The part that is -/

def promptCharge : ℚ := promptQuota r p u * p.modelRatio + audioInputQuota r 1 u

def restCharge : ℚ := u.completionTokens * p.completionRatio * p.modelRatio + calculateTextToolCallSurcharge r 1

theorem restCharge_nonneg : 0 ≤ restCharge r p u := by
  have hsurcharge := surcharge_nonneg r 1
  unfold restCharge
  positivity

theorem quotaCalculateDecimal_eq (h : p.usePrice = false) : quotaCalculateDecimal r p groupRatio u =
    groupRatio * p.otherRatios.prod * (promptCharge r p u + restCharge r p u) := by
  rw [quotaCalculateDecimal, foldl_otherRatios, h, surcharge_linear, audioInputQuota_linear]
  unfold promptCharge restCharge
  simp only [Bool.false_eq_true, if_false]
  ring

theorem summaryTokens_withoutPrompt : summaryTokens r p u.withoutPrompt = (0, 0) := by
  unfold summaryTokens
  split
  · simp only [Usage.withoutPrompt_promptTokens, Usage.withoutPrompt_cachedTokens,
      Usage.withoutPrompt_cachedCreationTokens, Nat.cast_zero, sub_zero, ge_iff_le]
    -- an amount computed back from the cost is used only if it is not above the prompt tokens, which are 0
    split_ifs with _ hmaybe
    · rw [le_antisymm hmaybe.2 hmaybe.1, sub_zero]
    · rfl
    · rfl
  · rfl

theorem promptCharge_withoutPrompt : promptCharge r p u.withoutPrompt = 0 := by
  have htokens := summaryTokens_withoutPrompt r p u
  have haudio : hasPricedAudio r u.withoutPrompt = false := by simp [hasPricedAudio]
  have hbase : baseTokens r p u.withoutPrompt = 0 := by simp [baseTokens, htokens, haudio, hasSplitCacheCreationTokens]
  simp [promptCharge, promptQuota, hbase, cachedTokensWithRatio, cachedCreationTokensWithRatio, imageTokensWithRatio,
    hasSplitCacheCreationTokens, htokens, haudio, audioInputQuota]

theorem restCharge_withoutPrompt : restCharge r p u.withoutPrompt = restCharge r p u := rfl

theorem calculateTextQuotaSummary_eq (hprice : p.usePrice = false) (htotal : 0 < u.completionTokens) :
    calculateTextQuotaSummary r p groupRatio u =
      if p.modelRatio * groupRatio = 0 then roundAway (quotaCalculateDecimal r p groupRatio u)
      else max 1 (roundAway (quotaCalculateDecimal r p groupRatio u)) := by
  have hsome : u.promptTokens + u.completionTokens ≠ 0 := by omega
  unfold calculateTextQuotaSummary
  generalize quotaCalculateDecimal r p groupRatio u = x
  by_cases hratio : p.modelRatio * groupRatio = 0
  · rw [if_neg hsome]
    simp [hratio]
  · simp only [hprice, hratio, hsome, Bool.not_false, ne_eq, not_false_eq_true, decide_true, Bool.and_self,
      Bool.true_and, decide_eq_true_eq, if_false, true_and]
    by_cases hx : x ≤ 0
    · have hround : roundAway x ≤ 0 := (roundAway_mono hx).trans (by decide +kernel)
      have hone : roundAway 1 = 1 := by decide +kernel
      rw [if_pos hx, hone, if_neg (by decide), max_eq_left (by omega)]
    · have hround := roundAway_nonneg (not_le.mp hx).le
      rw [if_neg hx]
      split <;> omega

theorem audioInputQuota_nonneg : 0 ≤ audioInputQuota r groupRatio u := by
  unfold audioInputQuota
  split <;> positivity

theorem promptCharge_nonneg_of_free (h : p.modelRatio = 0) : 0 ≤ promptCharge r p u := by
  rw [promptCharge, h, NNRat.cast_zero, mul_zero, zero_add]
  exact audioInputQuota_nonneg r 1 u

/-! ## What is taken out of the prompt -/

/-- The usage counts the tokens of the cache among the prompt tokens. -/
def countsCache : Bool := cacheInPrompt r u || r.openRouter && isClaudeUsageSemantic r u

/-- The tokens that are not charged as prompt tokens though they are counted as such. -/
def takenOut : ℤ :=
  (if countsCache r u then u.cachedTokens + (summaryTokens r p u).2 else 0) + u.imageTokens +
    if 0 < getGeminiInputAudioPricePerMillionTokens r.originModelName then (u.audioTokens : ℤ) else 0

/-- What the cache and the images cost, in prompt tokens. -/
def ownTokens : ℚ :=
  u.cachedTokens * p.cacheRatio + u.imageTokens * p.imageRatio +
    if cacheInPrompt r u then ((summaryTokens r p u).2 : ℚ) * p.cacheCreationRatio
    else (max 0 ((summaryTokens r p u).2 - u.claudeCacheCreation5mTokens - u.claudeCacheCreation1hTokens) : ℤ) *
        (p.cacheCreationRatio : ℚ) + u.claudeCacheCreation5mTokens * p.cacheCreation5mRatio +
      u.claudeCacheCreation1hTokens * p.cacheCreation1hRatio

/-- The prompt tokens, with what is charged instead, make up for what is taken out of them. -/
def Covered : Prop :=
  takenOut r p u * (p.modelRatio : ℚ) ≤ (u.promptTokens + ownTokens r p u) * p.modelRatio +
    getGeminiInputAudioPricePerMillionTokens r.originModelName / 1000000 * u.audioTokens * r.quotaPerUnit

theorem summaryTokens_fst : (summaryTokens r p u).1 =
    u.promptTokens - if r.openRouter && isClaudeUsageSemantic r u then u.cachedTokens + (summaryTokens r p u).2 else 0 := by
  unfold summaryTokens
  split
  · exact sub_sub _ _ _
  · exact (sub_zero _).symm

theorem baseTokens_eq : baseTokens r p u = u.promptTokens - takenOut r p u := by
  have hcached (base : ℤ) : (if u.cachedTokens ≠ 0 ∧ cacheInPrompt r u then base - u.cachedTokens else base) =
      base - if cacheInPrompt r u then (u.cachedTokens : ℤ) else 0 := by
    cases cacheInPrompt r u <;> by_cases h : u.cachedTokens = 0 <;> simp [h]
  have hcreation (base tokens : ℤ) : (if (tokens ≠ 0 ∨ hasSplitCacheCreationTokens u) ∧ cacheInPrompt r u then
      base - tokens else base) = base - if cacheInPrompt r u then tokens else 0 := by
    cases cacheInPrompt r u <;> by_cases h : tokens = 0 <;> simp [h]
  have himage (base : ℤ) : (if u.imageTokens ≠ 0 then base - u.imageTokens else base) = base - u.imageTokens := by
    by_cases h : u.imageTokens = 0 <;> simp [h]
  have haudio (base : ℤ) : (if hasPricedAudio r u then base - u.audioTokens else base) =
      base - if 0 < getGeminiInputAudioPricePerMillionTokens r.originModelName then (u.audioTokens : ℤ) else 0 := by
    unfold hasPricedAudio
    by_cases h : u.audioTokens = 0
    · simp [h]
    · by_cases hprice : 0 < getGeminiInputAudioPricePerMillionTokens r.originModelName <;> simp [h, hprice]
  unfold baseTokens takenOut countsCache
  simp only [hcached, hcreation, himage, haudio, summaryTokens_fst]
  -- a cache is counted by the semantic or by OpenRouter, never by both
  cases hsemantic : isClaudeUsageSemantic r u with
  | true =>
    have hcache : cacheInPrompt r u = false := by rw [cacheInPrompt, hsemantic]; rfl
    rw [hcache, Bool.false_or, if_neg Bool.false_ne_true, if_neg Bool.false_ne_true]
    ring
  | false =>
    rw [Bool.and_false, Bool.or_false, if_neg Bool.false_ne_true]
    split <;> ring

theorem cachedCreationTokensWithRatio_eq : cachedCreationTokensWithRatio r p u =
    if cacheInPrompt r u then ((summaryTokens r p u).2 : ℚ) * p.cacheCreationRatio
    else (max 0 ((summaryTokens r p u).2 - u.claudeCacheCreation5mTokens - u.claudeCacheCreation1hTokens) : ℤ) *
        (p.cacheCreationRatio : ℚ) + u.claudeCacheCreation5mTokens * p.cacheCreation5mRatio +
      u.claudeCacheCreation1hTokens * p.cacheCreation1hRatio := by
  have hclamp (remaining : ℤ) : (if remaining < 0 then 0 else remaining) = max 0 remaining := by
    split <;> omega
  unfold cachedCreationTokensWithRatio hasSplitCacheCreationTokens
  simp only [hclamp]
  split
  · rfl
  · next hnone =>
    simp only [Bool.or_eq_true, decide_eq_true_eq, not_or, not_not, not_lt, Nat.le_zero] at hnone
    simp [hnone.1, hnone.2.1, hnone.2.2]

theorem promptQuota_eq : promptQuota r p u = u.promptTokens - takenOut r p u + ownTokens r p u := by
  have hcached : cachedTokensWithRatio p u = u.cachedTokens * p.cacheRatio := by
    unfold cachedTokensWithRatio
    by_cases h : u.cachedTokens = 0 <;> simp [h]
  have himage : imageTokensWithRatio p u = u.imageTokens * p.imageRatio := by
    unfold imageTokensWithRatio
    by_cases h : u.imageTokens = 0 <;> simp [h]
  rw [promptQuota, baseTokens_eq, hcached, himage, cachedCreationTokensWithRatio_eq, ownTokens]
  push_cast
  ring

theorem audioInputQuota_eq : audioInputQuota r 1 u =
    getGeminiInputAudioPricePerMillionTokens r.originModelName / 1000000 * u.audioTokens * r.quotaPerUnit := by
  unfold audioInputQuota hasPricedAudio
  by_cases h : u.audioTokens = 0
  · simp [h]
  · by_cases hprice : getGeminiInputAudioPricePerMillionTokens r.originModelName = 0
    · simp [hprice]
    · simp [h, pos_iff_ne_zero.mpr hprice]

theorem covered_iff : Covered r p u ↔ 0 ≤ promptCharge r p u := by
  rw [Covered, promptCharge, promptQuota_eq, audioInputQuota_eq, ← sub_nonneg]
  refine iff_of_eq (congrArg _ ?_)
  ring

theorem summaryTokens_snd_nonneg : 0 ≤ (summaryTokens r p u).2 := by
  unfold summaryTokens
  split
  · dsimp only
    split_ifs with _ hmaybe
    · exact hmaybe.1
    · exact Int.natCast_nonneg _
    · exact Int.natCast_nonneg _
  · exact Int.natCast_nonneg _

theorem covered_of_takenOut_le (h : takenOut r p u ≤ u.promptTokens) : Covered r p u := by
  have htaken : (takenOut r p u : ℚ) ≤ u.promptTokens := by exact_mod_cast h
  have hcreation : (0 : ℚ) ≤ (summaryTokens r p u).2 := by exact_mod_cast summaryTokens_snd_nonneg r p u
  have hown : 0 ≤ ownTokens r p u := by
    unfold ownTokens
    split <;> positivity
  have hle := mul_le_mul_of_nonneg_right (htaken.trans (le_add_of_nonneg_right hown)) p.modelRatio.coe_nonneg
  unfold Covered
  exact hle.trans (le_add_of_nonneg_right (by positivity))

theorem exists_cheaper {factor charge rest : ℚ} (hfactor : 0 < factor) (hcharge : charge < 0) (hrest : 0 < rest) :
    ∃ groupRatio : ℚ≥0, groupRatio ≠ 0 ∧ max 1 (roundAway (groupRatio * factor * (charge + rest))) <
      max 1 (roundAway (groupRatio * factor * rest)) := by
  have hunit : 0 < factor * min (-charge) rest := mul_pos hfactor (lt_min (neg_pos.mpr hcharge) hrest)
  obtain ⟨n, hn⟩ := exists_nat_ge (2 / (factor * min (-charge) rest))
  rw [div_le_iff₀ hunit, ← mul_assoc] at hn
  have hscale : (0 : ℚ) ≤ n * factor := mul_nonneg n.cast_nonneg hfactor.le
  have hneg : 2 ≤ n * factor * -charge := hn.trans (mul_le_mul_of_nonneg_left (min_le_left _ _) hscale)
  have hpos : 2 ≤ n * factor * rest := hn.trans (mul_le_mul_of_nonneg_left (min_le_right _ _) hscale)
  have hne : n ≠ 0 := by
    rintro rfl
    norm_num at hpos
  have happart : n * factor * (charge + rest) + 2 ≤ n * factor * rest := by linarith
  have hlt := roundAway_lt_of_two_le happart
  have htwo : 2 ≤ roundAway (n * factor * rest) := (by decide +kernel : (2 : ℤ) ≤ roundAway 2).trans (roundAway_mono hpos)
  refine ⟨n, Nat.cast_ne_zero.mpr hne, ?_⟩
  rw [NNRat.cast_natCast]
  omega

/-- The usage with its prompt costs at least what it costs without, in every group, exactly if the prompt covers what is taken
out of it: unless nothing but the prompt is billed, or a factor 0 makes the request free. -/
theorem prompt_never_cheaper_iff (hprice : p.usePrice = false) (hcompletion : 0 < u.completionTokens) : (∀ groupRatio : ℚ≥0,
        calculateTextQuotaSummary r p groupRatio u.withoutPrompt ≤ calculateTextQuotaSummary r p groupRatio u) ↔
      Covered r p u ∨ restCharge r p u = 0 ∨ p.otherRatios.prod = 0 := by
  rw [covered_iff]
  simp only [calculateTextQuotaSummary_eq r p _ u hprice hcompletion,
    calculateTextQuotaSummary_eq r p _ u.withoutPrompt hprice hcompletion,
    quotaCalculateDecimal_eq r p _ _ hprice, promptCharge_withoutPrompt, restCharge_withoutPrompt, zero_add]
  constructor
  · intro h
    by_contra! hnot
    obtain ⟨hcharge, hrest, hfactor⟩ := hnot
    have hfactor : (0 : ℚ) < p.otherRatios.prod := by positivity
    have hrest : 0 < restCharge r p u := lt_of_le_of_ne (restCharge_nonneg r p u) hrest.symm
    have hratio : p.modelRatio ≠ 0 := fun hfree => hcharge.not_ge (promptCharge_nonneg_of_free r p u hfree)
    obtain ⟨groupRatio, hgroup, hlt⟩ := exists_cheaper hfactor hcharge hrest
    have hle := h groupRatio
    rw [if_neg (mul_ne_zero hratio hgroup), if_neg (mul_ne_zero hratio hgroup)] at hle
    exact hlt.not_ge hle
  · intro h groupRatio
    have hmono : 0 ≤ promptCharge r p u ∨ p.otherRatios.prod = 0 ∨ groupRatio = 0 →
        roundAway (groupRatio * p.otherRatios.prod * restCharge r p u) ≤
          roundAway (groupRatio * p.otherRatios.prod * (promptCharge r p u + restCharge r p u)) := by
      rintro (hcharge | hfactor | hgroup)
      · exact roundAway_mono (mul_le_mul_of_nonneg_left (by linarith) (by positivity))
      · simp [hfactor]
      · simp [hgroup]
    by_cases hratio : p.modelRatio * groupRatio = 0
    · rw [if_pos hratio, if_pos hratio]
      rcases mul_eq_zero.mp hratio with hfree | hgroup
      · exact hmono (.inl (promptCharge_nonneg_of_free r p u hfree))
      · exact hmono (.inr (.inr hgroup))
    · rw [if_neg hratio, if_neg hratio]
      rcases h with hcharge | hrest | hfactor
      · exact max_le_max_left 1 (hmono (.inl hcharge))
      · -- without its prompt the request costs the least a request can cost
        rw [hrest, mul_zero]
        exact max_le (le_max_left _ _) ((by decide +kernel : roundAway 0 ≤ 1).trans (le_max_left _ _))
      · exact max_le_max_left 1 (hmono (.inr (.inl hfactor)))

/-- Fifty tokens reported as cached of a prompt of ten. -/
theorem overreported_cache_cheaper : ∃ (r : TextRequest) (p : PriceData) (u : Usage),
    p.usePrice = false ∧ u.promptTokens = 10 ∧ u.cachedTokens = 50 ∧ u.completionTokens = 30 ∧
      calculateTextQuotaSummary r p 1 u = 1 ∧ calculateTextQuotaSummary r p 1 u.withoutPrompt = 30 := by
  refine ⟨⟨"gpt-4o", false, false, ⟨none, 0, none, 0, 0, 0⟩, fun _ => none, 500000⟩,
    ⟨false, 0, 1, 1, 1 / 10, 1, 1, 1, 1, []⟩, ⟨10, 30, 50, 0, 0, 0, 0, 0, "", "", none⟩, ?_⟩
  decide +kernel

/-- Four tokens reported as cached of a prompt of ten. -/
theorem reported_cache_never_cheaper : ∃ (r : TextRequest) (p : PriceData) (u : Usage),
    p.usePrice = false ∧ 0 < u.completionTokens ∧ u.promptTokens = 10 ∧ u.cachedTokens = 4 ∧ ∀ groupRatio : ℚ≥0,
      calculateTextQuotaSummary r p groupRatio u.withoutPrompt ≤ calculateTextQuotaSummary r p groupRatio u := by
  refine ⟨⟨"gpt-4o", false, false, ⟨none, 0, none, 0, 0, 0⟩, fun _ => none, 500000⟩,
    ⟨false, 0, 1, 1, 1 / 10, 1, 1, 1, 1, []⟩, ⟨10, 30, 4, 0, 0, 0, 0, 0, "", "", none⟩, rfl, by decide, rfl, rfl, ?_⟩
  refine (prompt_never_cheaper_iff _ _ _ rfl (by decide)).mpr (.inl (covered_of_takenOut_le _ _ _ ?_))
  decide +kernel

end HotAI.Pricing
