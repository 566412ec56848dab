import HotAI.Pricing.TextQuota

/-! # The token counts a billing expression sees

`FormatClaudeResponseInfo` gathers the counts of a Claude stream, `BuildTieredTokenParams` cuts a usage into the variables
of a billing expression. Claude reports tokens written to a cache as a total and split by how long they are kept. Counts are
exact; a `float64` holds every one below `2^53`. -/
namespace HotAI.Pricing
open List

/-- `dto.Usage` with the counts that only the tiered path reads. -/
structure TokenUsage extends Usage where
  completionImageTokens : ℕ
  completionAudioTokens : ℕ
  totalTokens : ℕ

def TokenUsage.empty : TokenUsage where
  promptTokens := 0
  completionTokens := 0
  cachedTokens := 0
  cachedCreationTokens := 0
  claudeCacheCreation5mTokens := 0
  claudeCacheCreation1hTokens := 0
  imageTokens := 0
  audioTokens := 0
  usageSemantic := ""
  usageSource := ""
  cost := none
  completionImageTokens := 0
  completionAudioTokens := 0
  totalTokens := 0

/-- `dto.ClaudeUsage` as it is read from an event: a count that is absent is 0, a missing split is `none`. -/
structure ClaudeUsage where
  inputTokens : ℕ
  cacheCreationInputTokens : ℕ
  cacheReadInputTokens : ℕ
  outputTokens : ℕ
  /-- `Ephemeral5mInputTokens` and `Ephemeral1hInputTokens` -/
  cacheCreation : Option (ℕ × ℕ)
deriving DecidableEq

def ClaudeUsage.getCacheCreation5mTokens (u : ClaudeUsage) : ℕ := (u.cacheCreation.map Prod.fst).getD 0

def ClaudeUsage.getCacheCreation1hTokens (u : ClaudeUsage) : ℕ := (u.cacheCreation.map Prod.snd).getD 0

structure ClaudeMessage where
  id : String
  model : String
  usage : Option ClaudeUsage
deriving DecidableEq

structure ClaudeDelta where
  text : Option String
  thinking : Option String
deriving DecidableEq

/-- Of `dto.ClaudeResponse`, one event of a stream. -/
structure ClaudeResponse where
  type : String
  message : Option ClaudeMessage
  delta : Option ClaudeDelta
  usage : Option ClaudeUsage
deriving DecidableEq

structure ClaudeResponseInfo where
  responseId : String
  model : String
  responseText : String
  usage : TokenUsage
  done : Bool

def ClaudeResponseInfo.init : ClaudeResponseInfo := ⟨"", "", "", .empty, false⟩

/-- `message_start` sets every count. -/
def setStartUsage (usage : TokenUsage) (u : ClaudeUsage) : TokenUsage :=
  { usage with
    promptTokens := u.inputTokens
    usageSemantic := "anthropic"
    cachedTokens := u.cacheReadInputTokens
    cachedCreationTokens := u.cacheCreationInputTokens
    claudeCacheCreation5mTokens := u.getCacheCreation5mTokens
    claudeCacheCreation1hTokens := u.getCacheCreation1hTokens
    completionTokens := u.outputTokens }

def latest (old new : ℕ) : ℕ := if new > 0 then new else old

/-- `message_delta` sets the counts that it reports. -/
def setDeltaUsage (usage : TokenUsage) (u : ClaudeUsage) : TokenUsage :=
  let promptTokens := latest usage.promptTokens u.inputTokens
  let completionTokens := latest usage.completionTokens u.outputTokens
  { usage with
    usageSemantic := "anthropic"
    promptTokens := promptTokens
    cachedTokens := latest usage.cachedTokens u.cacheReadInputTokens
    cachedCreationTokens := latest usage.cachedCreationTokens u.cacheCreationInputTokens
    claudeCacheCreation5mTokens := latest usage.claudeCacheCreation5mTokens u.getCacheCreation5mTokens
    claudeCacheCreation1hTokens := latest usage.claudeCacheCreation1hTokens u.getCacheCreation1hTokens
    completionTokens := completionTokens
    totalTokens := promptTokens + completionTokens }

def formatClaudeResponseInfo (claudeResponse : ClaudeResponse) (claudeInfo : ClaudeResponseInfo) :
    ClaudeResponseInfo × Bool :=
  if claudeResponse.type = "message_start" then
    match claudeResponse.message with
    | none => (claudeInfo, true)
    | some message =>
        ({ claudeInfo with
           responseId := message.id
           model := message.model
           usage := message.usage.elim claudeInfo.usage (setStartUsage claudeInfo.usage) }, true)
  else if claudeResponse.type = "content_block_delta" then
    match claudeResponse.delta with
    | none => (claudeInfo, true)
    | some delta =>
        ({ claudeInfo with
           responseText := claudeInfo.responseText ++ delta.text.getD "" ++ delta.thinking.getD "" }, true)
  else if claudeResponse.type = "message_delta" then
    ({ claudeInfo with
       usage := claudeResponse.usage.elim claudeInfo.usage (setDeltaUsage claudeInfo.usage)
       done := true }, true)
  else if claudeResponse.type = "content_block_start" then (claudeInfo, true)
  else (claudeInfo, false)

structure TokenParams where
  p : ℤ
  c : ℤ
  len : ℤ
  cr : ℤ
  cc : ℤ
  cc1h : ℤ
  img : ℤ
  imgO : ℤ
  ai : ℤ
  ao : ℤ
deriving DecidableEq

def TokenParams.inputTokens (params : TokenParams) : ℤ := params.p + params.cr + params.cc + params.cc1h

def buildTieredTokenParams (usage : TokenUsage) (isClaudeUsageSemantic : Bool) (usedVars : String → Bool) : TokenParams :=
  let p : ℤ := usage.promptTokens
  let c : ℤ := usage.completionTokens
  let cr : ℤ := usage.cachedTokens
  let cc5m : ℤ :=
    if usage.usageSemantic = "anthropic" then usage.claudeCacheCreation5mTokens else usage.cachedCreationTokens
  let cc1h : ℤ := if usage.usageSemantic = "anthropic" then usage.claudeCacheCreation1hTokens else 0
  let img : ℤ := usage.imageTokens
  let ai : ℤ := usage.audioTokens
  let imgO : ℤ := usage.completionImageTokens
  let ao : ℤ := usage.completionAudioTokens
  let inputLen := if isClaudeUsageSemantic then p + cr + cc5m + cc1h else p
  let less (name : String) (tokens from_ : ℤ) : ℤ := if usedVars name then from_ - tokens else from_
  let p := if isClaudeUsageSemantic then p
    else less "ai" ai (less "img" img (less "cc1h" cc1h (less "cc" cc5m (less "cr" cr p))))
  let c := if isClaudeUsageSemantic then c else less "ao" ao (less "img_o" imgO c)
  { p := if p < 0 then 0 else p
    c := if c < 0 then 0 else c
    len := inputLen
    cr := cr
    cc := cc5m
    cc1h := cc1h
    img := img
    imgO := imgO
    ai := ai
    ao := ao }

def cacheCreationTokensForOpenAIUsage (usage : TokenUsage) : ℕ :=
  let splitCacheCreationTokens := usage.claudeCacheCreation5mTokens + usage.claudeCacheCreation1hTokens
  if splitCacheCreationTokens = 0 then usage.cachedCreationTokens
  else if usage.cachedCreationTokens > splitCacheCreationTokens then usage.cachedCreationTokens
  else splitCacheCreationTokens

/-- `buildOpenAIStyleUsageFromClaudeUsage`, the prompt tokens. -/
def totalInputTokens (usage : TokenUsage) : ℕ :=
  usage.promptTokens + usage.cachedTokens + cacheCreationTokensForOpenAIUsage usage

/-! ## What is reported and what is billed -/

/-- A stream starts with its only `message_start`. -/
structure ClaudeStream where
  message : Option ClaudeMessage
  rest : List ClaudeResponse
  rest_later : ∀ e ∈ rest, e.type ≠ "message_start"

namespace ClaudeStream
variable (s : ClaudeStream)

def startUsage : Option ClaudeUsage := s.message.bind ClaudeMessage.usage

def usageOf (e : ClaudeResponse) : Option ClaudeUsage := if e.type = "message_delta" then e.usage else none

/-- What the stream reports of one count: the last positive one, or else that of `message_start`. -/
def reported (count : ClaudeUsage → ℕ) : ℕ :=
  (((s.rest.filterMap usageOf).map count).filter (0 < ·)).getLastD (s.startUsage.elim 0 count)

def cacheCreation : ℕ :=
  max (s.reported ClaudeUsage.cacheCreationInputTokens)
    (s.reported ClaudeUsage.getCacheCreation5mTokens + s.reported ClaudeUsage.getCacheCreation1hTokens)

def totalInput : ℕ :=
  s.reported ClaudeUsage.inputTokens + s.reported ClaudeUsage.cacheReadInputTokens + s.cacheCreation

def start : ClaudeResponse := ⟨"message_start", s.message, none, none⟩

def usage : TokenUsage :=
  ((s.start :: s.rest).foldl (fun info e => (formatClaudeResponseInfo e info).1) .init).usage

end ClaudeStream

theorem foldl_latest (counts : List ℕ) (n : ℕ) : counts.foldl latest n = (counts.filter (0 < ·)).getLastD n := by
  induction counts generalizing n with
  | nil => rfl
  | cons c counts ih =>
      rw [foldl_cons, ih]
      by_cases hc : 0 < c
      · rw [filter_cons_of_pos (by simpa using hc), getLastD_cons, latest, if_pos hc]
      · rw [filter_cons_of_neg (by simpa using hc), latest, if_neg hc]

theorem formatClaudeResponseInfo_usage {e : ClaudeResponse} (he : e.type ≠ "message_start") (info : ClaudeResponseInfo) :
    (formatClaudeResponseInfo e info).1.usage = (ClaudeStream.usageOf e).elim info.usage (setDeltaUsage info.usage) := by
  unfold formatClaudeResponseInfo ClaudeStream.usageOf
  rw [if_neg he]
  by_cases hblock : e.type = "content_block_delta"
  · have hdelta : e.type ≠ "message_delta" := by rw [hblock]; decide
    rw [if_pos hblock, if_neg hdelta]
    cases e.delta <;> rfl
  · rw [if_neg hblock]
    by_cases hdelta : e.type = "message_delta"
    · rw [if_pos hdelta, if_pos hdelta]
    · rw [if_neg hdelta]
      split <;> rfl

theorem foldl_usage (rest : List ClaudeResponse) (hrest : ∀ e ∈ rest, e.type ≠ "message_start") (info : ClaudeResponseInfo) :
    (rest.foldl (fun info e => (formatClaudeResponseInfo e info).1) info).usage =
      (rest.filterMap ClaudeStream.usageOf).foldl setDeltaUsage info.usage := by
  induction rest generalizing info with
  | nil => rfl
  | cons e rest ih =>
      rw [foldl_cons, ih fun e' he' => hrest e' (mem_cons_of_mem _ he'),
        formatClaudeResponseInfo_usage (hrest e mem_cons_self)]
      cases hu : ClaudeStream.usageOf e with
      | none => rw [filterMap_cons_none hu]; rfl
      | some u => rw [filterMap_cons_some hu]; rfl

theorem foldl_setDeltaUsage (field : TokenUsage → ℕ) (count : ClaudeUsage → ℕ)
    (hfield : ∀ usage u, field (setDeltaUsage usage u) = latest (field usage) (count u)) (deltas : List ClaudeUsage)
    (usage : TokenUsage) :
    field (deltas.foldl setDeltaUsage usage) = ((deltas.map count).filter (0 < ·)).getLastD (field usage) := by
  rw [← foldl_latest, foldl_map]
  induction deltas generalizing usage with
  | nil => rfl
  | cons u deltas ih => rw [foldl_cons, ih, hfield, foldl_cons]

namespace ClaudeStream
variable (s : ClaudeStream)

def startingUsage : TokenUsage := s.startUsage.elim .empty (setStartUsage .empty)

theorem usage_eq : s.usage = (s.rest.filterMap usageOf).foldl setDeltaUsage s.startingUsage := by
  rw [usage, foldl_cons, foldl_usage s.rest s.rest_later]
  unfold formatClaudeResponseInfo startingUsage startUsage start
  cases s.message with
  | none => rfl
  | some message => rfl

theorem usage_reported (field : TokenUsage → ℕ) (count : ClaudeUsage → ℕ)
    (hfield : ∀ usage u, field (setDeltaUsage usage u) = latest (field usage) (count u))
    (hstart : field s.startingUsage = s.startUsage.elim 0 count) : field s.usage = s.reported count := by
  rw [usage_eq, foldl_setDeltaUsage field count hfield, hstart, reported]

theorem promptTokens_usage : s.usage.promptTokens = s.reported ClaudeUsage.inputTokens :=
  s.usage_reported (fun usage => usage.promptTokens) _ (fun _ _ => rfl) (by unfold startingUsage; cases s.startUsage <;> rfl)

theorem cachedTokens_usage : s.usage.cachedTokens = s.reported ClaudeUsage.cacheReadInputTokens :=
  s.usage_reported (fun usage => usage.cachedTokens) _ (fun _ _ => rfl) (by unfold startingUsage; cases s.startUsage <;> rfl)

theorem cacheCreation5m_usage : s.usage.claudeCacheCreation5mTokens = s.reported ClaudeUsage.getCacheCreation5mTokens :=
  s.usage_reported (fun usage => usage.claudeCacheCreation5mTokens) _ (fun _ _ => rfl)
    (by unfold startingUsage; cases s.startUsage <;> rfl)

theorem cacheCreation1h_usage : s.usage.claudeCacheCreation1hTokens = s.reported ClaudeUsage.getCacheCreation1hTokens :=
  s.usage_reported (fun usage => usage.claudeCacheCreation1hTokens) _ (fun _ _ => rfl)
    (by unfold startingUsage; cases s.startUsage <;> rfl)

theorem semantic_foldl (deltas : List ClaudeUsage) (usage : TokenUsage)
    (h : usage.usageSemantic = "anthropic" ∨ deltas ≠ []) :
    (deltas.foldl setDeltaUsage usage).usageSemantic = "anthropic" := by
  induction deltas generalizing usage with
  | nil => exact h.resolve_right fun hne => hne rfl
  | cons u deltas ih => exact ih _ (Or.inl rfl)

theorem semantic_usage : s.usage.usageSemantic = "anthropic" ∨ s.usage = .empty := by
  rw [usage_eq]
  cases hstart : s.startUsage with
  | some u => exact Or.inl (semantic_foldl _ _ (Or.inl (by rw [startingUsage, hstart]; rfl)))
  | none =>
      cases hdeltas : s.rest.filterMap usageOf with
      | nil => exact Or.inr (by rw [startingUsage, hstart]; rfl)
      | cons u deltas => exact Or.inl (semantic_foldl _ _ (Or.inr (cons_ne_nil _ _)))

end ClaudeStream

theorem buildTieredTokenParams_claude (usage : TokenUsage) (used : String → Bool)
    (hsemantic : usage.usageSemantic = "anthropic" ∨ usage = .empty) :
    let params := buildTieredTokenParams usage true used
    params.p = usage.promptTokens ∧ params.cr = usage.cachedTokens ∧ params.cc = usage.claudeCacheCreation5mTokens ∧
      params.cc1h = usage.claudeCacheCreation1hTokens ∧
      params.len = usage.promptTokens + usage.cachedTokens + usage.claudeCacheCreation5mTokens +
        usage.claudeCacheCreation1hTokens := by
  rcases hsemantic with hsemantic | rfl
  · simp only [buildTieredTokenParams, hsemantic, if_true]
    exact ⟨if_neg (by omega), trivial, trivial, trivial, trivial⟩
  · exact ⟨rfl, rfl, rfl, rfl, rfl⟩

def UsesInputVars (used : String → Bool) : Prop := ∀ name ∈ ["cr", "cc", "cc1h", "img", "ai"], used name = true

instance (used : String → Bool) : Decidable (UsesInputVars used) :=
  inferInstanceAs (Decidable (∀ name ∈ ["cr", "cc", "cc1h", "img", "ai"], used name = true))

structure PromptUsage where
  usage : TokenUsage
  openai : usage.usageSemantic ≠ "anthropic"
  fits : usage.cachedTokens + usage.cachedCreationTokens + usage.imageTokens + usage.audioTokens ≤ usage.promptTokens

theorem buildTieredTokenParams_openai (u : PromptUsage) (used : String → Bool) (hused : UsesInputVars used) :
    let params := buildTieredTokenParams u.usage false used
    params.inputTokens + params.img + params.ai = u.usage.promptTokens ∧ params.len = u.usage.promptTokens := by
  have hvar (name : String) (hname : name ∈ ["cr", "cc", "cc1h", "img", "ai"]) : used name = true := hused name hname
  have hfits := u.fits
  simp only [buildTieredTokenParams, TokenParams.inputTokens, if_neg u.openai, hvar "cr" (by decide), hvar "cc" (by decide),
    hvar "cc1h" (by decide), hvar "img" (by decide), hvar "ai" (by decide), if_true, Bool.false_eq_true, if_false, and_true]
  split <;> omega

/-- The variables add up to the input, except that a Claude total above its split is not seen. -/
theorem tiered_sees_input_once (s : ClaudeStream) (u : PromptUsage) (used : String → Bool) (hused : UsesInputVars used) :
    ((buildTieredTokenParams s.usage true used).inputTokens = s.totalInput ∧
        (buildTieredTokenParams s.usage true used).len = s.totalInput ↔
      s.reported ClaudeUsage.cacheCreationInputTokens ≤
        s.reported ClaudeUsage.getCacheCreation5mTokens + s.reported ClaudeUsage.getCacheCreation1hTokens) ∧
    let params := buildTieredTokenParams u.usage false used
    params.inputTokens + params.img + params.ai = u.usage.promptTokens ∧ params.len = u.usage.promptTokens := by
  refine ⟨?_, buildTieredTokenParams_openai u used hused⟩
  obtain ⟨hp, hcr, hcc, hcc1h, hlen⟩ := buildTieredTokenParams_claude s.usage used s.semantic_usage
  rw [TokenParams.inputTokens, hp, hcr, hcc, hcc1h, hlen, s.promptTokens_usage, s.cachedTokens_usage, s.cacheCreation5m_usage,
    s.cacheCreation1h_usage, ClaudeStream.totalInput, ClaudeStream.cacheCreation]
  constructor
  · omega
  · intro hsplit
    constructor <;> omega

/-- An answer that reports 100 tokens written to the cache and no split. -/
def unsplitStream : ClaudeStream :=
  ⟨some ⟨"msg_1", "claude-sonnet-4", some ⟨10, 100, 0, 1, none⟩⟩, [], by simp⟩

def cachedPrompt : PromptUsage :=
  ⟨{ TokenUsage.empty with promptTokens := 10, cachedTokens := 4 }, by decide, by decide⟩

def splitStream : ClaudeStream :=
  ⟨some ⟨"msg_1", "claude-sonnet-4", some ⟨10, 100, 0, 1, some (60, 40)⟩⟩,
    [⟨"message_delta", none, none, some ⟨12, 0, 5, 30, none⟩⟩], by simp⟩

theorem splitStream_seen :
    (buildTieredTokenParams splitStream.usage true fun _ => true).inputTokens = splitStream.totalInput ∧
      (buildTieredTokenParams splitStream.usage true fun _ => true).len = splitStream.totalInput :=
  (tiered_sees_input_once splitStream cachedPrompt (fun _ => true) (by decide)).1.mpr (by decide)

theorem unsplitStream_not_seen :
    (buildTieredTokenParams unsplitStream.usage true fun _ => true).len = 10 ∧ unsplitStream.totalInput = 110 ∧
      totalInputTokens unsplitStream.usage = 110 := by
  decide

end HotAI.Pricing
