import HotAI.Stream.Chunks

/-! # Turning a chat stream into Claude events (`service/convert.go`, `relay/channel/openai/helper.go`)

`StreamResponseOpenAI2Claude` keeps which kind of block is open and at which index. `HandleStreamFormat` calls it for all
chunks but the last, `HandleFinalResponse` for that one. -/
namespace HotAI.Stream
open HotAI.Lib

inductive LastMessageType where
  | none
  | text
  | tools
  | thinking
deriving DecidableEq, Repr

/-- `ClaudeConvertInfo`, with the finish reason. -/
structure ConvertInfo where
  lastMessagesType : LastMessageType
  index : ℕ
  usage : Option Usage
  finishReason : String
  done : Bool
  toolCallBaseIndex : ℕ
  toolCallMaxIndexOffset : ℕ
deriving DecidableEq, Repr

def ConvertInfo.init : ConvertInfo := ⟨.none, 0, none, "", false, 0, 0⟩

inductive Block where
  | text
  | thinking
  | toolUse (id name : String)
deriving DecidableEq, Repr

inductive BlockDelta where
  | textDelta (text : String)
  | thinkingDelta (thinking : String)
  | inputJsonDelta (partialJson : String)
deriving DecidableEq, Repr

structure ClaudeUsage where
  inputTokens : ℤ
  outputTokens : ℤ
  cacheCreationInputTokens : ℤ
  cacheReadInputTokens : ℤ
  cacheCreation : Option (ℤ × ℤ)
deriving DecidableEq, Repr

inductive ClaudeEvent where
  | messageStart (id model : String) (inputTokens : ℤ)
  | contentBlockStart (index : ℕ) (block : Block)
  | contentBlockDelta (index : ℕ) (delta : BlockDelta)
  | contentBlockStop (index : ℕ)
  | messageDelta (usage : ClaudeUsage) (stopReason : String)
  | messageStop
deriving DecidableEq, Repr

def normalizeCacheCreationSplit (totalTokens tokens5m tokens1h : ℤ) : ℤ × ℤ :=
  (tokens5m + max (totalTokens - tokens5m - tokens1h) 0, tokens1h)

def buildClaudeUsageFromOpenAIUsage (usage : Usage) : ClaudeUsage :=
  let (cacheCreation5m, cacheCreation1h) := normalizeCacheCreationSplit usage.cachedCreationTokens
    usage.claudeCacheCreation5mTokens usage.claudeCacheCreation1hTokens
  ⟨usage.promptTokens, usage.completionTokens, usage.cachedCreationTokens, usage.cachedTokens,
    if 0 < cacheCreation5m ∨ 0 < cacheCreation1h then some (cacheCreation5m, cacheCreation1h) else none⟩

def stopReasonOpenAI2Claude (reason : String) : String :=
  match reason.toLower with
  | "stop" => "end_turn"
  | "stop_sequence" => "stop_sequence"
  | "length" | "max_tokens" => "max_tokens"
  | "content_filter" => "refusal"
  | "tool_calls" => "tool_use"
  | _ => reason

abbrev Converted := ConvertInfo × List ClaudeEvent

def stopOpenBlocks (info : ConvertInfo) : List ClaudeEvent :=
  match info.lastMessagesType with
  | .text | .thinking => [.contentBlockStop info.index]
  | .tools => (List.range (info.toolCallMaxIndexOffset + 1)).map fun offset =>
      .contentBlockStop (info.toolCallBaseIndex + offset)
  | .none => []

def stopOpenBlocksAndAdvance (info : ConvertInfo) : Converted :=
  match info.lastMessagesType with
  | .none => (info, [])
  | .tools =>
      ({ info with
          index := info.toolCallBaseIndex + info.toolCallMaxIndexOffset + 1
          toolCallBaseIndex := 0
          toolCallMaxIndexOffset := 0
          lastMessagesType := .none }, stopOpenBlocks info)
  | .text | .thinking => ({ info with index := info.index + 1, lastMessagesType := .none }, stopOpenBlocks info)

def proseDelta (type : LastMessageType) (block : Block) (delta : BlockDelta) (info : ConvertInfo) : Converted :=
  if info.lastMessagesType = type then (info, [.contentBlockDelta info.index delta])
  else
    let (info, stops) := stopOpenBlocksAndAdvance info
    ({ info with lastMessagesType := type },
      stops ++ [.contentBlockStart info.index block, .contentBlockDelta info.index delta])

def firstProseDelta (type : LastMessageType) (block : Block) (delta : BlockDelta) (info : ConvertInfo) : Converted :=
  let (info, stops) := if info.lastMessagesType = type then (info, []) else stopOpenBlocksAndAdvance info
  ({ info with lastMessagesType := type },
    stops ++ [.contentBlockStart info.index block, .contentBlockDelta info.index delta])

def toolCallEvents (base offset : ℕ) (call : ToolCallResponse) : List ClaudeEvent :=
  (if call.function.name ≠ "" then [.contentBlockStart (base + offset) (.toolUse call.id call.function.name)] else []) ++
    (if call.function.arguments ≠ "" then [.contentBlockDelta (base + offset) (.inputJsonDelta call.function.arguments)]
      else [])

def toolCallLoop (base : ℕ) (maxOffset : ℕ) : List (ToolCallResponse × ℕ) → ℕ × List ClaudeEvent
  | [] => (maxOffset, [])
  | (call, i) :: calls =>
      let offset := call.index.getD i
      let (maxOffset, events) := toolCallLoop base (max maxOffset offset) calls
      (maxOffset, toolCallEvents base offset call ++ events)

def toolDeltas (toolCalls : List ToolCallResponse) (info : ConvertInfo) : Converted :=
  let (info, stops) := if info.lastMessagesType = .tools then (info, []) else
    let (info, stops) := stopOpenBlocksAndAdvance info
    ({ info with toolCallBaseIndex := info.index, toolCallMaxIndexOffset := 0 }, stops)
  let (maxOffset, events) := toolCallLoop info.toolCallBaseIndex info.toolCallMaxIndexOffset toolCalls.zipIdx
  ({ info with
      lastMessagesType := .tools
      toolCallMaxIndexOffset := maxOffset
      index := info.toolCallBaseIndex + maxOffset }, stops ++ events)

/-- What a chunk that is not the first sends for its delta. Tool calls hide text, reasoning hides content. -/
def deltaEvents (delta : Delta) (info : ConvertInfo) : Converted :=
  if delta.toolCalls ≠ [] then toolDeltas delta.toolCalls info
  else if delta.getReasoningContent ≠ "" then
    proseDelta .thinking .thinking (.thinkingDelta delta.getReasoningContent) info
  else if delta.getContentString ≠ "" then proseDelta .text .text (.textDelta delta.getContentString) info
  else (info, [])

def closeMessage (chunkUsage : Option Usage) (stopReason : String) (info : ConvertInfo) : Converted :=
  ({ info with done := true },
    stopOpenBlocks info ++
      ((chunkUsage <|> info.usage).map fun usage =>
        .messageDelta (buildClaudeUsageFromOpenAIUsage usage) stopReason).toList ++ [.messageStop])

def Choice.finished (choice : Choice) : Bool := choice.finishReason.getD "" ≠ ""

def firstToolCall (call : ToolCallResponse) (info : ConvertInfo) : Converted :=
  ({ info with lastMessagesType := .tools, toolCallBaseIndex := 0, toolCallMaxIndexOffset := 0 },
    .contentBlockStart 0 (.toolUse call.id call.function.name) ::
      (if call.function.arguments ≠ "" then [.contentBlockDelta 0 (.inputJsonDelta call.function.arguments)] else []))

def firstDelta (delta : Delta) (info : ConvertInfo) : Converted :=
  let (info, tools) := match delta.toolCalls with
    | [] => (info, [])
    | call :: _ => firstToolCall call info
  let (info, prose) :=
    if delta.getReasoningContent ≠ "" then
      firstProseDelta .thinking .thinking (.thinkingDelta delta.getReasoningContent) info
    else if delta.getContentString ≠ "" then firstProseDelta .text .text (.textDelta delta.getContentString) info
    else (info, [])
  (info, tools ++ prose)

def streamResponseOpenAI2Claude (estimatePromptTokens : ℤ) (sendResponseCount : ℕ) (chunk : Chunk)
    (info : ConvertInfo) : Converted :=
  if info.done then (info, [])
  else if sendResponseCount = 1 then
    let start := ClaudeEvent.messageStart chunk.id chunk.model estimatePromptTokens
    match chunk.choices with
    | [] => (info, [start])
    | choice :: _ =>
        let (info, events) := firstDelta choice.delta info
        if choice.finished then
          let info := { info with finishReason := choice.finishReason.getD "" }
          let (info, close) := closeMessage chunk.usage (stopReasonOpenAI2Claude info.finishReason) info
          (info, start :: events ++ close)
        else (info, start :: events)
  else match chunk.choices with
    | [] =>
        if (chunk.usage <|> info.usage).isNone then (info, [])
        else
          let stopReason := stopReasonOpenAI2Claude info.finishReason
          closeMessage chunk.usage (if stopReason = "" then "end_turn" else stopReason) info
    | choice :: _ =>
        if choice.finished then
          let info := { info with finishReason := choice.finishReason.getD "" }
          -- the usage is expected in a later chunk, and with it the end
          if chunk.usage.isNone then (info, [])
          else
            let (info, events) := deltaEvents choice.delta info
            let (info, close) := closeMessage chunk.usage (stopReasonOpenAI2Claude info.finishReason) info
            (info, events ++ close)
        else deltaEvents choice.delta info

/-! ## The two callers -/

structure ClaudeRelay where
  info : ConvertInfo
  sendResponseCount : ℕ
  out : List ClaudeEvent

/-- `HandleStreamFormat` for `RelayFormatClaude`. -/
def handleClaudeFormat (estimatePromptTokens : ℤ) (r : ClaudeRelay) (chunk : Chunk) : ClaudeRelay :=
  let count := r.sendResponseCount + 1
  let info := match chunk.usage with
    | none => r.info
    | some usage => { r.info with usage := some usage }
  let (info, events) := streamResponseOpenAI2Claude estimatePromptTokens count chunk info
  ⟨info, count, r.out ++ events⟩

/-- `HandleFinalResponse` for `RelayFormatClaude`. -/
def handleFinalResponse (estimatePromptTokens : ℤ) (usage : Usage) (r : ClaudeRelay) (last : Chunk) : ClaudeRelay :=
  let (info, events) := streamResponseOpenAI2Claude estimatePromptTokens r.sendResponseCount last
    { r.info with usage := some usage }
  ⟨{ info with done := true }, r.sendResponseCount, r.out ++ events⟩

/-- `OaiStreamHandler` for `RelayFormatClaude`. -/
def claudeStreamHandler (estimatePromptTokens : ℤ) (isAudioModel : Bool) (estimate : Usage) (chunks : List Chunk) :
    List ClaudeEvent :=
  let s := scan (handleClaudeFormat estimatePromptTokens) isAudioModel ⟨.init, 0, []⟩ chunks
  match s.last with
  | none => s.inner.out
  | some last => (handleFinalResponse estimatePromptTokens (streamUsage estimate isAudioModel s).1 s.inner last).out

theorem claudeStreamHandler_snoc (estimatePromptTokens : ℤ) (isAudioModel : Bool) (estimate : Usage)
    (chunks : List Chunk) (last : Chunk) : ∃ usage,
    claudeStreamHandler estimatePromptTokens isAudioModel estimate (chunks ++ [last]) =
      (handleFinalResponse estimatePromptTokens usage
        (chunks.foldl (handleClaudeFormat estimatePromptTokens) ⟨.init, 0, []⟩) last).out := by
  obtain ⟨hinner, hlast⟩ := scan_snoc (handleClaudeFormat estimatePromptTokens) isAudioModel ⟨.init, 0, []⟩ chunks last
  refine ⟨(streamUsage estimate isAudioModel
    (scan (handleClaudeFormat estimatePromptTokens) isAudioModel ⟨.init, 0, []⟩ (chunks ++ [last]))).1, ?_⟩
  simp only [claudeStreamHandler, hlast, hinner]

end HotAI.Stream
