import HotAI.Stream.Aggregate
import HotAI.Lib.Float64

/-! # Answers of Claude as chat completions (`relay/channel/claude/relay-claude.go`)

`ResponseClaude2OpenAI` converts a whole message, `StreamResponseClaude2OpenAI` one event of a stream. -/
namespace HotAI.ClaudeUpstream
open HotAI.Lib HotAI.Stream List

/-- JSON texts and their values: numbers as they are written, the members of an object in the order of their keys. What is
written for a value that was decoded has the decoded value. -/
structure JsonFormat where
  read : String → Option Json
  write : Json → String
  read_write : ∀ {text value}, read text = some value → read (write value.decoded) = some value.decoded

/-- Of `dto.ClaudeMediaMessage`. A delta of partial JSON has some. -/
structure MediaMessage where
  type : String
  text : Option String := none
  model : String := ""
  stopReason : Option String := none
  partialJson : Option String := none
  thinking : Option String := none
  id : String := ""
  name : String := ""
  input : Option Json := none
  partialJson_present : type = "input_json_delta" → partialJson ≠ none := by decide

def MediaMessage.getText (m : MediaMessage) : String := m.text.getD ""

/-- Of `dto.ClaudeResponse`, a message or an event. -/
structure ClaudeResponse where
  id : String := ""
  type : String
  content : List MediaMessage := []
  stopReason : String := ""
  model : String := ""
  index : Option ℕ := none
  contentBlock : Option MediaMessage := none
  delta : Option MediaMessage := none
  message : Option MediaMessage := none

def stopReasonClaude2OpenAI (reason : String) : String :=
  match reason.toLower with
  | "stop_sequence" => "stop"
  | "end_turn" => "stop"
  | "max_tokens" => "length"
  | "tool_use" => "tool_calls"
  | "refusal" => "content_filter"
  | _ => reason

def emptyDelta : Delta := ⟨none, none, none, []⟩

/-- The delta of an event, and the reason why the message ends; `none` for an event that is not handed on. -/
def choiceOf (claudeResponse : ClaudeResponse) : Option (Delta × Option String) :=
  let fcIdx := claudeResponse.index.getD 0
  match claudeResponse.type with
  | "message_start" => some ({ emptyDelta with content := some "" }, none)
  | "content_block_start" => claudeResponse.contentBlock.map fun block =>
      ({ emptyDelta with
         content := if block.type = "text" then block.text else none
         toolCalls := if block.type = "tool_use" then [⟨some fcIdx, block.id, ⟨block.name, ""⟩⟩] else [] }, none)
  | "content_block_delta" => match claudeResponse.delta with
      | none => some (emptyDelta, none)
      | some delta => some
          ({ emptyDelta with
             content := delta.text
             reasoningContent := if delta.type = "signature_delta" then some "\n"
               else if delta.type = "thinking_delta" then delta.thinking else none
             toolCalls := if delta.type = "input_json_delta" then [⟨some fcIdx, "", ⟨"", delta.partialJson.getD ""⟩⟩]
               else [] }, none)
  | "message_delta" => some (emptyDelta, ((claudeResponse.delta.bind MediaMessage.stopReason).map
      stopReasonClaude2OpenAI).filter (· ≠ "null"))
  | _ => none

def streamResponseClaude2OpenAI (claudeResponse : ClaudeResponse) : Option Chunk :=
  (choiceOf claudeResponse).map fun (delta, finishReason) =>
    let message := if claudeResponse.type = "message_start" then claudeResponse.message else none
    let delta := if delta.toolCalls ≠ [] then { delta with content := none } else delta
    { id := (message.map MediaMessage.id).getD ""
      created := 0
      model := (message.map MediaMessage.model).getD claudeResponse.model
      systemFingerprint := none
      choices := [⟨0, delta, finishReason⟩]
      usage := none }

/-! ## A whole message -/

structure TextMessage where
  content : String
  reasoningContent : Option String
  toolCalls : List (String × String × String)
  finishReason : String
deriving DecidableEq, Repr

def responseClaude2OpenAI (marshal : Option Json → String) (claudeResponse : ClaudeResponse) : TextMessage :=
  let first := claudeResponse.content.head?
  let responseThinking := ((first.bind MediaMessage.thinking).filter (· ≠ ""))
  let thinkings := claudeResponse.content.filterMap fun m => if m.type = "thinking" then m.thinking else none
  let thinkingContent := thinkings.getLastD ""
  { content := (claudeResponse.content.filter fun m => m.type = "text").foldl (fun _ m => m.getText)
      ((first.map MediaMessage.getText).getD "")
    reasoningContent := if thinkingContent ≠ "" then some thinkingContent else responseThinking
    toolCalls := (claudeResponse.content.filter fun m => m.type = "tool_use").map fun m => (m.id, m.name, marshal m.input)
    finishReason := stopReasonClaude2OpenAI claudeResponse.stopReason }

/-! ## A message and its stream -/

inductive Block where
  | text (text : String)
  | toolUse (id name : String) (input : Json)

/-- How a block is split: what the start of a text block already has, and the texts of its deltas. -/
inductive Split where
  | text (first : Option String) (pieces : List String)
  | toolUse (pieces : List String)

def Block.SplitBy (fmt : JsonFormat) : Block → Split → Prop
  | .text s, .text first pieces => first.getD "" ++ joinMap (fun piece => piece) pieces = s
  | .toolUse _ _ input, .toolUse pieces => fmt.read (joinMap (fun piece => piece) pieces) = some input
  | _, _ => False

structure ClaudeStream (fmt : JsonFormat) where
  id : String
  model : String
  blocks : List Block
  splits : List Split
  split : List.Forall₂ (Block.SplitBy fmt) blocks splits
  stopReason : String

def Block.media : Block → MediaMessage
  | .text s => { type := "text", text := some s }
  | .toolUse id name input => { type := "tool_use", id := id, name := name, input := some input }

def startEvent (index : ℕ) (block : MediaMessage) : ClaudeResponse :=
  { type := "content_block_start", index := some index, contentBlock := some block }

def textDelta (index : ℕ) (piece : String) : ClaudeResponse :=
  { type := "content_block_delta", index := some index, delta := some { type := "text_delta", text := some piece } }

def jsonDelta (index : ℕ) (piece : String) : ClaudeResponse :=
  { type := "content_block_delta"
    index := some index
    delta := some { type := "input_json_delta", partialJson := some piece, partialJson_present := fun _ => nofun } }

def stopEvent (index : ℕ) : ClaudeResponse := { type := "content_block_stop", index := some index }

def blockEvents (index : ℕ) : Block → Split → List ClaudeResponse
  | .text _, .text first pieces =>
      startEvent index { type := "text", text := first } :: pieces.map (textDelta index) ++ [stopEvent index]
  | .toolUse id name _, .toolUse pieces =>
      startEvent index { type := "tool_use", id := id, name := name } :: pieces.map (jsonDelta index) ++ [stopEvent index]
  | _, _ => []

def blocksEvents (index : ℕ) : List Block → List Split → List ClaudeResponse
  | block :: blocks, split :: splits => blockEvents index block split ++ blocksEvents (index + 1) blocks splits
  | _, _ => []

namespace ClaudeStream
variable {fmt : JsonFormat} (s : ClaudeStream fmt)

def complete : ClaudeResponse :=
  { id := s.id, type := "message", content := s.blocks.map Block.media, stopReason := s.stopReason, model := s.model }

def events : List ClaudeResponse :=
  { type := "message_start", message := some { type := "message", id := s.id, model := s.model } } ::
    blocksEvents 0 s.blocks s.splits ++
    [{ type := "message_delta", delta := some { type := "", stopReason := some s.stopReason } }, { type := "message_stop" }]

def streamed : AggregatedMessage :=
  aggregateMessage ((s.events.filterMap streamResponseClaude2OpenAI).flatMap Chunk.choices)

/-- The whole message has been decoded when its tool inputs are written. -/
def converted : TextMessage :=
  responseClaude2OpenAI (fun input => (input.map fun value => fmt.write value.decoded).getD "null") s.complete

end ClaudeStream

/-! ## The stream read block by block -/

def chunkChoices (events : List ClaudeResponse) : List Choice :=
  (events.filterMap streamResponseClaude2OpenAI).flatMap Chunk.choices

theorem chunkChoices_append (as bs : List ClaudeResponse) :
    chunkChoices (as ++ bs) = chunkChoices as ++ chunkChoices bs := by
  rw [chunkChoices, filterMap_append, flatMap_append]
  rfl

theorem chunkChoices_map {α : Type} {event : α → ClaudeResponse} {choice : α → Choice}
    (h : ∀ a, chunkChoices [event a] = [choice a]) (as : List α) : chunkChoices (as.map event) = as.map choice := by
  induction as with
  | nil => rfl
  | cons a as ih =>
      rw [map_cons, ← singleton_append, chunkChoices_append, h, ih]
      rfl

def Block.textOf : Block → String
  | .text s => s
  | .toolUse .. => ""

def textChoice (content : Option String) : Choice := ⟨0, { emptyDelta with content := content }, none⟩

def callChoice (call : ToolCallResponse) : Choice := ⟨0, { emptyDelta with toolCalls := [call] }, none⟩

def blockChoices (index : ℕ) : Block → Split → List Choice
  | .text _, .text first pieces => textChoice first :: pieces.map fun piece => textChoice (some piece)
  | .toolUse id name _, .toolUse pieces => callChoice ⟨some index, id, ⟨name, ""⟩⟩ ::
      pieces.map fun piece => callChoice ⟨some index, "", ⟨"", piece⟩⟩
  | _, _ => []

theorem chunkChoices_blockEvents (index : ℕ) (block : Block) (split : Split) :
    chunkChoices (blockEvents index block split) = blockChoices index block split := by
  cases block with
  | text s =>
      cases split with
      | text first pieces =>
          have hpieces : chunkChoices (pieces.map (textDelta index)) =
              pieces.map fun piece => textChoice (some piece) := chunkChoices_map (fun _ => rfl) pieces
          rw [blockEvents, chunkChoices_append, ← singleton_append, chunkChoices_append, hpieces]
          exact append_nil _
      | toolUse pieces => rfl
  | toolUse id name input =>
      cases split with
      | text first pieces => rfl
      | toolUse pieces =>
          have hpieces : chunkChoices (pieces.map (jsonDelta index)) =
              pieces.map fun piece => callChoice ⟨some index, "", ⟨"", piece⟩⟩ := chunkChoices_map (fun _ => rfl) pieces
          rw [blockEvents, chunkChoices_append, ← singleton_append, chunkChoices_append, hpieces]
          exact append_nil _

def blocksChoices (index : ℕ) : List Block → List Split → List Choice
  | block :: blocks, split :: splits => blockChoices index block split ++ blocksChoices (index + 1) blocks splits
  | _, _ => []

theorem chunkChoices_blocksEvents (index : ℕ) (blocks : List Block) (splits : List Split) :
    chunkChoices (blocksEvents index blocks splits) = blocksChoices index blocks splits := by
  induction blocks generalizing index splits with
  | nil => rfl
  | cons block blocks ih =>
      cases splits with
      | nil => rfl
      | cons split splits =>
          rw [blocksEvents, chunkChoices_append, chunkChoices_blockEvents, ih]
          rfl

section Blocks
variable {fmt : JsonFormat} (index : ℕ)

theorem contentOf_blockChoices {block : Block} {split : Split} (h : block.SplitBy fmt split) :
    contentOf (blockChoices index block split) = block.textOf := by
  cases block with
  | text s =>
      cases split with
      | text first pieces =>
          rw [blockChoices, contentOf, joinMap, joinMap_map]
          exact h
      | toolUse pieces => exact h.elim
  | toolUse id name input =>
      cases split with
      | text first pieces => exact h.elim
      | toolUse pieces =>
          rw [blockChoices, contentOf, joinMap, joinMap_map]
          exact String.append_eq_empty_iff.mpr ⟨rfl, joinMap_eq_empty_iff.mpr fun _ _ => rfl⟩

theorem finishReasons_blockChoices (block : Block) (split : Split) :
    (blockChoices index block split).filterMap Choice.finishReason = [] := by
  cases block <;> cases split <;> simp [blockChoices, textChoice, callChoice]

/-- The calls of the blocks from `index` on, numbered by their blocks. -/
def callsFrom (index : ℕ) : List Block → List Split → List AggregatedCall
  | .toolUse id name _ :: blocks, .toolUse pieces :: splits =>
      ⟨index, id, name, joinMap (fun piece => piece) pieces⟩ :: callsFrom (index + 1) blocks splits
  | _ :: blocks, _ :: splits => callsFrom (index + 1) blocks splits
  | _, _ => []

theorem callDeltas_append (as bs : List Choice) : callDeltas (as ++ bs) = callDeltas as ++ callDeltas bs :=
  flatMap_append

variable {blocks : List Block} {splits : List Split}

theorem aggregateCalls_blocks (h : List.Forall₂ (Block.SplitBy fmt) blocks splits) (index : ℕ) (calls : List AggregatedCall)
    (hcalls : ∀ call ∈ calls, call.index < index) :
    aggregateCalls calls (callDeltas (blocksChoices index blocks splits)) = calls ++ callsFrom index blocks splits := by
  induction h generalizing index calls with
  | nil => exact (append_nil calls).symm
  | @cons block split blocks splits hsplit hrest ih =>
      rw [blocksChoices, callDeltas_append, aggregateCalls_append]
      cases block with
      | text s =>
          cases split with
          | toolUse pieces => exact hsplit.elim
          | text first pieces =>
              have hnone : callDeltas (blockChoices index (.text s : Block) (.text first pieces)) = [] := by
                simp [callDeltas, blockChoices, textChoice, emptyDelta]
              rw [hnone]
              exact ih (index + 1) calls fun call hcall => Nat.lt_succ_of_lt (hcalls call hcall)
      | toolUse id name input =>
          cases split with
          | text first pieces => exact hsplit.elim
          | toolUse pieces =>
              have hdeltas : callDeltas (blockChoices index (.toolUse id name input) (.toolUse pieces)) =
                  ⟨some index, id, ⟨name, ""⟩⟩ :: pieces.map fun piece => ⟨some index, "", ⟨"", piece⟩⟩ := by
                rw [blockChoices, callDeltas, flatMap_cons, flatMap_map]
                exact congrArg (_ :: ·) map_eq_flatMap.symm
              have hfresh : index ∉ calls.map AggregatedCall.index := by
                intro hmem
                obtain ⟨call, hcall, heq⟩ := mem_map.mp hmem
                exact absurd (hcalls call hcall) (by omega)
              rw [hdeltas, aggregateCalls_one index id name pieces hfresh, ih, callsFrom, append_assoc,
                singleton_append]
              intro call hcall
              rcases mem_append.mp hcall with hold | hnew
              · exact Nat.lt_succ_of_lt (hcalls call hold)
              · rw [mem_singleton.mp hnew]
                exact Nat.lt_succ_self index

theorem contentOf_blocks (h : List.Forall₂ (Block.SplitBy fmt) blocks splits) (index : ℕ) :
    contentOf (blocksChoices index blocks splits) = joinMap Block.textOf blocks := by
  induction h generalizing index with
  | nil => rfl
  | cons hsplit hrest ih =>
      rw [blocksChoices, contentOf, joinMap_append, joinMap]
      change contentOf _ ++ contentOf _ = _
      rw [contentOf_blockChoices index hsplit, ih]

theorem finishReasons_blocks (blocks : List Block) (splits : List Split) :
    (blocksChoices index blocks splits).filterMap Choice.finishReason = [] := by
  induction blocks generalizing index splits with
  | nil => rfl
  | cons block blocks ih =>
      cases splits with
      | nil => rfl
      | cons split splits => rw [blocksChoices, filterMap_append, finishReasons_blockChoices, ih, append_nil]

end Blocks

namespace ClaudeStream
variable {fmt : JsonFormat} (s : ClaudeStream fmt)

theorem streamed_eq : s.streamed = ⟨joinMap Block.textOf s.blocks, callsFrom 0 s.blocks s.splits,
    (some (stopReasonClaude2OpenAI s.stopReason)).filter (· ≠ "null")⟩ := by
  have hchoices : (s.events.filterMap streamResponseClaude2OpenAI).flatMap Chunk.choices =
      textChoice (some "") :: (blocksChoices 0 s.blocks s.splits ++
        [⟨0, emptyDelta, (some (stopReasonClaude2OpenAI s.stopReason)).filter (· ≠ "null")⟩]) := by
    change chunkChoices s.events = _
    rw [events, chunkChoices_append, ← singleton_append, chunkChoices_append, chunkChoices_blocksEvents]
    rfl
  have hcontent : contentOf (textChoice (some "") :: (blocksChoices 0 s.blocks s.splits ++
      [⟨0, emptyDelta, (some (stopReasonClaude2OpenAI s.stopReason)).filter (· ≠ "null")⟩])) =
        joinMap Block.textOf s.blocks := by
    rw [contentOf, joinMap, joinMap_append]
    change "" ++ (contentOf (blocksChoices 0 s.blocks s.splits) ++ "") = _
    rw [contentOf_blocks s.split, String.append_empty, String.empty_append]
  have hdeltas : callDeltas (textChoice (some "") :: (blocksChoices 0 s.blocks s.splits ++
      [⟨0, emptyDelta, (some (stopReasonClaude2OpenAI s.stopReason)).filter (· ≠ "null")⟩])) =
        callDeltas (blocksChoices 0 s.blocks s.splits) := by
    rw [← singleton_append, callDeltas_append, callDeltas_append]
    exact append_nil _
  have hcalls := aggregateCalls_blocks s.split 0 [] fun call hcall => absurd hcall not_mem_nil
  rw [streamed, hchoices, aggregateMessage, hcontent, hdeltas, hcalls, filterMap_cons_none rfl,
    filterMap_append, finishReasons_blocks]
  cases hreason : (some (stopReasonClaude2OpenAI s.stopReason)).filter (· ≠ "null") <;> rfl

end ClaudeStream

/-! ## The complete message -/

def texts : List Block → List String
  | [] => []
  | .text s :: blocks => s :: texts blocks
  | .toolUse .. :: blocks => texts blocks

def tools : List Block → List (String × String × Json)
  | [] => []
  | .text _ :: blocks => tools blocks
  | .toolUse id name input :: blocks => (id, name, input) :: tools blocks

theorem tools_media (marshal : Option Json → String) (blocks : List Block) :
    (((blocks.map Block.media).filter fun m => m.type = "tool_use").map fun m => (m.id, m.name, marshal m.input)) =
      (tools blocks).map fun tool => (tool.1, tool.2.1, marshal (some tool.2.2)) := by
  induction blocks with
  | nil => rfl
  | cons block blocks ih =>
      cases block with
      | text s => exact ih
      | toolUse id name input => exact congrArg (_ :: ·) ih

namespace ClaudeStream
variable {fmt : JsonFormat} (s : ClaudeStream fmt)

theorem toolCalls_converted : s.converted.toolCalls =
    (tools s.blocks).map fun tool => (tool.1, tool.2.1, fmt.write tool.2.2.decoded) := by
  exact tools_media (fun input => (input.map fun value => fmt.write value.decoded).getD "null") s.blocks

end ClaudeStream

/-! ## Where they agree -/

variable {blocks : List Block} {splits : List Split}

namespace ClaudeStream
variable {fmt : JsonFormat} (s : ClaudeStream fmt)

/-- The stream and the complete message tell the client the same. -/
structure Agrees : Prop where
  content : s.streamed.content = s.converted.content
  toolCalls : (s.streamed.toolCalls.map fun c => (c.index, c.id, c.name, fmt.read c.arguments)) =
    s.converted.toolCalls.zipIdx.map fun call => (call.2, call.1.1, call.1.2.1, fmt.read call.1.2.2)
  finishReason : s.streamed.finishReason = some s.converted.finishReason

end ClaudeStream

end HotAI.ClaudeUpstream
