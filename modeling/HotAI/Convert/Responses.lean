import HotAI.Lib.GoStrings
import HotAI.Lib.Table

/-! # Answers of the Responses API as chat completions (`relayconvert/responses_to_chat.go`)

A response is a list of output items: messages, reasoning and tool calls. It is converted as a whole, or
event by event while it is streamed. -/
namespace HotAI.Convert
open HotAI.Lib

structure OutputContent where
  type : String
  text : String
deriving DecidableEq, Repr

/-- `dto.ResponsesOutput`; `arguments` is what `ArgumentsString` makes of the raw message. -/
structure Output where
  type : String
  id : String
  role : String
  content : List OutputContent
  callId : String
  name : String
  arguments : String
deriving DecidableEq, Repr

/-- The fields of a response that decide about a message; `status` is the string in the raw message. -/
structure Response where
  output : List Output
  status : String
  incompleteReason : Option String
deriving DecidableEq, Repr

def isResponsesToolOutputType (outputType : String) : Bool :=
  outputType = "function_call" || outputType = "custom_tool_call"

def responsesFinishReasonFromStatus (response : Option Response) : Option String :=
  match response with
  | none => none
  | some response =>
      if trimSpace response.status ≠ "incomplete" then none
      else if (response.incompleteReason.map trimSpace).getD "" = "content_filter" then some "content_filter"
      else some "length"

/-- A `strings.Builder` that gets the texts one after the other. -/
def concat (texts : List String) : String := texts.foldr (· ++ ·) ""

/-! ## The whole response -/

structure ToolCall where
  id : String
  name : String
  arguments : String
deriving DecidableEq, Repr

structure ChatMessage where
  content : String
  reasoning : String
  toolCalls : List ToolCall
  finishReason : Option String
deriving DecidableEq, Repr

def Output.isAssistantMessage (out : Output) : Bool :=
  out.type = "message" && (out.role = "" || out.role = "assistant")

def Output.outputText (out : Output) : String :=
  concat ((out.content.filter fun c => c.type = "output_text").map OutputContent.text)

def Output.allText (out : Output) : String := concat (out.content.map OutputContent.text)

def extractOutputText (output : List Output) : String :=
  let text := concat ((output.filter Output.isAssistantMessage).map Output.outputText)
  if text ≠ "" then text else concat (output.map Output.allText)

def extractReasoningText (output : List Output) : String :=
  concat ((output.filter fun out => out.type = "reasoning").map Output.allText)

def toolCallOf (out : Output) : Option ToolCall :=
  if !isResponsesToolOutputType out.type then none
  else if trimSpace out.name = "" then none
  else some
    { id := if trimSpace out.callId = "" then trimSpace out.id else trimSpace out.callId
      name := trimSpace out.name
      arguments := out.arguments }

def responsesResponseToChatCompletionsResponse (response : Response) : ChatMessage :=
  let toolCalls := response.output.filterMap toolCallOf
  { content := extractOutputText response.output
    reasoning := extractReasoningText response.output
    toolCalls
    finishReason := match responsesFinishReasonFromStatus (some response) with
      | some reason => some reason
      | none => if toolCalls ≠ [] then some "tool_calls" else some "stop" }

/-! ## The stream -/

inductive EventType where
  | created
  | completed
  | done
  | incomplete
  | failed
  | error
  | outputTextDelta
  | outputItemAdded
  | outputItemDone
  | functionArgsDelta
  | functionArgsDone
  | customToolInputDelta
  | customToolInputDone
  | reasoningSummaryDelta
  | reasoningSummaryDone
  | reasoningTextDelta
  | reasoningTextDone
  | other
deriving DecidableEq, Repr

/-- `dto.ResponsesStreamResponse`. -/
structure Event where
  type : EventType
  response : Option Response
  delta : String
  item : Option Output
  outputIndex : Option ℤ
  itemID : String
deriving DecidableEq, Repr

/-- The texts `output:N`, `item:ID` and `call:ID` that tools are found by. -/
inductive Key where
  | output (index : ℤ)
  | item (id : String)
  | call (id : String)
deriving DecidableEq, Repr

def Key.text : Key → String
  | .output index => "output:" ++ toString index
  | .item id => "item:" ++ id
  | .call id => "call:" ++ id

/-- `responsesStreamTool`. -/
structure Tool where
  key : Key
  callID : String
  itemID : String
  name : String
  arguments : String
  index : ℕ
  sent : Bool
  nameSent : Bool
  argsSentAt : ℕ
deriving DecidableEq, Repr

def Tool.fresh (key : Key) (index : ℕ) (callID : String) : Tool := ⟨key, callID, "", "", "", index, false, false, 0⟩

/-- A chunk of a chat completion; all have one choice. -/
inductive Chunk where
  | start
  | content (delta : String)
  | reasoning (delta : String)
  | toolCall (index : ℕ) (id name arguments : String)
  | finish (reason : String)
  | usage
deriving DecidableEq, Repr

abbrev PendingArgs (κ : Type) := Table (κ × String) Prod.fst

namespace PendingArgs
variable {κ : Type} [DecidableEq κ]

def read (pending : PendingArgs κ) (k : κ) : String := ((pending.get k).map Prod.snd).getD ""

def append (pending : PendingArgs κ) (k : κ) (delta : String) : PendingArgs κ :=
  match pending.get k with
  | none => pending.add (k, delta)
  | some entry => pending.put (k, entry.2 ++ delta)

end PendingArgs

/-- `ResponsesToChatStreamState`. -/
structure StreamState where
  includeUsage : Bool
  sentStart : Bool
  finalized : Bool
  hasSentText : Bool
  sawToolCall : Bool
  hasSentReasoning : Bool
  needsReasoningSummaryBreak : Bool
  nextToolIndex : ℕ
  toolByKey : Table Tool Tool.key
  outputIndexToKey : ℤ → Option Key
  itemIDToKey : String → Option Key
  pendingArgsByOutputIndex : PendingArgs ℤ
  pendingArgsByItemID : PendingArgs String

def newResponsesToChatStreamState (includeUsage : Bool) : StreamState :=
  ⟨includeUsage, false, false, false, false, false, false, 0, Table.empty, fun _ => none, fun _ => none,
    Table.empty, Table.empty⟩

abbrev Sent := StreamState × List Chunk

def ensureStart (s : StreamState) : Sent := if s.sentStart then (s, []) else ({ s with sentStart := true }, [.start])

def textDelta (s : StreamState) (delta : String) : Sent :=
  if delta = "" then (s, [])
  else
    let (s, chunks) := ensureStart { s with hasSentText := true }
    (s, chunks ++ [.content delta])

def reasoningDelta (s : StreamState) (delta : String) : Sent :=
  if delta = "" then (s, [])
  else
    let delta := if !s.needsReasoningSummaryBreak || hasPrefix delta "\n\n" then delta
      else if hasPrefix delta "\n" then "\n" ++ delta else "\n\n" ++ delta
    let (s, chunks) := ensureStart { s with needsReasoningSummaryBreak := false }
    ({ s with hasSentReasoning := true }, chunks ++ [.reasoning delta])

def Tool.argsDelta (tool : Tool) (explicitDelta : String) : String :=
  if explicitDelta = "" ∧ tool.argsSentAt < tool.arguments.utf8ByteSize then
    sliceFrom tool.arguments tool.argsSentAt
  else explicitDelta

def Tool.afterSending (tool : Tool) (argsDelta : String) : Tool :=
  { tool with
    sent := true
    nameSent := tool.nameSent || tool.name ≠ ""
    argsSentAt := tool.argsSentAt + argsDelta.utf8ByteSize }

def Tool.chunk (tool : Tool) (argsDelta : String) : Chunk :=
  .toolCall tool.index (if trimSpace tool.callID = "" then tool.key.text else trimSpace tool.callID)
    (if tool.nameSent then "" else tool.name) argsDelta

/-- `toolDelta`; the tool is stored as it is afterwards. -/
def toolDelta (s : StreamState) (tool : Tool) (explicitDelta : String) : Sent :=
  let argsDelta := tool.argsDelta explicitDelta
  if tool.sent ∧ argsDelta = "" ∧ (tool.name = "" ∨ tool.nameSent) then
    ({ s with toolByKey := s.toolByKey.put tool }, [])
  else
    let (s, chunks) := ensureStart s
    ({ s with toolByKey := s.toolByKey.put (tool.afterSending argsDelta), sawToolCall := true },
      chunks ++ [tool.chunk argsDelta])

def keyForEvent (event : Event) : Option Key :=
  match event.outputIndex, event.item with
  | some index, _ => some (.output index)
  | none, some item =>
      if trimSpace item.id ≠ "" then some (.item (trimSpace item.id))
      else if trimSpace item.callId ≠ "" then some (.call (trimSpace item.callId))
      else if trimSpace event.itemID ≠ "" then some (.item (trimSpace event.itemID))
      else none
  | none, none => if trimSpace event.itemID ≠ "" then some (.item (trimSpace event.itemID)) else none

def responseStreamEventItemID (event : Event) : String :=
  match event.item with
  | some item => if trimSpace item.id ≠ "" then trimSpace item.id else trimSpace event.itemID
  | none => trimSpace event.itemID

def toolFor (s : StreamState) (key : Key) (callID : String) : StreamState × Tool :=
  match s.toolByKey.get key with
  | some tool => (s, tool)
  | none =>
      let tool := Tool.fresh key s.nextToolIndex callID
      ({ s with nextToolIndex := s.nextToolIndex + 1, toolByKey := s.toolByKey.add tool }, tool)

def linkOutputIndex (s : StreamState) (tool : Tool) : Option ℤ → StreamState × Tool
  | none => (s, tool)
  | some index =>
      let pending := s.pendingArgsByOutputIndex.read index
      ({ s with
          outputIndexToKey := Function.update s.outputIndexToKey index (some tool.key)
          pendingArgsByOutputIndex := if pending = "" then s.pendingArgsByOutputIndex
            else s.pendingArgsByOutputIndex.remove index },
        { tool with arguments := tool.arguments ++ pending })

def linkItemID (s : StreamState) (tool : Tool) (itemID : String) : StreamState × Tool :=
  if itemID = "" then (s, tool)
  else
    let pending := s.pendingArgsByItemID.read itemID
    ({ s with
        itemIDToKey := Function.update s.itemIDToKey itemID (some tool.key)
        pendingArgsByItemID := if pending = "" then s.pendingArgsByItemID else s.pendingArgsByItemID.remove itemID },
      { tool with itemID := itemID, arguments := tool.arguments ++ pending })

def fallbackToolKey (itemID callID : String) (outputIndex : Option ℤ) : Option Key :=
  match outputIndex with
  | some index => some (.output index)
  | none =>
      if trimSpace itemID ≠ "" then some (.item (trimSpace itemID))
      else if trimSpace callID ≠ "" then some (.call (trimSpace callID))
      else none

def ensureToolForEvent (s : StreamState) (event : Event) (item : Output) : Option (StreamState × Tool) :=
  ((keyForEvent event).or (fallbackToolKey item.id item.callId event.outputIndex)).map fun key =>
    let (s, tool) := toolFor s key ""
    let (s, tool) := linkOutputIndex s tool event.outputIndex
    let (s, tool) := linkItemID s tool (responseStreamEventItemID event)
    (s, { tool with
      callID := if trimSpace item.callId ≠ "" then trimSpace item.callId
        else if tool.callID = "" then trimSpace item.id else tool.callID
      name := if trimSpace item.name ≠ "" then trimSpace item.name else tool.name })

def findToolForEvent (s : StreamState) (event : Event) : Option Tool :=
  let byOutput := event.outputIndex.bind s.outputIndexToKey
  let byItem := if trimSpace event.itemID = "" then none else s.itemIDToKey (trimSpace event.itemID)
  let byEvent := if event.item.isSome then keyForEvent event else none
  (byOutput.or (byItem.or byEvent)).bind s.toolByKey.get

def fallbackCallID (event : Event) : String :=
  if trimSpace event.itemID ≠ "" then trimSpace event.itemID
  else match event.outputIndex with
    | some index => "call_output_" ++ toString index
    | none => ""

def ensureFallbackToolForEvent (s : StreamState) (event : Event) : Option (StreamState × Tool) :=
  let key := match event.outputIndex with
    | some index => some (Key.output index)
    | none => if trimSpace event.itemID ≠ "" then some (.item (trimSpace event.itemID)) else none
  key.map fun key =>
    let (s, tool) := toolFor s key (fallbackCallID event)
    let (s, tool) := linkOutputIndex s tool event.outputIndex
    linkItemID s tool (responseStreamEventItemID event)

def toolItem (s : StreamState) (event : Event) (item : Output) : Sent :=
  match ensureToolForEvent s event item with
  | none => (s, [])
  | some (s, tool) =>
      toolDelta s { tool with arguments := if item.arguments ≠ "" then item.arguments else tool.arguments } ""

def outputItem (s : StreamState) (event : Event) : Sent :=
  match event.item with
  | none => (s, [])
  | some item => if isResponsesToolOutputType item.type then toolItem s event item else (s, [])

def toolArgumentsDelta (s : StreamState) (event : Event) : Sent :=
  if event.delta = "" then (s, [])
  else match findToolForEvent s event with
    | some tool => toolDelta s { tool with arguments := tool.arguments ++ event.delta } event.delta
    | none => match event.outputIndex with
        | some index =>
            ({ s with pendingArgsByOutputIndex := s.pendingArgsByOutputIndex.append index event.delta }, [])
        | none =>
            if trimSpace event.itemID = "" then (s, [])
            else ({ s with
              pendingArgsByItemID := s.pendingArgsByItemID.append (trimSpace event.itemID) event.delta }, [])

def flushPendingTool (s : StreamState) (event : Event) : Sent :=
  match findToolForEvent s event with
  | some tool => toolDelta s tool ""
  | none => match ensureFallbackToolForEvent s event with
      | none => (s, [])
      | some (s, tool) => toolDelta s tool ""

def terminalItem (s : StreamState) (out : Output) : Sent :=
  if out.type = "message" ∧ !s.hasSentText then textDelta s out.outputText
  else if out.type = "reasoning" ∧ !s.hasSentReasoning then reasoningDelta s out.allText
  else if isResponsesToolOutputType out.type then toolItem s ⟨.other, none, "", some out, none, ""⟩ out
  else (s, [])

def terminalOutputChunks : StreamState → List Output → Sent
  | s, [] => (s, [])
  | s, out :: rest =>
      let (s, chunks) := terminalItem s out
      let (s, more) := terminalOutputChunks s rest
      (s, chunks ++ more)

def flushKeys (s : StreamState) : List Key :=
  (s.toolByKey.rows.map Tool.key ++ s.pendingArgsByOutputIndex.rows.map (fun entry => Key.output entry.1) ++
    s.pendingArgsByItemID.rows.map (fun entry => Key.item entry.1)).dedup.insertionSort fun a b => a.text ≤ b.text

def flushCallID : Key → String
  | .output index => "call_output_" ++ toString index
  | .item id => id
  | .call id => "call:" ++ id

def takePending (s : StreamState) (tool : Tool) : Key → StreamState × Tool
  | .output index =>
      ({ s with pendingArgsByOutputIndex := s.pendingArgsByOutputIndex.remove index },
        { tool with arguments := tool.arguments ++ s.pendingArgsByOutputIndex.read index })
  | .item id =>
      ({ s with pendingArgsByItemID := s.pendingArgsByItemID.remove id },
        { tool with arguments := tool.arguments ++ s.pendingArgsByItemID.read id })
  | .call _ => (s, tool)

def flushKey (s : StreamState) (key : Key) : Sent :=
  let (s, tool) := toolFor s key (flushCallID key)
  let (s, tool) := takePending s tool key
  toolDelta s tool ""

def flushAll : StreamState → List Key → Sent
  | s, [] => (s, [])
  | s, key :: keys =>
      let (s, chunks) := flushKey s key
      let (s, more) := flushAll s keys
      (s, chunks ++ more)

def flushAllPendingTools (s : StreamState) : Sent := flushAll s (flushKeys s)

def finishChunks (s : StreamState) (response : Option Response) : List Chunk :=
  let finishReason := match responsesFinishReasonFromStatus response with
    | some reason => reason
    | none => if s.sawToolCall then "tool_calls" else "stop"
  .finish finishReason :: if s.includeUsage then [.usage] else []

def finalize (s : StreamState) (response : Option Response) : Sent :=
  if s.finalized then (s, [])
  else
    let (s, flushed) := flushAllPendingTools { s with finalized := true }
    let (s, start) := ensureStart s
    (s, flushed ++ start ++ finishChunks s response)

def terminal (s : StreamState) (response : Option Response) : Sent :=
  let (s, chunks) := terminalOutputChunks s ((response.map Response.output).getD [])
  let (s, last) := finalize s response
  (s, chunks ++ last)

def ensureIncompleteResponse (response : Option Response) : Response :=
  match response with
  | none => ⟨[], "incomplete", none⟩
  | some response => if response.status = "" then { response with status := "incomplete" } else response

/-- `ResponsesStreamEventToChatChunks`: the state afterwards, and the chunks or the text of the error. -/
def responsesStreamEventToChatChunks (s : StreamState) (event : Event) : StreamState × Except String (List Chunk) :=
  let sent (result : Sent) : StreamState × Except String (List Chunk) := (result.1, .ok result.2)
  match event.type with
  | .created => sent (ensureStart s)
  | .reasoningSummaryDelta | .reasoningTextDelta => sent (reasoningDelta s event.delta)
  | .reasoningSummaryDone | .reasoningTextDone =>
      sent ({ s with needsReasoningSummaryBreak := s.needsReasoningSummaryBreak || s.hasSentReasoning }, [])
  | .outputTextDelta => sent (textDelta s event.delta)
  | .outputItemAdded | .outputItemDone => sent (outputItem s event)
  | .functionArgsDelta | .customToolInputDelta => sent (toolArgumentsDelta s event)
  | .functionArgsDone | .customToolInputDone => sent (flushPendingTool s event)
  | .completed | .done => sent (terminal s event.response)
  | .incomplete => sent (terminal s (some (ensureIncompleteResponse event.response)))
  | .failed => (s, .error "responses stream error: response.failed")
  | .error => (s, .error "responses stream error: response.error")
  | .other => sent (s, [])

end HotAI.Convert
