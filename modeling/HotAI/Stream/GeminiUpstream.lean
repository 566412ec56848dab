import HotAI.Stream.Aggregate

/-! # Answers of Gemini as chat completions (`relay/channel/gemini/relay-gemini.go`)

`responseGeminiChat2OpenAI` converts a whole answer, `streamResponseGeminiChat2OpenAI` one chunk, and `GeminiChatStreamHandler`
numbers the tool calls and sends the chunks. -/
namespace HotAI.GeminiUpstream
open HotAI.Lib HotAI.Stream

/-- Of `dto.FunctionCall`; the arguments are the text that `json.Marshal` makes of them. -/
structure FunctionCall where
  functionName : String
  arguments : String
deriving DecidableEq, Repr

inductive Part where
  | inlineData (mimeType data : String)
  | functionCall (call : FunctionCall)
  | thought (text : String)
  | executableCode (language code : String)
  | codeExecutionResult (output : String)
  | text (text : String)
deriving DecidableEq, Repr

structure Candidate where
  index : ℕ
  parts : List Part
  finishReason : Option String
deriving DecidableEq, Repr

/-- The ids of `GetUUID`, one after the other. -/
structure Uuids where
  uuid : ℕ → String
  injective : Function.Injective uuid

variable (uuids : Uuids)

def Uuids.callId (n : ℕ) : String := "call_" ++ uuids.uuid n

def getResponseToolCall (made : ℕ) (call : FunctionCall) : ToolCallResponse :=
  ⟨none, uuids.callId made, ⟨call.functionName, call.arguments⟩⟩

def mapFinishReason : String → String
  | "STOP" => "stop"
  | "MAX_TOKENS" => "length"
  | _ => "content_filter"

/-- A character of a builder. The line breaks of `writeSep` are told apart from those of the texts. -/
inductive Letter where
  | said (c : Char)
  | separator
deriving DecidableEq, Repr

def Letter.char : Letter → Char
  | .said c => c
  | .separator => '\n'

structure Written where
  content : List Letter
  appended : ℕ
deriving DecidableEq, Repr

/-- `writeSep` and the text after it. -/
def Written.write (w : Written) (text : String) : Written :=
  ⟨(if 0 < w.appended then w.content ++ [.separator] else w.content) ++ text.toList.map .said, w.appended + 1⟩

def imageLink (mimeType data : String) : String := "![image](data:" ++ mimeType ++ ";base64," ++ data ++ ")"

def mediaLink (mimeType data : String) : String :=
  if hasPrefix mimeType "image" then imageLink mimeType data else "[media](data:" ++ mimeType ++ ";base64," ++ data ++ ")"

/-! ## A whole answer -/

structure TextChoice where
  index : ℕ
  content : List Letter
  reasoningContent : Option String
  toolCalls : List ToolCallResponse
  finishReason : String
deriving DecidableEq, Repr

structure TextState where
  written : Written
  reasoningContent : Option String
  toolCalls : List ToolCallResponse
  finishReason : String
  made : ℕ
deriving DecidableEq, Repr

def textPart (s : TextState) : Part → TextState
  | .inlineData mimeType data => { s with written := s.written.write (mediaLink mimeType data) }
  | .functionCall call =>
      { s with finishReason := "tool_calls", toolCalls := s.toolCalls ++ [getResponseToolCall uuids s.made call], made := s.made + 1 }
  | .thought text => { s with reasoningContent := some text }
  | .executableCode language code => { s with written := s.written.write ("```" ++ language ++ "\n" ++ code ++ "\n```") }
  | .codeExecutionResult output => { s with written := s.written.write ("```output\n" ++ output ++ "\n```") }
  | .text text => if text = "\n" then s else { s with written := s.written.write text }

/-- One candidate; `isToolCall` is kept from candidate to candidate. -/
def textChoice (isToolCall : Bool) (made : ℕ) (candidate : Candidate) : TextChoice × Bool × ℕ :=
  let s := candidate.parts.foldl (textPart uuids) ⟨⟨[], 0⟩, none, [], "stop", made⟩
  let isToolCall := isToolCall || !s.toolCalls.isEmpty
  let finishReason := match candidate.finishReason with
    | some reason => mapFinishReason reason
    | none => s.finishReason
  (⟨candidate.index, s.written.content, s.reasoningContent, s.toolCalls, if isToolCall then "tool_calls" else finishReason⟩,
    isToolCall, s.made)

structure Delta where
  content : Option (List Letter)
  reasoningContent : Option (List Letter)
  toolCalls : List ToolCallResponse
deriving DecidableEq, Repr

def Delta.getContentString (d : Delta) : List Letter := d.content.getD []

def Delta.getReasoningContent (d : Delta) : List Letter := d.reasoningContent.getD []

structure Choice where
  index : ℕ
  delta : Delta
  finishReason : Option String
deriving DecidableEq, Repr

structure DeltaState where
  written : Written
  toolCalls : List ToolCallResponse
  isTools : Bool
  isThought : Bool
  made : ℕ
deriving DecidableEq, Repr

def deltaPart (s : DeltaState) : Part → DeltaState
  | .inlineData mimeType data =>
      if hasPrefix mimeType "image" then { s with written := s.written.write (imageLink mimeType data) } else s
  | .functionCall call =>
      { s with
        isTools := true
        toolCalls := s.toolCalls ++ [{ getResponseToolCall uuids s.made call with index := some s.toolCalls.length }]
        made := s.made + 1 }
  | .thought text => { s with isThought := true, written := s.written.write text }
  | .executableCode language code => { s with written := s.written.write ("```" ++ language ++ "\n" ++ code ++ "\n```\n") }
  | .codeExecutionResult output => { s with written := s.written.write ("```output\n" ++ output ++ "\n```\n") }
  | .text text => if text = "\n" then s else { s with written := s.written.write text }

def deltaChoice (made : ℕ) (candidate : Candidate) : Choice × ℕ :=
  let s := candidate.parts.foldl (deltaPart uuids) ⟨⟨[], 0⟩, [], false, false, made⟩
  -- a STOP is taken off and told by `isStop`
  let finishReason := if candidate.finishReason = some "STOP" then none else candidate.finishReason.map mapFinishReason
  (⟨candidate.index,
    ⟨if s.isThought then none else some s.written.content, if s.isThought then some s.written.content else none,
      s.toolCalls⟩,
    if s.isTools then some "tool_calls" else finishReason⟩, s.made)

def deltaChoices (made : ℕ) : List Candidate → List Choice × ℕ
  | [] => ([], made)
  | candidate :: rest =>
      let first := deltaChoice uuids made candidate
      let others := deltaChoices first.2 rest
      (first.1 :: others.1, others.2)

/-- `streamResponseGeminiChat2OpenAI`: the choices, whether one of them has stopped, and the ids made. -/
def streamResponseGeminiChat2OpenAI (made : ℕ) (candidates : List Candidate) : List Choice × Bool × ℕ :=
  let choices := deltaChoices uuids made candidates
  (choices.1, candidates.any fun candidate => candidate.finishReason = some "STOP", choices.2)

/-! ## The handler of a stream -/

/-- `toolCallIndexByChoice` and `nextToolCallIndexByChoice`. -/
structure Indices where
  byId : ℕ → String → Option ℕ
  next : ℕ → ℕ

def assignTool (key : ℕ) (indices : Indices) (tool : ToolCallResponse) : Indices × ToolCallResponse :=
  if tool.id = "" then (indices, tool)
  else match indices.byId key tool.id with
    | some index => (indices, { tool with index := some index })
    | none =>
        let index := indices.next key
        (⟨fun k id => if k = key ∧ id = tool.id then some index else indices.byId k id,
          fun k => if k = key then index + 1 else indices.next k⟩, { tool with index := some index })

def assignTools (key : ℕ) (indices : Indices) : List ToolCallResponse → Indices × List ToolCallResponse
  | [] => (indices, [])
  | tool :: rest =>
      let first := assignTool key indices tool
      let others := assignTools key first.1 rest
      (others.1, first.2 :: others.2)

def assignChoices (indices : Indices) : List Choice → Indices × List Choice
  | [] => (indices, [])
  | choice :: rest =>
      let tools := assignTools choice.index indices choice.delta.toolCalls
      let others := assignChoices tools.1 rest
      (others.1, { choice with delta := { choice.delta with toolCalls := tools.2 } } :: others.2)

/-- `IsToolCall` looks at the first choice only. -/
def isToolCall : List Choice → Bool
  | [] => false
  | first :: _ => !first.delta.toolCalls.isEmpty

def isFinished : List Choice → Bool
  | [] => false
  | first :: _ => match first.finishReason with
      | some reason => reason ≠ ""
      | none => false

def clearCalls (choice : Choice) : Choice :=
  { choice with delta := { choice.delta with
      toolCalls := choice.delta.toolCalls.map fun tool => ⟨tool.index, "", ⟨"", tool.function.arguments⟩⟩ } }

def clearToolCalls (choices : List Choice) : List Choice := if isToolCall choices then choices.map clearCalls else choices

/-- `GenerateStartEmptyResponse` with the tool calls it is given. -/
def startChoice (toolCalls : List ToolCallResponse) : Choice := ⟨0, ⟨some [], none, toolCalls⟩, none⟩

def stopChoice (finishReason : String) : Choice := ⟨0, ⟨none, none, []⟩, some finishReason⟩

def unfinishFirst : List Choice → List Choice
  | [] => []
  | first :: rest => { first with finishReason := none } :: rest

def firstResponses (choices : List Choice) : List Choice :=
  match choices with
  | first :: _ =>
      if isToolCall choices then
        let cleared := clearToolCalls choices
        startChoice (first.delta.toolCalls.map fun tool => { tool with function := ⟨tool.function.name, ""⟩ }) ::
          (if isFinished cleared then unfinishFirst cleared else cleared)
      else startChoice [] :: choices
  | [] => [startChoice []]

structure HandlerState where
  sendResponseCount : ℕ
  finishReason : String
  indices : Indices
  made : ℕ
  sent : List Choice

/-- The callback of `GeminiChatStreamHandler`. -/
def handleChunk (s : HandlerState) (candidates : List Candidate) : HandlerState :=
  let converted := streamResponseGeminiChat2OpenAI uuids s.made candidates
  let assigned := assignChoices s.indices converted.1
  let finishReason := if isToolCall assigned.2 then "tool_calls" else s.finishReason
  let responses := if s.sendResponseCount = 0 then firstResponses assigned.2 else assigned.2
  let stop := if converted.2.1 then [stopChoice finishReason] else []
  { sendResponseCount := s.sendResponseCount + (if s.sendResponseCount = 0 then 2 else 1) + stop.length
    finishReason := finishReason
    indices := assigned.1
    made := converted.2.2
    sent := s.sent ++ responses ++ stop }

def HandlerState.init : HandlerState := ⟨0, "stop", ⟨fun _ _ => none, fun _ => 0⟩, 0, []⟩

/-- `GeminiChatStreamHandler`: every choice that is sent. -/
def geminiChatStreamHandler (chunks : List (List Candidate)) : List Choice :=
  (chunks.foldl (handleChunk uuids) HandlerState.init).sent

end HotAI.GeminiUpstream
