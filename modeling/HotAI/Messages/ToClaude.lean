import HotAI.Lib.Float64

/-! # The messages of a chat request for Claude (`relay/channel/claude/relay-claude.go`)

The first loop of `RequestOpenAI2ClaudeMessage` joins neighbouring messages of one role and fills in empty contents; the
second takes the system messages out and puts the results of tools into user messages. -/
namespace HotAI.Messages
open HotAI.Lib

inductive Role where
  | system
  | user
  | assistant
  | tool
  /-- the empty text -/
  | unnamed
deriving DecidableEq, Repr

inductive Content where
  | absent
  | string (s : String)
  | parts (texts : List String)
deriving DecidableEq, Repr

structure ToolCall where
  id : String
  name : String
  arguments : Option Json

structure Message where
  role : Role
  content : Content
  toolCalls : Option (List ToolCall)
  toolCallId : String

def Message.parseToolCalls (m : Message) : List ToolCall := m.toolCalls.getD []

def Message.parseContent (m : Message) : List String :=
  match m.content with
  | .absent => []
  | .string s => [s]
  | .parts texts => texts

/-! ## First loop -/

def placeholder : String := "..."

structure Formatting where
  formatMessages : List Message
  lastMessage : Message

def Formatting.init : Formatting := ⟨[], ⟨.tool, .absent, none, ""⟩⟩

def Message.copy (m : Message) : Message where
  role := m.role
  content := m.content
  toolCalls := if m.role = .assistant then m.toolCalls else none
  toolCallId := if m.role = .tool then m.toolCallId else ""

def Content.filled : Content → Content
  | .absent => .string placeholder
  | .string s => if s = "" then .string placeholder else .string s
  | .parts texts => .parts texts

def joinContents (last next : String) : String := String.ofList (trimEnds (· = '"') (last ++ " " ++ next).toList)

def Formatting.step (f : Formatting) (m : Message) : Formatting :=
  match decide (f.lastMessage.role = m.role ∧ f.lastMessage.role ≠ .tool), f.lastMessage.content, m.content with
  | true, .string last, .string next =>
      let fmtMessage := { m.copy with content := Content.filled (.string (joinContents last next)) }
      ⟨f.formatMessages.dropLast ++ [fmtMessage], fmtMessage⟩
  | _, _, _ =>
      let fmtMessage := { m.copy with content := m.content.filled }
      ⟨f.formatMessages ++ [fmtMessage], fmtMessage⟩

/-! ## Second loop -/

inductive Block where
  | text (text : String)
  | toolUse (id name : String) (input : Json)
  | toolResult (toolUseId : String) (content : Content)

inductive ClaudeContent where
  | string (s : String)
  | blocks (blocks : List Block)

structure ClaudeMessage where
  role : Role
  content : ClaudeContent

structure Converting where
  claudeMessages : List ClaudeMessage
  isFirstMessage : Bool
  systemMessages : List String

def Converting.init : Converting := ⟨[], true, []⟩

/-- What `json.Unmarshal` leaves in a map for the arguments. -/
def ToolCall.input (call : ToolCall) : Json :=
  match call.arguments with
  | some (.obj fields) => Json.decoded (.obj fields)
  | some .null => .null
  | _ => .obj []

def ToolCall.toolUse (call : ToolCall) : Block := .toolUse call.id call.name call.input

def ClaudeMessage.withToolResult (last : ClaudeMessage) (result : Block) : ClaudeMessage :=
  match last.content with
  | .string s => { last with content := .blocks [.text s, result] }
  | .blocks blocks => { last with content := .blocks (blocks ++ [result]) }

def Converting.addTool (c : Converting) (m : Message) : Converting :=
  let result := Block.toolResult m.toolCallId m.content
  match c.claudeMessages.getLast? with
  | some ⟨.user, content⟩ =>
      { c with claudeMessages := c.claudeMessages.dropLast ++ [ClaudeMessage.withToolResult ⟨.user, content⟩ result] }
  | _ => { c with claudeMessages := c.claudeMessages ++ [⟨.user, .blocks [result]⟩] }

def Message.claudeContent (m : Message) : ClaudeContent :=
  match m.content, m.toolCalls with
  | .string s, none => .string (if s = "" then placeholder else s)
  | _, _ => .blocks ((m.parseContent.filter (· ≠ "")).map .text ++ m.parseToolCalls.map ToolCall.toolUse)

def Converting.begin (c : Converting) (m : Message) : Converting :=
  if c.isFirstMessage then
    { c with
      isFirstMessage := false
      claudeMessages := if m.role ≠ .user then c.claudeMessages ++ [⟨.user, .blocks [.text placeholder]⟩] else c.claudeMessages }
  else c

def Converting.step (c : Converting) (m : Message) : Converting :=
  match m.role with
  | .system => { c with systemMessages := c.systemMessages ++ m.parseContent.filter (· ≠ "") }
  | .tool => (c.begin m).addTool m
  | .user | .assistant | .unnamed =>
      { c.begin m with claudeMessages := (c.begin m).claudeMessages ++ [⟨m.role, m.claudeContent⟩] }

/-- The messages of the request that `RequestOpenAI2ClaudeMessage` returns. -/
def requestOpenAI2ClaudeMessage (messages : List Message) : List ClaudeMessage :=
  ((messages.foldl Formatting.step .init).formatMessages.foldl Converting.step .init).claudeMessages

end HotAI.Messages
