import HotAI.Messages.ToClaude

/-! # The messages of a Claude request for a chat model (`service/convert.go`)

The message part of `ClaudeToOpenAIRequest`. Text and images go into the content of a message of the same role, tool uses
into its tool calls, and each tool result into a message of its own before it. -/
namespace HotAI.FromClaude
open HotAI.Lib HotAI.Messages List

structure ClaudeMessageSource where
  type : String
  mediaType : String
  data : Option String
  url : String
deriving DecidableEq, Repr

/-- The content of a tool result: a text, or the JSON text of the blocks it consists of. -/
inductive ResultContent where
  | string (s : String)
  | blocks (json : String)
deriving DecidableEq, Repr

inductive MediaMessage where
  | text (text : String)
  | image (source : ClaudeMessageSource)
  | toolUse (id name : String) (input : Json)
  | toolResult (toolUseId name : String) (content : ResultContent)

inductive ClaudeContent where
  | string (s : String)
  | blocks (blocks : List MediaMessage)

structure ClaudeMessage where
  role : Role
  role_ok : role = .user ∨ role = .assistant
  content : ClaudeContent

inductive SystemContent where
  | string (s : String)
  | blocks (texts : List (Option String))

structure ClaudeRequest where
  system : Option SystemContent
  messages : List ClaudeMessage

/-! ## Chat messages -/

inductive MediaContent where
  | text (text : String)
  | imageUrl (url : String)
deriving DecidableEq, Repr

/-- The content of a `dto.Message`; `α` is what is kept of a `dto.MediaContent`. -/
inductive Content (α : Type) where
  | absent
  | string (s : String)
  | media (contents : List α)
deriving DecidableEq, Repr

/-- `dto.Message.ParseContent`; `text` makes a text of a string. -/
def Content.parse {α : Type} (text : String → α) : Content α → List α
  | .absent => []
  | .string s => [text s]
  | .media contents => contents

structure ToolCallRequest where
  id : String
  name : String
  arguments : Json

structure Message where
  role : Role
  content : Content MediaContent
  toolCalls : List ToolCallRequest
  name : Option String
  toolCallId : String

def Message.parseContent (m : Message) : List MediaContent := m.content.parse .text

/-! ## The conversion -/

def ClaudeMessage.parseContent (m : ClaudeMessage) : List MediaMessage :=
  match m.content with
  | .string _ => []
  | .blocks blocks => blocks

def MediaMessage.id : MediaMessage → String
  | .toolUse id _ _ => id
  | _ => ""

def MediaMessage.name : MediaMessage → String
  | .toolUse _ name _ => name
  | .toolResult _ name _ => name
  | _ => ""

def ClaudeRequest.searchToolNameByToolCallId (request : ClaudeRequest) (toolCallId : String) : String :=
  (((request.messages.flatMap ClaudeMessage.parseContent).find? (·.id = toolCallId)).map MediaMessage.name).getD ""

/-- `fmt.Sprintf("data:%s;base64,%s", …)`; a source with a URL has no data. -/
def ClaudeMessageSource.imageData (source : ClaudeMessageSource) : String :=
  "data:" ++ source.mediaType ++ ";base64," ++ source.data.getD "%!s(<nil>)"

def ResultContent.text : ResultContent → String
  | .string s => s
  | .blocks json => json

def ClaudeRequest.toolMessage (request : ClaudeRequest) (toolUseId name : String) (content : ResultContent) : Message where
  role := .tool
  content := .string content.text
  toolCalls := []
  name := some (if name = "" then request.searchToolNameByToolCallId toolUseId else name)
  toolCallId := toolUseId

structure Loop where
  openAIMessages : List Message
  toolCalls : List ToolCallRequest
  mediaMessages : List MediaContent

def ClaudeRequest.addBlock (request : ClaudeRequest) (s : Loop) : MediaMessage → Loop
  | .text text => { s with mediaMessages := s.mediaMessages ++ [.text text] }
  | .image source => { s with mediaMessages := s.mediaMessages ++ [.imageUrl source.imageData] }
  -- `ParseContent` has decoded the input, and `toJSONString` writes it again
  | .toolUse id name input => { s with toolCalls := s.toolCalls ++ [⟨id, name, input.decoded⟩] }
  | .toolResult toolUseId name content =>
      { s with openAIMessages := s.openAIMessages ++ [request.toolMessage toolUseId name content] }

def ClaudeRequest.addMessage (request : ClaudeRequest) (openAIMessages : List Message) (m : ClaudeMessage) : List Message :=
  let openAIMessage : Message := ⟨m.role, .absent, [], none, ""⟩
  let (openAIMessages, openAIMessage) := match m.content with
    | .string s => (openAIMessages, { openAIMessage with content := Content.string s })
    | .blocks blocks =>
        let s := blocks.foldl request.addBlock ⟨openAIMessages, [], []⟩
        (s.openAIMessages,
          { openAIMessage with
            toolCalls := s.toolCalls
            content := if s.mediaMessages ≠ [] ∧ s.toolCalls = [] then Content.media s.mediaMessages else .absent })
  if openAIMessage.parseContent ≠ [] ∨ openAIMessage.toolCalls.length > 0 then openAIMessages ++ [openAIMessage]
  else openAIMessages

def ClaudeRequest.systemMessages (request : ClaudeRequest) (isOpenRouterClaude : Bool) : List Message :=
  match request.system with
  | none => []
  | some (.string s) => if s ≠ "" then [⟨.system, .string s, [], none, ""⟩] else []
  | some (.blocks texts) =>
      if texts = [] then []
      else if isOpenRouterClaude then
        [⟨.system, .media (texts.map fun text => .text (text.getD "")), [], none, ""⟩]
      else [⟨.system, .string (joinMap (fun text => text.getD "") texts), [], none, ""⟩]

/-- The messages of the request that `ClaudeToOpenAIRequest` returns. -/
def claudeToOpenAIRequest (isOpenRouterClaude : Bool) (request : ClaudeRequest) : List Message :=
  request.messages.foldl request.addMessage (request.systemMessages isOpenRouterClaude)

/-! ## What becomes of one message -/

def MediaMessage.media? : MediaMessage → Option MediaContent
  | .text s => some (.text s)
  | .image source => some (.imageUrl source.imageData)
  | _ => none

def MediaMessage.toolCall? : MediaMessage → Option ToolCallRequest
  | .toolUse id name input => some ⟨id, name, input.decoded⟩
  | _ => none

def ClaudeRequest.toolMessage? (request : ClaudeRequest) : MediaMessage → Option Message
  | .toolResult toolUseId name content => some (request.toolMessage toolUseId name content)
  | _ => none

variable (request : ClaudeRequest)

theorem addBlock_run (blocks : List MediaMessage) (s : Loop) : blocks.foldl request.addBlock s =
    ⟨s.openAIMessages ++ blocks.filterMap request.toolMessage?, s.toolCalls ++ blocks.filterMap MediaMessage.toolCall?,
      s.mediaMessages ++ blocks.filterMap MediaMessage.media?⟩ := by
  induction blocks generalizing s with
  | nil => simp
  | cons block blocks ih =>
    rw [foldl_cons, ih]
    cases block <;>
      simp [ClaudeRequest.addBlock, filterMap_cons, ClaudeRequest.toolMessage?, MediaMessage.toolCall?,
        MediaMessage.media?]

def ClaudeMessage.own (m : ClaudeMessage) : List Message :=
  match m.content with
  | .string s => [⟨m.role, .string s, [], none, ""⟩]
  | .blocks blocks =>
      match blocks.filterMap MediaMessage.toolCall?, blocks.filterMap MediaMessage.media? with
      | [], [] => []
      | [], contents => [⟨m.role, .media contents, [], none, ""⟩]
      | calls, _ => [⟨m.role, .absent, calls, none, ""⟩]

def ClaudeRequest.group (m : ClaudeMessage) : List Message :=
  m.parseContent.filterMap request.toolMessage? ++ m.own

theorem addMessage_eq (openAIMessages : List Message) (m : ClaudeMessage) :
    request.addMessage openAIMessages m = openAIMessages ++ request.group m := by
  unfold ClaudeRequest.addMessage ClaudeRequest.group ClaudeMessage.own ClaudeMessage.parseContent
  cases m.content with
  | string s => simp [Message.parseContent, Content.parse]
  | blocks blocks =>
    simp only [addBlock_run, nil_append]
    cases hcalls : blocks.filterMap MediaMessage.toolCall? <;> cases hmedia : blocks.filterMap MediaMessage.media? <;>
      simp [Message.parseContent, Content.parse]

theorem claudeToOpenAIRequest_eq (isOpenRouterClaude : Bool) : claudeToOpenAIRequest isOpenRouterClaude request =
    request.systemMessages isOpenRouterClaude ++ request.messages.flatMap request.group := by
  have hrun : ∀ (ms : List ClaudeMessage) (out : List Message),
      ms.foldl request.addMessage out = out ++ ms.flatMap request.group := by
    intro ms
    induction ms with
    | nil => exact fun out => (append_nil out).symm
    | cons m ms ih =>
      intro out
      rw [foldl_cons, ih, addMessage_eq, flatMap_cons, append_assoc]
  exact hrun _ _

end HotAI.FromClaude
